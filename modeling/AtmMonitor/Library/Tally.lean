import AtmMonitor.Library.Upsert
import Mathlib.Algebra.Ring.Nat

namespace AtmMonitor.Library.Tally

open Library.Upsert

/-- The entries of one key, by the first of them and their number. -/
structure Bucket (α : Type) where
  first : α
  count : Nat

def Bucket.more {α : Type} (g : Bucket α) : Bucket α := { g with count := g.count + 1 }

variable {α κ : Type} [DecidableEq κ] (key : α → κ)

def bucketKey (g : Bucket α) : κ := key g.first

def tally (xs : List α) : List (Bucket α) :=
  upserts (bucketKey key) (fun x => ⟨x, 0⟩) (fun _ => Bucket.more) [] xs

/-- One bucket for each key, in the order in which the keys come up. -/
structure Tallied (xs : List α) (gs : List (Bucket α)) : Prop where
  covers : ∀ x ∈ xs, ∃ g ∈ gs, key g.first = key x
  distinct : (gs.map fun g => key g.first).Nodup
  ordered : (gs.map (·.first)).Sublist xs
  first : ∀ g ∈ gs, xs.find? (fun x => key x = key g.first) = some g.first
  counted : ∀ g ∈ gs, g.count = xs.countP fun x => key x = key g.first
  total : (gs.map (·.count)).sum = xs.length

variable {key}

omit [DecidableEq κ] in
theorem more_key (x : α) (g : Bucket α) :
    bucketKey key ((fun _ => Bucket.more) x g) = bucketKey key g := rfl

theorem foldl_more (xs : List α) (g : Bucket α) :
    xs.foldl (fun e x => some (e.getD ⟨x, 0⟩).more) (some g) =
      some ⟨g.first, g.count + xs.length⟩ := by
  induction xs generalizing g with
  | nil => rfl
  | cons x xs ih =>
    rw [List.foldl_cons, Option.getD_some, ih, List.length_cons, Bucket.more, Nat.add_assoc,
      Nat.add_comm 1]

theorem entry_tally (xs : List α) (k : κ) :
    entryOf (bucketKey key) (tally key xs) k =
      (xs.find? fun x => key x = k).map fun x => ⟨x, xs.countP fun x => key x = k⟩ := by
  have hown : ∀ own : List α,
      own.foldl (fun e x => some (e.getD ⟨x, 0⟩).more) (entryOf (bucketKey key) [] k) =
        own.head?.map fun x => ⟨x, own.length⟩ := by
    intro own
    cases own with
    | nil => rfl
    | cons x rest =>
      refine (foldl_more rest _).trans ?_
      simp [entryOf, Bucket.more, Nat.add_comm]
  rw [tally, entry_upserts more_key, ← List.head?_filter, List.countP_eq_length_filter]
  exact hown _

theorem tally_snoc (xs : List α) (x : α) :
    tally key (xs ++ [x]) = upsert (bucketKey key) ⟨x, 0⟩ Bucket.more (tally key xs) :=
  upserts_snoc [] xs x

theorem tally_ordered (xs : List α) : ((tally key xs).map (·.first)).Sublist xs := by
  induction xs using List.reverseRecOn with
  | nil => exact List.Sublist.refl []
  | append_singleton xs x ih =>
    rw [tally_snoc]
    by_cases hk : bucketKey key ⟨x, 0⟩ ∈ (tally key xs).map (bucketKey key)
    · have hfirst : ∀ g : Bucket α, g.more.first = g.first := fun _ => rfl
      rw [upsert_known hfirst hk]
      exact ih.trans (List.sublist_append_left xs [x])
    · rw [upsert_new hk, List.map_append]
      exact ih.append (List.Sublist.refl [x])

theorem upsert_total (x : α) (gs : List (Bucket α)) :
    ((upsert (bucketKey key) ⟨x, 0⟩ Bucket.more gs).map (·.count)).sum =
      (gs.map (·.count)).sum + 1 := by
  induction gs with
  | nil => rfl
  | cons g rest ih =>
    rw [upsert]
    split_ifs
    · simp only [List.map_cons, List.sum_cons, Bucket.more]
      omega
    · simp only [List.map_cons, List.sum_cons, ih]
      omega

theorem tally_total (xs : List α) : ((tally key xs).map (·.count)).sum = xs.length := by
  induction xs using List.reverseRecOn with
  | nil => rfl
  | append_singleton xs x ih =>
    rw [tally_snoc, upsert_total, ih, List.length_append, List.length_singleton]

theorem tallied_tally (xs : List α) : Tallied key xs (tally key xs) := by
  have hdistinct : ((tally key xs).map (bucketKey key)).Nodup :=
    upserts_nodup more_key xs List.nodup_nil
  have hbucket : ∀ g ∈ tally key xs, ∃ x, xs.find? (fun x => key x = key g.first) = some x ∧
      ⟨x, xs.countP fun x => key x = key g.first⟩ = g := by
    intro g hg
    have hentry := (mem_iff_entry hdistinct).mp hg
    rw [entry_tally] at hentry
    exact Option.map_eq_some_iff.mp hentry
  constructor
  · intro x hx
    have hsome : (xs.find? fun y => key y = key x).isSome :=
      List.find?_isSome.mpr ⟨x, hx, by simp⟩
    obtain ⟨y, hy⟩ := Option.isSome_iff_exists.mp hsome
    have hentry : entryOf (bucketKey key) (tally key xs) (key x) = _ := entry_tally xs (key x)
    rw [hy] at hentry
    exact ⟨_, List.mem_of_find?_eq_some hentry, by simpa using List.find?_some hy⟩
  · exact hdistinct
  · exact tally_ordered xs
  · intro g hg
    obtain ⟨x, hx, heq⟩ := hbucket g hg
    rw [hx, ← heq]
  · intro g hg
    obtain ⟨x, -, heq⟩ := hbucket g hg
    exact (congrArg Bucket.count heq).symm
  · exact tally_total xs

end AtmMonitor.Library.Tally
