import AtmMonitor.Library.FirstWins
import Mathlib.Data.List.MinMax

namespace AtmMonitor.Library.EarliestWins

open Library.FirstWins

variable {α κ τ : Type} [DecidableEq κ] [LinearOrder τ] (key : α → κ × τ) (accept : α → Bool)

def kept (xs : List α) : List α := record (fun x => some (key x)) [] xs

def choice (xs : List α) (k : κ) : Option α :=
  ((kept key xs).filter fun x => accept x && decide ((key x).1 = k)).argmin fun x => (key x).2

structure Chosen (xs : List α) (k : κ) (x : α) : Prop where
  mem : x ∈ kept key xs
  accepted : accept x = true
  kind : (key x).1 = k
  earliest : ∀ y ∈ kept key xs, accept y = true → (key y).1 = k → (key x).2 ≤ (key y).2

variable {key accept}

theorem mem_kept {xs : List α} {x : α} :
    x ∈ kept key xs ↔ lookup (fun y => some (key y)) xs (key x) = some x := by
  have hnil : (([] : List α).filterMap fun y => some (key y)).Nodup := List.nodup_nil
  have h := lookup_eq_some _ (record_nodup (fun y => some (key y)) xs hnil) (k := key x) (x := x)
  rw [lookup_record] at h
  simpa [lookup, kept] using h.symm

theorem subset_of_kept {xs : List α} {x : α} (h : x ∈ kept key xs) : x ∈ xs :=
  List.mem_of_find?_eq_some (mem_kept.mp h)

theorem kept_injective {xs : List α} {x y : α} (hx : x ∈ kept key xs) (hy : y ∈ kept key xs)
    (h : key x = key y) : x = y := by
  have hxk := mem_kept.mp hx
  rw [h, mem_kept.mp hy] at hxk
  exact (Option.some_inj.mp hxk).symm

theorem exists_kept (key : α → κ × τ) {xs : List α} {x : α} (h : x ∈ xs) : ∃ y ∈ kept key xs, key y = key x := by
  have hsome : (lookup (fun y => some (key y)) xs (key x)).isSome :=
    List.find?_isSome.mpr ⟨x, h, by simp⟩
  obtain ⟨y, hy⟩ := Option.isSome_iff_exists.mp hsome
  have hkey : key y = key x := by simpa using List.find?_some hy
  refine ⟨y, mem_kept.mpr ?_, hkey⟩
  rw [hkey]
  exact hy

theorem mem_kept_append {xs ys : List α} {x : α} :
    x ∈ kept key (xs ++ ys) ↔
      x ∈ kept key xs ∨ x ∈ kept key ys ∧ ∀ y ∈ xs, key y ≠ key x := by
  rw [mem_kept, mem_kept, mem_kept, lookup_append]
  cases hx : lookup (fun y => some (key y)) xs (key x) with
  | none =>
    have hnone : ∀ y ∈ xs, key y ≠ key x := by simpa using List.find?_eq_none.mp hx
    exact ⟨fun h => Or.inr ⟨h, hnone⟩, fun h => (h.resolve_left (by simp)).1⟩
  | some z =>
    have hz : key z = key x := by simpa using List.find?_some hx
    have hmem : z ∈ xs := List.mem_of_find?_eq_some hx
    exact ⟨Or.inl, fun h => h.resolve_right fun h => h.2 z hmem hz⟩

theorem choice_eq_none {xs : List α} {k : κ} :
    choice key accept xs k = none ↔ ∀ x ∈ kept key xs, accept x = true → (key x).1 ≠ k := by
  rw [choice, List.argmin_eq_none, List.filter_eq_nil_iff]
  simp

theorem choice_eq_some {xs : List α} {k : κ} {x : α} :
    choice key accept xs k = some x ↔ Chosen key accept xs k x := by
  have hchosen : ∀ y, choice key accept xs k = some y → Chosen key accept xs k y := by
    intro y hy
    have hmem := List.mem_filter.mp (List.argmin_mem hy)
    simp only [Bool.and_eq_true, decide_eq_true_eq] at hmem
    refine ⟨hmem.1, hmem.2.1, hmem.2.2, fun z hz ha hk => ?_⟩
    exact List.le_of_mem_argmin (f := fun x => (key x).2) (List.mem_filter.mpr ⟨hz, by simp [ha, hk]⟩) hy
  constructor
  · exact hchosen x
  · intro h
    cases hc : choice key accept xs k with
    | none => exact absurd h.kind (choice_eq_none.mp hc x h.mem h.accepted)
    | some y =>
      have hy := hchosen y hc
      have htime : (key y).2 = (key x).2 :=
        le_antisymm (hy.earliest x h.mem h.accepted h.kind)
          (h.earliest y hy.mem hy.accepted hy.kind)
      rw [kept_injective hy.mem h.mem (Prod.ext (hy.kind.trans h.kind.symm) htime)]

theorem choice_map {β : Type} {key' : β → κ × τ} {accept' : β → Bool} {f : α → β}
    (hkey : ∀ x, key' (f x) = key x) (haccept : ∀ x, accept' (f x) = accept x) (xs : List α)
    (k : κ) : choice key' accept' (xs.map f) k = (choice key accept xs k).map f := by
  have hkept : kept key' (xs.map f) = (kept key xs).map f := by
    rw [kept, kept]
    exact (record_map _ (fun y => some (key' y)) f (fun x => congrArg some (hkey x)) [] xs).symm
  cases hc : choice key accept xs k with
  | none =>
    rw [Option.map_none, choice_eq_none, hkept]
    intro y hy ha
    obtain ⟨x, hx, rfl⟩ := List.mem_map.mp hy
    rw [hkey]
    exact choice_eq_none.mp hc x hx (by rwa [haccept] at ha)
  | some x =>
    obtain ⟨hmem, hacc, hkind, hearliest⟩ := choice_eq_some.mp hc
    rw [Option.map_some, choice_eq_some]
    refine ⟨?_, by rw [haccept, hacc], by rw [hkey, hkind], fun y hy ha hk => ?_⟩
    · rw [hkept]
      exact List.mem_map_of_mem hmem
    · rw [hkept] at hy
      obtain ⟨z, hz, rfl⟩ := List.mem_map.mp hy
      rw [haccept] at ha
      rw [hkey] at hk ⊢
      rw [hkey]
      exact hearliest z hz ha hk

variable (key accept)

/-- No accepted entry of the second list is earlier than an accepted one of its kind in the first,
or of the kind and time of one that is not accepted. -/
def Separated (xs ys : List α) : Prop :=
  ∀ x ∈ xs, ∀ y ∈ ys, (key x).1 = (key y).1 → accept y = true →
    ((key x).2 = (key y).2 → accept x = true) ∧ (accept x = true → (key x).2 ≤ (key y).2)

instance (xs ys : List α) : Decidable (Separated key accept xs ys) :=
  inferInstanceAs (Decidable (∀ x ∈ xs, ∀ y ∈ ys, (key x).1 = (key y).1 → accept y = true →
    ((key x).2 = (key y).2 → accept x = true) ∧ (accept x = true → (key x).2 ≤ (key y).2)))

variable {key accept}

/-- Of separated lists the first that has a choice makes it for both. -/
theorem choice_append {xs ys : List α} (h : Separated key accept xs ys) (k : κ) :
    choice key accept (xs ++ ys) k = (choice key accept xs k <|> choice key accept ys k) := by
  cases hx : choice key accept xs k with
  | some x =>
    obtain ⟨hmem, hacc, hkind, hearliest⟩ := choice_eq_some.mp hx
    refine choice_eq_some.mpr ⟨mem_kept_append.mpr (Or.inl hmem), hacc, hkind, ?_⟩
    intro y hy ha hk
    obtain hy | ⟨hy, -⟩ := mem_kept_append.mp hy
    · exact hearliest y hy ha hk
    · have hxy := h x (subset_of_kept hmem) y (subset_of_kept hy) (hkind.trans hk.symm) ha
      exact hxy.2 hacc
  | none =>
    have hnone := choice_eq_none.mp hx
    cases hy : choice key accept ys k with
    | none =>
      apply choice_eq_none.mpr
      intro z hz ha
      obtain hz | ⟨hz, -⟩ := mem_kept_append.mp hz
      · exact hnone z hz ha
      · exact choice_eq_none.mp hy z hz ha
    | some y =>
      obtain ⟨hmem, hacc, hkind, hearliest⟩ := choice_eq_some.mp hy
      refine choice_eq_some.mpr ⟨mem_kept_append.mpr (Or.inr ⟨hmem, ?_⟩), hacc, hkind, ?_⟩
      · intro x hxs heq
        obtain ⟨x', hx', hkey⟩ := exists_kept key hxs
        have hsame : key x' = key y := hkey.trans heq
        have hxy := h x' (subset_of_kept hx') y (subset_of_kept hmem) (by rw [hsame]) hacc
        apply hnone x' hx' (hxy.1 (by rw [hsame]))
        rw [hsame, hkind]
      · intro z hz ha hk
        obtain hz | ⟨hz, -⟩ := mem_kept_append.mp hz
        · exact absurd hk (hnone z hz ha)
        · exact hearliest z hz ha hk

end AtmMonitor.Library.EarliestWins
