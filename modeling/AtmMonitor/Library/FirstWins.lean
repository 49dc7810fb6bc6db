import Mathlib.Data.List.Forall2
import Mathlib.Data.List.Induction
import Mathlib.Data.List.Nodup
import Mathlib.Data.List.Perm.Basic

namespace AtmMonitor.Library.FirstWins

variable {α κ : Type} [DecidableEq κ] (key : α → Option κ)

/-- Whether a log holds an entry with the given key. Entries without a key are never found. -/
def known (log : List α) : Option κ → Bool
  | none => false
  | some k => log.any fun y => key y == some k

/-- A log in which the first entry of a key keeps its place and later ones are dropped. -/
def insertNew (log : List α) (x : α) : List α := if known key log (key x) then log else log ++ [x]

def record (log xs : List α) : List α := xs.foldl (insertNew key) log

def lookup (log : List α) (k : κ) : Option α := log.find? fun y => key y == some k

theorem known_some {log : List α} {k : κ} : known key log (some k) = true ↔ k ∈ log.filterMap key := by
  simp [known]

theorem insertNew_known {log : List α} {x : α} (h : known key log (key x) = true) :
    insertNew key log x = log := if_pos h

theorem insertNew_new {log : List α} {x : α} (h : known key log (key x) = false) :
    insertNew key log x = log ++ [x] := if_neg (by simp [h])

theorem insertNew_nodup {log : List α} (x : α) (h : (log.filterMap key).Nodup) :
    ((insertNew key log x).filterMap key).Nodup := by
  cases hx : key x with
  | none => simpa [insertNew, known, hx] using h
  | some k =>
    by_cases hk : known key log (some k)
    · rwa [insertNew_known key (by rwa [hx])]
    · rw [insertNew_new key (by simpa [hx] using hk), List.filterMap_append]
      have hm : k ∉ log.filterMap key := fun hm => hk ((known_some key).mpr hm)
      simp only [List.filterMap_cons, hx, List.filterMap_nil]
      exact List.nodup_append.mpr ⟨h, List.nodup_singleton k, fun a ha b hb hab =>
        hm (by rwa [← List.mem_singleton.mp hb, ← hab])⟩

theorem record_nodup {log : List α} (xs : List α) (h : (log.filterMap key).Nodup) :
    ((record key log xs).filterMap key).Nodup := by
  induction xs generalizing log with
  | nil => exact h
  | cons x xs ih => exact ih (insertNew_nodup key x h)

theorem record_distinct {log xs : List α} (h : ((log ++ xs).filterMap key).Nodup) :
    record key log xs = log ++ xs := by
  induction xs generalizing log with
  | nil => exact (List.append_nil log).symm
  | cons x xs ih =>
    have hnew : known key log (key x) = false := by
      cases hx : key x with
      | none => rfl
      | some k =>
        rw [← Bool.not_eq_true, known_some]
        intro hk
        rw [List.filterMap_append, List.filterMap_cons_some hx] at h
        exact List.disjoint_of_nodup_append h hk (by simp)
    rw [List.append_cons] at h ⊢
    rw [← ih h]
    exact congrArg (record key · xs) (insertNew_new key hnew)

theorem record_sublist (log xs : List α) : (record key log xs).Sublist (log ++ xs) := by
  induction xs generalizing log with
  | nil =>
    rw [List.append_nil]
    exact List.Sublist.refl log
  | cons x xs ih =>
    apply (ih (insertNew key log x)).trans
    rw [insertNew]
    split_ifs
    · exact List.Sublist.append_left (List.sublist_cons_self x xs) log
    · rw [List.append_assoc]
      exact List.Sublist.refl _

theorem mem_record {log xs : List α} {x : α} (h : x ∈ record key log xs) : x ∈ log ∨ x ∈ xs :=
  List.mem_append.mp ((record_sublist key log xs).subset h)

theorem lookup_append (log log' : List α) (k : κ) :
    lookup key (log ++ log') k = (lookup key log k <|> lookup key log' k) := by
  simp [lookup, List.find?_append]

theorem lookup_insertNew (log : List α) (x : α) (k : κ) :
    lookup key (insertNew key log x) k = (lookup key log k <|> lookup key [x] k) := by
  by_cases hx : known key log (key x)
  · rw [insertNew_known key hx]
    by_cases hk : key x = some k
    · rw [hk, known_some, List.mem_filterMap] at hx
      obtain ⟨y, hy, hyk⟩ := hx
      cases hl : lookup key log k with
      | some z => rfl
      | none =>
        have := List.find?_eq_none.mp hl y hy
        simp [hyk] at this
    · simp [lookup, hk]
  · rw [insertNew_new key (by simpa using hx), lookup_append]

theorem lookup_record (log xs : List α) (k : κ) :
    lookup key (record key log xs) k = (lookup key log k <|> lookup key xs k) := by
  induction xs generalizing log with
  | nil => simp [record, lookup]
  | cons x xs ih =>
    have hcons : lookup key (x :: xs) k = (lookup key [x] k <|> lookup key xs k) := by
      simp only [lookup, List.find?_cons, List.find?_nil]
      cases key x == some k <;> rfl
    rw [record, List.foldl_cons, ← record, ih, lookup_insertNew, hcons]
    cases lookup key log k <;> rfl

theorem lookup_eq_some {log : List α} (h : (log.filterMap key).Nodup) {k : κ} {x : α} :
    lookup key log k = some x ↔ x ∈ log ∧ key x = some k := by
  constructor
  · intro hl
    exact ⟨List.mem_of_find?_eq_some hl, by simpa using List.find?_some hl⟩
  · rintro ⟨hx, hk⟩
    induction log with
    | nil => simp at hx
    | cons y ys ih =>
      rw [lookup, List.find?_cons]
      cases hy : key y == some k with
      | false =>
        have hne : x ≠ y := by
          rintro rfl
          simp [hk] at hy
        have hys : (ys.filterMap key).Nodup := by
          cases hky : key y <;> simp_all
        exact ih hys ((List.mem_cons.mp hx).resolve_left hne)
      | true =>
        have hky : key y = some k := by simpa using hy
        obtain rfl | hm := List.mem_cons.mp hx
        · rfl
        · rw [List.filterMap_cons, hky] at h
          exact absurd (List.mem_filterMap.mpr ⟨x, hm, hk⟩) (List.nodup_cons.mp h).1

theorem known_iff {log : List α} {k : Option κ} :
    known key log k = true ↔ k.isSome ∧ ∃ y ∈ log, key y = k := by
  cases k <;> simp [known]

theorem record_map_of_iff {β κ' : Type} [DecidableEq κ'] (key' : β → Option κ') (f : α → β)
    (log xs : List α) (hsome : ∀ x ∈ xs, (key' (f x)).isSome = (key x).isSome)
    (h : ∀ x ∈ log ++ xs, ∀ y ∈ xs, key' (f x) = key' (f y) ↔ key x = key y) :
    (record key log xs).map f = record key' (log.map f) (xs.map f) := by
  induction xs generalizing log with
  | nil => rfl
  | cons x xs ih =>
    have hknown : known key' (log.map f) (key' (f x)) = known key log (key x) := by
      rw [Bool.eq_iff_iff, known_iff, known_iff, hsome x (by simp)]
      refine and_congr_right fun _ => ⟨?_, ?_⟩
      · rintro ⟨_, hm, heq⟩
        obtain ⟨y, hy, rfl⟩ := List.mem_map.mp hm
        exact ⟨y, hy, (h y (by simp [hy]) x (by simp)).mp heq⟩
      · rintro ⟨y, hy, heq⟩
        exact ⟨f y, List.mem_map_of_mem hy, (h y (by simp [hy]) x (by simp)).mpr heq⟩
    have hinsert : (insertNew key log x).map f = insertNew key' (log.map f) (f x) := by
      rw [insertNew, insertNew, hknown]
      split_ifs
      · rfl
      · rw [List.map_append, List.map_singleton]
    rw [record, List.foldl_cons, ← record, List.map_cons, record, record, List.foldl_cons, ← hinsert]
    apply ih
    · exact fun y hy => hsome y (List.mem_cons_of_mem x hy)
    · intro y hy z hz
      refine h y ?_ z (List.mem_cons_of_mem x hz)
      obtain hy | hy := List.mem_append.mp hy
      · obtain hy | hy : y ∈ _ ∨ y ∈ [x] := mem_record key hy
        · simp [hy]
        · simp [List.mem_singleton.mp hy]
      · simp [hy]

theorem record_map {β : Type} (key' : β → Option κ) (f : α → β) (h : ∀ x, key' (f x) = key x)
    (log xs : List α) : (record key log xs).map f = record key' (log.map f) (xs.map f) :=
  record_map_of_iff key key' f log xs (fun x _ => by rw [h]) (fun x _ y _ => by rw [h, h])

theorem record_forall₂ {β : Type} {key' : β → Option κ} {r : α → β → Prop}
    (hkey : ∀ x y, r x y → key' y = key x) {log xs : List α} {log' ys : List β}
    (hlog : List.Forall₂ r log log') (h : List.Forall₂ r xs ys) :
    List.Forall₂ r (record key log xs) (record key' log' ys) := by
  have hknown : ∀ {l l'}, List.Forall₂ r l l' → ∀ k, known key' l' k = known key l k := by
    intro l l' hl k
    cases k with
    | none => rfl
    | some k =>
      induction hl with
      | nil => rfl
      | cons hxy _ ih =>
        rw [known, known] at ih
        rw [known, known, List.any_cons, List.any_cons, hkey _ _ hxy, ih]
  induction h generalizing log log' with
  | nil => exact hlog
  | @cons x y xs ys hxy _ ih =>
    apply ih
    rw [insertNew, insertNew, hkey x y hxy, hknown hlog]
    split_ifs
    · exact hlog
    · exact List.rel_append hlog (.cons hxy .nil)

theorem insertNew_append (log log' : List α) (x : α) :
    insertNew key (log ++ log') x =
      if known key log (key x) then log ++ log' else log ++ insertNew key log' x := by
  have happend : known key (log ++ log') (key x) =
      (known key log (key x) || known key log' (key x)) := by
    cases key x with
    | none => rfl
    | some k => exact List.any_append
  rw [insertNew, happend, insertNew]
  cases known key log (key x) <;> cases known key log' (key x) <;> simp

/-- Of what is recorded after a log, the entries that the log does not know. -/
theorem record_append_fresh (log xs : List α) :
    record key log xs = log ++ (record key [] xs).filter fun x => !known key log (key x) := by
  induction xs using List.reverseRecOn with
  | nil => simp [record]
  | append_singleton xs x ih =>
    have hlast : ∀ l : List α, record key l (xs ++ [x]) = insertNew key (record key l xs) x := by
      intro l
      rw [record, List.foldl_append]
      rfl
    rw [hlast, hlast, ih, insertNew_append]
    generalize record key [] xs = done
    cases hx : known key log (key x) with
    | true =>
      rw [if_pos rfl, insertNew]
      split_ifs
      · rfl
      · rw [List.filter_append, List.filter_singleton, hx]
        simp
    | false =>
      have hdone : known key (done.filter fun y => !known key log (key y)) (key x) =
          known key done (key x) := by
        rw [Bool.eq_iff_iff, known_iff, known_iff]
        refine and_congr_right fun _ => ⟨?_, ?_⟩
        · rintro ⟨y, hy, hk⟩
          exact ⟨y, List.mem_of_mem_filter hy, hk⟩
        · rintro ⟨y, hy, hk⟩
          exact ⟨y, List.mem_filter.mpr ⟨hy, by rw [hk, hx]; rfl⟩, hk⟩
      rw [if_neg Bool.false_ne_true, insertNew, insertNew, hdone]
      split_ifs
      · rfl
      · rw [List.filter_append, List.filter_singleton, hx]
        rfl

/-- Two logs with unique keys that answer every lookup alike hold the same entries. -/
theorem perm_of_lookup {log log' : List α} (hk : ∀ x ∈ log, (key x).isSome)
    (hk' : ∀ x ∈ log', (key x).isSome) (h : (log.filterMap key).Nodup)
    (h' : (log'.filterMap key).Nodup) (hl : ∀ k, lookup key log k = lookup key log' k) :
    log.Perm log' := by
  have hmem : ∀ x, x ∈ log ↔ x ∈ log' := by
    intro x
    constructor
    · intro hx
      obtain ⟨k, hkx⟩ := Option.isSome_iff_exists.mp (hk x hx)
      have := (lookup_eq_some key h).mpr ⟨hx, hkx⟩
      rw [hl k] at this
      exact ((lookup_eq_some key h').mp this).1
    · intro hx
      obtain ⟨k, hkx⟩ := Option.isSome_iff_exists.mp (hk' x hx)
      have := (lookup_eq_some key h').mpr ⟨hx, hkx⟩
      rw [← hl k] at this
      exact ((lookup_eq_some key h).mp this).1
  have hnodup : ∀ {l : List α}, (∀ x ∈ l, (key x).isSome) → (l.filterMap key).Nodup → l.Nodup := by
    intro l hs hn
    induction l with
    | nil => exact List.nodup_nil
    | cons y ys ih =>
      obtain ⟨k, hky⟩ := Option.isSome_iff_exists.mp (hs y (by simp))
      rw [List.filterMap_cons, hky, List.nodup_cons] at hn
      refine List.nodup_cons.mpr ⟨fun hm => hn.1 (List.mem_filterMap.mpr ⟨y, hm, hky⟩), ?_⟩
      exact ih (fun x hx => hs x (by simp [hx])) hn.2
  exact (List.perm_ext_iff_of_nodup (hnodup hk h) (hnodup hk' h')).mpr hmem

end AtmMonitor.Library.FirstWins
