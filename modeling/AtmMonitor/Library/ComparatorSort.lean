import Mathlib.Data.List.FinRange
import Mathlib.Data.List.Sort

namespace AtmMonitor.Library.ComparatorSort

variable {α : Type} (compare : α → α → Option Int)

def Less (a b : α) : Prop := ∃ v, compare a b = some v ∧ v < 0

def Tied (a b : α) : Prop := ∀ v, compare a b = some v → v = 0

def Greater (a b : α) : Prop := ∃ v, compare a b = some v ∧ 0 < v

structure Consistent (xs : List α) : Prop where
  tied_refl : ∀ a ∈ xs, Tied compare a a
  tied_symm : ∀ a ∈ xs, ∀ b ∈ xs, Tied compare a b → Tied compare b a
  tied_trans : ∀ a ∈ xs, ∀ b ∈ xs, ∀ c ∈ xs,
    Tied compare a b → Tied compare b c → Tied compare a c
  less_trans : ∀ a ∈ xs, ∀ b ∈ xs, ∀ c ∈ xs,
    Less compare a b → Less compare b c → Less compare a c
  greater_trans : ∀ a ∈ xs, ∀ b ∈ xs, ∀ c ∈ xs,
    Greater compare a b → Greater compare b c → Greater compare a c

/-- One place comes before another: its element is smaller, or tied and further to the front. -/
def Ahead (xs : List α) (i j : Fin xs.length) : Prop :=
  Less compare xs[i] xs[j] ∨ Tied compare xs[i] xs[j] ∧ i < j

/-- The places of the elements, rearranged so that no element is ahead of an earlier one. -/
structure Arranged (xs : List α) (places : List (Fin xs.length)) : Prop where
  perm : places.Perm (List.finRange xs.length)
  ordered : places.Pairwise (Ahead compare xs)

/-- A result that the specification of the sort admits: with an inconsistent comparator any
rearrangement, otherwise the stable one. -/
structure Sorts (xs out : List α) : Prop where
  perm : out.Perm xs
  ordered : Consistent compare xs → ∃ places, Arranged compare xs places ∧ out = places.map xs.get

theorem trichotomy (a b : α) : Less compare a b ∨ Tied compare a b ∨ Greater compare a b := by
  cases h : compare a b with
  | none => exact .inr (.inl fun v hv => by simp [h] at hv)
  | some v =>
    obtain hv | rfl | hv := lt_trichotomy v 0
    · exact .inl ⟨v, h, hv⟩
    · exact .inr (.inl fun w hw => by simpa [h, eq_comm] using hw)
    · exact .inr (.inr ⟨v, h, hv⟩)

variable {compare} {xs : List α}

theorem Less.not_tied {a b : α} (h : Less compare a b) : ¬ Tied compare a b := by
  obtain ⟨v, hv, hneg⟩ := h
  exact fun htied => hneg.ne (htied v hv)

theorem Greater.not_tied {a b : α} (h : Greater compare a b) : ¬ Tied compare a b := by
  obtain ⟨v, hv, hpos⟩ := h
  exact fun htied => hpos.ne' (htied v hv)

namespace Consistent

variable (h : Consistent compare xs) {a b c : α}
include h

theorem less_of_greater (ha : a ∈ xs) (hb : b ∈ xs) (hab : Greater compare a b) : Less compare b a := by
  obtain hba | hba | hba := trichotomy compare b a
  · exact hba
  · exact absurd (h.tied_symm b hb a ha hba) hab.not_tied
  · exact absurd (h.tied_refl a ha) (h.greater_trans a ha b hb a ha hab hba).not_tied

theorem less_of_less_tied (ha : a ∈ xs) (hb : b ∈ xs) (hc : c ∈ xs) (hab : Less compare a b)
    (hbc : Tied compare b c) : Less compare a c := by
  obtain hac | hac | hac := trichotomy compare a c
  · exact hac
  · exact absurd (h.tied_trans a ha c hc b hb hac (h.tied_symm b hb c hc hbc)) hab.not_tied
  · have hca := h.less_of_greater ha hc hac
    exact absurd (h.tied_symm b hb c hc hbc) (h.less_trans c hc a ha b hb hca hab).not_tied

theorem less_of_tied_less (ha : a ∈ xs) (hb : b ∈ xs) (hc : c ∈ xs) (hab : Tied compare a b)
    (hbc : Less compare b c) : Less compare a c := by
  obtain hac | hac | hac := trichotomy compare a c
  · exact hac
  · exact absurd (h.tied_trans b hb a ha c hc (h.tied_symm a ha b hb hab) hac) hbc.not_tied
  · have hca := h.less_of_greater ha hc hac
    exact absurd (h.tied_symm a ha b hb hab) (h.less_trans b hb c hc a ha hbc hca).not_tied

theorem ahead_irrefl (i : Fin xs.length) : ¬ Ahead compare xs i i := by
  rintro (hless | ⟨-, hlt⟩)
  · exact hless.not_tied (h.tied_refl _ (List.getElem_mem _))
  · exact lt_irrefl i hlt

theorem ahead_trans {i j k : Fin xs.length} (hij : Ahead compare xs i j)
    (hjk : Ahead compare xs j k) : Ahead compare xs i k := by
  have hi : xs[i] ∈ xs := List.getElem_mem _
  have hj : xs[j] ∈ xs := List.getElem_mem _
  have hk : xs[k] ∈ xs := List.getElem_mem _
  obtain hij | ⟨hij, hlt⟩ := hij
  · obtain hjk | ⟨hjk, -⟩ := hjk
    · exact .inl (h.less_trans _ hi _ hj _ hk hij hjk)
    · exact .inl (h.less_of_less_tied hi hj hk hij hjk)
  · obtain hjk | ⟨hjk, hlt'⟩ := hjk
    · exact .inl (h.less_of_tied_less hi hj hk hij hjk)
    · exact .inr ⟨h.tied_trans _ hi _ hj _ hk hij hjk, hlt.trans hlt'⟩

theorem ahead_or_ahead {i j : Fin xs.length} (hne : i ≠ j) :
    Ahead compare xs i j ∨ Ahead compare xs j i := by
  have hi : xs[i] ∈ xs := List.getElem_mem _
  have hj : xs[j] ∈ xs := List.getElem_mem _
  obtain hless | htied | hgreater := trichotomy compare xs[i] xs[j]
  · exact .inl (.inl hless)
  · obtain hlt | hlt := lt_or_gt_of_ne hne
    · exact .inl (.inr ⟨htied, hlt⟩)
    · exact .inr (.inr ⟨h.tied_symm _ hi _ hj htied, hlt⟩)
  · exact .inr (.inl (h.less_of_greater hi hj hgreater))

open Classical in
/-- The elements can be arranged. -/
theorem exists_arranged : ∃ places, Arranged compare xs places := by
  let r : Fin xs.length → Fin xs.length → Prop := fun i j => i = j ∨ Ahead compare xs i j
  have : Std.Total r := ⟨fun i j => by
    by_cases hij : i = j
    · exact .inl (.inl hij)
    · exact (h.ahead_or_ahead hij).imp .inr .inr⟩
  have : IsTrans _ r := ⟨by
    rintro i j k (rfl | hij) (rfl | hjk)
    · exact .inl rfl
    · exact .inr hjk
    · exact .inr hij
    · exact .inr (h.ahead_trans hij hjk)⟩
  refine ⟨(List.finRange xs.length).insertionSort r, List.perm_insertionSort r _, ?_⟩
  have hnodup : ((List.finRange xs.length).insertionSort r).Nodup :=
    (List.perm_insertionSort r _).nodup_iff.mpr (List.nodup_finRange _)
  refine ((List.pairwise_insertionSort r _).and hnodup).imp ?_
  rintro i j ⟨rfl | hij, hne⟩
  · exact absurd rfl hne
  · exact hij

theorem ahead_iff_lt {places : List (Fin xs.length)} (hplaces : Arranged compare xs places)
    {a b : Nat} (ha : a < places.length) (hb : b < places.length) :
    Ahead compare xs places[a] places[b] ↔ a < b := by
  have hordered := List.pairwise_iff_getElem.mp hplaces.ordered
  constructor
  · intro hahead
    by_contra hle
    obtain rfl | hlt := (Nat.le_of_not_lt hle).eq_or_lt
    · exact h.ahead_irrefl _ hahead
    · exact h.ahead_irrefl _ (h.ahead_trans hahead (hordered b a hb ha hlt))
  · exact fun hlt => hordered a b ha hb hlt

end Consistent

theorem countP_ahead (h : Consistent compare xs) {places : List (Fin xs.length)}
    (hplaces : Arranged compare xs places) {a : Nat} (ha : a < places.length)
    {ahead : Fin xs.length → Bool} (hahead : ∀ j, ahead j = true ↔ Ahead compare xs j places[a]) :
    (List.finRange xs.length).countP ahead = a := by
  have hbefore : (places.take a).countP ahead = a := by
    have hall : ∀ j ∈ places.take a, ahead j = true := by
      intro j hj
      obtain ⟨b, hb, rfl⟩ := List.mem_iff_getElem.mp hj
      rw [List.getElem_take, hahead, h.ahead_iff_lt hplaces]
      rw [List.length_take] at hb
      omega
    rw [List.countP_eq_length.mpr hall, List.length_take, Nat.min_eq_left ha.le]
  have hbehind : (places.drop a).countP ahead = 0 := by
    rw [List.countP_eq_zero]
    intro j hj
    obtain ⟨b, hb, rfl⟩ := List.mem_iff_getElem.mp hj
    rw [List.getElem_drop, hahead, h.ahead_iff_lt hplaces]
    omega
  rw [← hplaces.perm.countP_eq, ← List.take_append_drop a places, List.countP_append, hbefore,
    hbehind, Nat.add_zero]

section Leading

variable {β : Type} [LinearOrder β]

/-- The first `n` elements in an order of non-increasing keys. -/
def Leading (key : α → β) (n : Nat) (xs rows : List α) : Prop :=
  ∃ sorted : List α, sorted.Perm xs ∧ sorted.Pairwise (fun a b => key b ≤ key a) ∧
    rows = sorted.take n

/-- The front of a list is such a selection just when its elements are not below any later one. -/
theorem leading_take_iff {key : α → β} {n : Nat} {out : List α} (hperm : out.Perm xs) :
    Leading key n xs (out.take n) ↔
      ∀ a b (hab : a < b) (hb : b < out.length), a < n → key out[b] ≤ key out[a] := by
  constructor
  · rintro ⟨sorted, hsorted, hkeys, htake⟩ a b hab hb han
    have hlength : sorted.length = out.length := (hsorted.trans hperm.symm).length_eq
    have hfront : ∀ i (hi : i < out.length) (hi' : i < sorted.length), i < n → out[i] = sorted[i] := by
      intro i hi hi' hin
      have hget : (out.take n)[i]? = (sorted.take n)[i]? := by rw [htake]
      rw [List.getElem?_take_of_lt hin, List.getElem?_take_of_lt hin, List.getElem?_eq_getElem hi,
        List.getElem?_eq_getElem hi'] at hget
      exact Option.some.inj hget
    obtain ⟨c, hc, hac, hbc⟩ : ∃ c, ∃ (hc : c < sorted.length), a < c ∧ out[b] = sorted[c] := by
      by_cases hbn : b < n
      · exact ⟨b, by omega, hab, hfront b hb (by omega) hbn⟩
      · have hdrop : (out.drop n).Perm (sorted.drop n) := by
          rw [← List.perm_append_left_iff (out.take n), List.take_append_drop, htake,
            List.take_append_drop]
          exact hperm.trans hsorted.symm
        have hmem : out[b] ∈ out.drop n :=
          List.mem_iff_getElem.mpr ⟨b - n, by rw [List.length_drop]; omega, by
            rw [List.getElem_drop]; congr 1; omega⟩
        obtain ⟨c, hc, hbc⟩ := List.mem_iff_getElem.mp (hdrop.subset hmem)
        rw [List.length_drop] at hc
        rw [List.getElem_drop] at hbc
        exact ⟨n + c, by omega, by omega, hbc.symm⟩
    rw [hfront a (by omega) (by omega) han, hbc]
    exact List.pairwise_iff_getElem.mp hkeys a c (by omega) hc hac
  · intro h
    have hsort : ((out.drop n).insertionSort fun a b => key b ≤ key a).Perm (out.drop n) :=
      List.perm_insertionSort _ _
    refine ⟨out.take n ++ (out.drop n).insertionSort (fun a b => key b ≤ key a), ?_, ?_, ?_⟩
    · refine ((List.perm_append_left_iff _).mpr hsort).trans ?_
      rwa [List.take_append_drop]
    · refine List.pairwise_append.mpr ⟨?_, List.pairwise_insertionSort _ _, fun a ha b hb => ?_⟩
      · refine List.pairwise_iff_getElem.mpr fun a b ha hb hab => ?_
        rw [List.length_take] at ha hb
        rw [List.getElem_take, List.getElem_take]
        exact h a b hab (by omega) (by omega)
      · obtain ⟨a, hlt, rfl⟩ := List.mem_iff_getElem.mp ha
        obtain ⟨b, hlt', rfl⟩ := List.mem_iff_getElem.mp (hsort.subset hb)
        rw [List.length_take] at hlt
        rw [List.length_drop] at hlt'
        rw [List.getElem_take, List.getElem_drop]
        exact h a (n + b) (by omega) (by omega) (by omega)
    · obtain hlong | hshort := Nat.lt_or_ge n out.length
      · rw [List.take_append_of_le_length (by rw [List.length_take]; omega), List.take_take, min_self]
      · rw [List.drop_eq_nil_of_le hshort, List.take_of_length_le hshort]
        simp [List.take_of_length_le hshort]

end Leading

end AtmMonitor.Library.ComparatorSort
