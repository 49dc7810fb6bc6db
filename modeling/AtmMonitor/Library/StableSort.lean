import Mathlib.Data.List.Sort

namespace AtmMonitor.Library.StableSort

variable {α : Type} {r : α → α → Prop} [DecidableRel r]

theorem orderedInsert_of_forall {a : α} {l : List α} (h : ∀ b ∈ l, r a b) :
    l.orderedInsert r a = a :: l := by
  cases l with
  | nil => rfl
  | cons b l => exact List.orderedInsert_cons_of_le r l (h b (by simp))

section Filter

variable (p : α → Bool)

theorem filter_orderedInsert_of_neg {a : α} (h : p a = false) (l : List α) :
    (l.orderedInsert r a).filter p = l.filter p := by
  induction l with
  | nil => simp [h]
  | cons b l ih =>
    rw [List.orderedInsert_cons]
    split_ifs
    · rw [List.filter_cons_of_neg (by simp [h])]
    · rw [List.filter_cons, ih, List.filter_cons]

variable [IsTrans α r]

theorem filter_orderedInsert_of_pos {a : α} (h : p a = true) {l : List α} (hl : l.Pairwise r) :
    (l.orderedInsert r a).filter p = (l.filter p).orderedInsert r a := by
  induction l with
  | nil => simp [h]
  | cons b l ih =>
    obtain ⟨hb, hl'⟩ := List.pairwise_cons.mp hl
    rw [List.orderedInsert_cons]
    split_ifs with hab
    · have hall : ∀ c ∈ (b :: l).filter p, r a c := by
        intro c hc
        obtain rfl | hc := List.mem_cons.mp (List.mem_of_mem_filter hc)
        · exact hab
        · exact IsTrans.trans _ _ _ hab (hb c hc)
      rw [List.filter_cons_of_pos h, orderedInsert_of_forall hall]
    · rw [List.filter_cons, ih hl', List.filter_cons]
      split_ifs with hb
      · rw [List.orderedInsert_of_not_le r _ hab]
      · rfl

variable [Std.Total r]

theorem filter_insertionSort (l : List α) :
    (l.insertionSort r).filter p = (l.filter p).insertionSort r := by
  induction l with
  | nil => rfl
  | cons a l ih =>
    rw [List.insertionSort_cons]
    cases h : p a with
    | true =>
      rw [filter_orderedInsert_of_pos p h (List.pairwise_insertionSort r l), ih,
        List.filter_cons_of_pos h, List.insertionSort_cons]
    | false =>
      rw [filter_orderedInsert_of_neg p h, ih, List.filter_cons_of_neg (by simp [h])]

end Filter

end AtmMonitor.Library.StableSort
