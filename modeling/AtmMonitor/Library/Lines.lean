import Mathlib.Data.List.Basic

namespace AtmMonitor.Library.Lines

variable {α : Type} (isEnd : α → Bool)

/-- The first line of a text, with its end if it has one. -/
def firstLine : List α → List α
  | [] => []
  | x :: xs => if isEnd x then [x] else x :: firstLine xs

/-- The lines of a text. Each but perhaps the last one has its end. -/
def lines : List α → List (List α)
  | [] => []
  | x :: xs =>
    if isEnd x then [x] :: lines xs
    else
      match lines xs with
      | [] => [[x]]
      | l :: ls => (x :: l) :: ls

def Complete (s : List α) : Prop := ∀ x ∈ s.getLast?, isEnd x = true

instance : DecidablePred (Complete isEnd) :=
  fun s => inferInstanceAs (Decidable (∀ x ∈ s.getLast?, isEnd x = true))

variable {isEnd}

theorem lines_end {x : α} (h : isEnd x = true) (xs : List α) :
    lines isEnd (x :: xs) = [x] :: lines isEnd xs := by rw [lines, if_pos h]

theorem lines_cons {x : α} (h : isEnd x = false) {xs l : List α} {ls : List (List α)}
    (hxs : lines isEnd xs = l :: ls) : lines isEnd (x :: xs) = (x :: l) :: ls := by
  rw [lines, if_neg (by simp [h]), hxs]

theorem lines_last {x : α} (h : isEnd x = false) : lines isEnd [x] = [[x]] := by
  rw [lines, if_neg (by simp [h]), lines]

theorem lines_eq_nil {s : List α} : lines isEnd s = [] ↔ s = [] := by
  cases s with
  | nil => simp [lines]
  | cons x xs =>
    simp only [lines, reduceCtorEq, iff_false]
    split_ifs
    · simp
    · split <;> simp

theorem complete_nil : Complete isEnd [] := fun _ hx => by cases hx

theorem complete_singleton {x : α} : Complete isEnd [x] ↔ isEnd x = true := by simp [Complete]

theorem complete_cons {x : α} {xs : List α} (h : xs ≠ []) :
    Complete isEnd (x :: xs) ↔ Complete isEnd xs := by
  obtain ⟨y, ys, rfl⟩ := List.exists_cons_of_ne_nil h
  rw [Complete, List.getLast?_cons_cons]
  exact Iff.rfl

/-- Cutting a text at the end of a line cuts no line. -/
theorem lines_append {a : List α} (h : Complete isEnd a) (b : List α) :
    lines isEnd (a ++ b) = lines isEnd a ++ lines isEnd b := by
  induction a with
  | nil => rfl
  | cons x xs ih =>
    by_cases hnil : xs = []
    · subst hnil
      rw [List.singleton_append, lines_end (complete_singleton.mp h),
        lines_end (complete_singleton.mp h)]
      rfl
    · have hxs := ih ((complete_cons hnil).mp h)
      cases hx : isEnd x with
      | true => rw [List.cons_append, lines_end hx, lines_end hx, hxs, List.cons_append]
      | false =>
        obtain ⟨l, ls, hl⟩ := List.exists_cons_of_ne_nil (mt lines_eq_nil.mp hnil)
        rw [hl, List.cons_append] at hxs
        rw [List.cons_append, lines_cons hx hxs, lines_cons hx hl, List.cons_append]

theorem lines_flatten (isEnd : α → Bool) (s : List α) : (lines isEnd s).flatten = s := by
  induction s with
  | nil => rfl
  | cons x xs ih =>
    cases hx : isEnd x with
    | true => rw [lines_end hx, List.flatten_cons, ih, List.singleton_append]
    | false =>
      by_cases hnil : xs = []
      · subst hnil
        rw [lines_last hx]
        rfl
      · obtain ⟨l, ls, hl⟩ := List.exists_cons_of_ne_nil (mt lines_eq_nil.mp hnil)
        rw [hl, List.flatten_cons] at ih
        rw [lines_cons hx hl, List.flatten_cons, List.cons_append, ih]

theorem lines_append_end {a : List α} (h : ¬ Complete isEnd a) {e : α} (he : isEnd e = true)
    (b : List α) : ∃ ls l, lines isEnd a = ls ++ [l] ∧
      lines isEnd (a ++ e :: b) = ls ++ (l ++ [e]) :: lines isEnd b ∧
      ∀ x ∈ l, isEnd x = false := by
  induction a with
  | nil => exact absurd complete_nil h
  | cons x xs ih =>
    by_cases hnil : xs = []
    · subst hnil
      have hx : isEnd x = false := by simpa [complete_singleton] using h
      refine ⟨[], [x], lines_last hx, ?_, by simpa using hx⟩
      rw [List.singleton_append, lines_cons hx (lines_end he b)]
      rfl
    · obtain ⟨ls, l, hl, hb, hopen⟩ := ih (mt (complete_cons hnil).mpr h)
      cases hx : isEnd x with
      | true =>
        refine ⟨[x] :: ls, l, ?_, ?_, hopen⟩
        · rw [lines_end hx, hl, List.cons_append]
        · rw [List.cons_append, lines_end hx, hb, List.cons_append]
      | false =>
        cases ls with
        | nil =>
          refine ⟨[], x :: l, lines_cons hx hl, lines_cons hx hb, fun y hy => ?_⟩
          obtain rfl | hy := List.mem_cons.mp hy
          · exact hx
          · exact hopen y hy
        | cons m ms => exact ⟨(x :: m) :: ms, l, lines_cons hx hl, lines_cons hx hb, hopen⟩

theorem firstLine_append_drop (isEnd : α → Bool) (s : List α) :
    firstLine isEnd s ++ s.drop (firstLine isEnd s).length = s := by
  induction s with
  | nil => rfl
  | cons x xs ih =>
    rw [firstLine]
    split_ifs
    · rfl
    · rw [List.length_cons, List.drop_succ_cons, List.cons_append, ih]

theorem lines_firstLine (isEnd : α → Bool) {s : List α} (h : s ≠ []) :
    lines isEnd s = firstLine isEnd s :: lines isEnd (s.drop (firstLine isEnd s).length) := by
  induction s with
  | nil => exact absurd rfl h
  | cons x xs ih =>
    cases hx : isEnd x with
    | true =>
      rw [lines_end hx, firstLine, if_pos hx]
      rfl
    | false =>
      rw [firstLine, if_neg (by simp [hx]), List.length_cons, List.drop_succ_cons]
      by_cases hnil : xs = []
      · subst hnil
        rw [lines_last hx]
        rfl
      · exact lines_cons hx (ih hnil)

theorem firstLine_ne_nil {s : List α} (h : s ≠ []) : firstLine isEnd s ≠ [] := by
  obtain ⟨x, xs, rfl⟩ := List.exists_cons_of_ne_nil h
  rw [firstLine]
  split_ifs <;> simp

theorem firstLine_complete (isEnd : α → Bool) (s : List α) :
    Complete isEnd (firstLine isEnd s) ∨ firstLine isEnd s = s := by
  induction s with
  | nil => exact Or.inr rfl
  | cons x xs ih =>
    rw [firstLine]
    split_ifs with hx
    · exact Or.inl (complete_singleton.mpr hx)
    · obtain hc | hs := ih
      · by_cases hnil : xs = []
        · exact Or.inr (by rw [hnil]; rfl)
        · exact Or.inl ((complete_cons (firstLine_ne_nil hnil)).mpr hc)
      · exact Or.inr (by rw [hs])

theorem lines_firstLine_append {s t u : List α} (hs : s ≠ [])
    (h : firstLine isEnd s ++ (t ++ u) = s) :
    lines isEnd (firstLine isEnd s ++ t) = firstLine isEnd s :: lines isEnd t := by
  have hdrop : s.drop (firstLine isEnd s).length = t ++ u :=
    List.append_cancel_left ((firstLine_append_drop isEnd s).trans h.symm)
  have hlines := lines_firstLine isEnd hs
  obtain hc | hall := firstLine_complete isEnd s
  · have hone : lines isEnd (firstLine isEnd s) = [firstLine isEnd s] := by
      have happ := lines_append hc (t ++ u)
      rw [h, hlines, hdrop] at happ
      rw [← List.singleton_append] at happ
      exact (List.append_cancel_right happ).symm
    rw [lines_append hc, hone, List.singleton_append]
  · rw [hall] at h
    have htu : t ++ u = [] := by simpa using h
    rw [(List.append_eq_nil_iff.mp htu).1, List.append_nil]
    rw [hdrop, htu, hall] at hlines
    rw [hall]
    exact hlines

theorem lines_concat_end (a : List α) {e : α} (he : isEnd e = true) :
    ∃ ls l, lines isEnd (a ++ [e]) = ls ++ [l ++ [e]] ∧ ls.flatten ++ l = a := by
  have hsplit : ∃ ls l, lines isEnd (a ++ [e]) = ls ++ [l ++ [e]] := by
    by_cases hc : Complete isEnd a
    · exact ⟨lines isEnd a, [], by rw [lines_append hc, lines_end he, lines, List.nil_append]⟩
    · obtain ⟨ls, l, -, hall, -⟩ := lines_append_end hc he []
      exact ⟨ls, l, hall⟩
  obtain ⟨ls, l, hl⟩ := hsplit
  have hflat := lines_flatten isEnd (a ++ [e])
  rw [hl, List.flatten_append, List.flatten_singleton, ← List.append_assoc] at hflat
  exact ⟨ls, l, hl, (List.append_inj' hflat rfl).1⟩

/-- Whether the last symbol is an end makes no difference. -/
theorem lines_congr {p q : α → Bool} {s : List α} (h : ∀ x ∈ s.dropLast, p x = q x) :
    lines p s = lines q s := by
  induction s with
  | nil => rfl
  | cons x xs ih =>
    by_cases hnil : xs = []
    · subst hnil
      simp [lines]
    · rw [List.dropLast_cons_of_ne_nil hnil] at h
      rw [lines, lines, ih fun y hy => h y (List.mem_cons_of_mem x hy), h x (by simp)]

theorem length_lines (isEnd : α → Bool) {s : List α} (h : s ≠ []) :
    (lines isEnd s).length = s.dropLast.countP isEnd + 1 := by
  induction s with
  | nil => exact absurd rfl h
  | cons x xs ih =>
    by_cases hnil : xs = []
    · subst hnil
      simp [lines]
    · rw [List.dropLast_cons_of_ne_nil hnil, List.countP_cons]
      have hxs := ih hnil
      cases hx : isEnd x with
      | true =>
        rw [lines_end hx, List.length_cons, hxs]
        simp
      | false =>
        obtain ⟨l, ls, hl⟩ := List.exists_cons_of_ne_nil (mt lines_eq_nil.mp hnil)
        rw [hl] at hxs
        rw [lines_cons hx hl, List.length_cons, ← List.length_cons (a := l), hxs]
        simp

/-- With more ends there are more lines, unless only the last symbol is one of them. -/
theorem length_lines_le {p q : α → Bool} (hpq : ∀ x, p x = true → q x = true) (s : List α) :
    (lines p s).length ≤ (lines q s).length := by
  by_cases h : s = []
  · rw [h]
    exact Nat.le_refl _
  · rw [length_lines p h, length_lines q h]
    exact Nat.succ_le_succ (List.countP_mono_left fun x _ => hpq x)

theorem length_lines_eq {p q : α → Bool} (hpq : ∀ x, p x = true → q x = true) {s : List α}
    (h : (lines p s).length = (lines q s).length) : ∀ x ∈ s.dropLast, p x = q x := by
  by_cases hnil : s = []
  · simp [hnil]
  · rw [length_lines p hnil, length_lines q hnil, Nat.succ_inj, List.countP_eq_length_filter,
      List.countP_eq_length_filter] at h
    have hsame : s.dropLast.filter p = s.dropLast.filter q :=
      (List.monotone_filter_right s.dropLast hpq).eq_of_length h
    intro x hx
    rw [Bool.eq_iff_iff]
    refine ⟨hpq x, fun hq => ?_⟩
    have hmem : x ∈ s.dropLast.filter q := List.mem_filter.mpr ⟨hx, hq⟩
    rw [← hsame] at hmem
    exact (List.mem_filter.mp hmem).2

theorem line_open {s l : List α} (hl : l ∈ lines isEnd s) : ∀ x ∈ l.dropLast, isEnd x = false := by
  induction s generalizing l with
  | nil => cases hl
  | cons x xs ih =>
    cases hx : isEnd x with
    | true =>
      rw [lines_end hx] at hl
      obtain rfl | hl := List.mem_cons.mp hl
      · simp
      · exact ih hl
    | false =>
      by_cases hnil : xs = []
      · subst hnil
        rw [lines_last hx, List.mem_singleton] at hl
        simp [hl]
      · obtain ⟨m, ms, hm⟩ := List.exists_cons_of_ne_nil (mt lines_eq_nil.mp hnil)
        rw [lines_cons hx hm] at hl
        obtain rfl | hl := List.mem_cons.mp hl
        · have hrest := ih (l := m) (by simp [hm])
          cases m with
          | nil => simp
          | cons y ys =>
            rw [List.dropLast_cons_of_ne_nil (List.cons_ne_nil y ys)]
            simpa [hx] using hrest
        · exact ih (by simp [hm, hl])

theorem line_closed {s l : List α} (hl : l ∈ (lines isEnd s).dropLast) :
    ∃ x ∈ l.getLast?, isEnd x = true := by
  induction s generalizing l with
  | nil => cases hl
  | cons x xs ih =>
    by_cases hnil : xs = []
    · subst hnil
      cases hx : isEnd x with
      | true => simp [lines] at hl
      | false => simp [lines_last hx] at hl
    have hne : lines isEnd xs ≠ [] := mt lines_eq_nil.mp hnil
    cases hx : isEnd x with
    | true =>
      rw [lines_end hx, List.dropLast_cons_of_ne_nil hne] at hl
      obtain rfl | hl := List.mem_cons.mp hl
      · exact ⟨x, rfl, hx⟩
      · exact ih hl
    | false =>
      obtain ⟨m, ms, hm⟩ := List.exists_cons_of_ne_nil hne
      rw [lines_cons hx hm] at hl
      rw [hm] at ih
      by_cases hms : ms = []
      · subst hms
        cases hl
      rw [List.dropLast_cons_of_ne_nil hms] at hl ih
      obtain rfl | hl := List.mem_cons.mp hl
      · obtain ⟨y, hy, hend⟩ := ih (l := m) (by simp)
        refine ⟨y, ?_, hend⟩
        rw [Option.mem_def] at hy ⊢
        rw [List.getLast?_cons, hy, Option.getD_some]
      · exact ih (List.mem_cons_of_mem m hl)

theorem lines_map {α β : Type} {p : α → Bool} {q : β → Bool} {f : α → β} {xs : List α}
    (h : ∀ x ∈ xs, q (f x) = p x) : lines q (xs.map f) = (lines p xs).map (List.map f) := by
  induction xs with
  | nil => rfl
  | cons x xs ih =>
    have hx := h x (by simp)
    have hxs := ih fun y hy => h y (List.mem_cons_of_mem x hy)
    rw [List.map_cons, lines, lines, hx, hxs]
    split_ifs
    · rfl
    · cases lines p xs <;> rfl

end AtmMonitor.Library.Lines
