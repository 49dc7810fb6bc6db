import AtmMonitor.TextLines

namespace AtmMonitor.SplitLines

open Library.Lines PyText EventPatterns TextLines

/-- A character that ends a line for `str.splitlines` only. -/
def isSeparator (c : Char) : Bool := isBoundary c && c != '\n' && c != '\r'

def bare (line : Str) : Str := line.takeWhile fun c => !isBoundary c

theorem isSeparator_ne {c : Char} (h : isSeparator c = true) : c ≠ '\n' ∧ c ≠ '\r' := by
  simp only [isSeparator, Bool.and_eq_true, bne_iff_ne] at h
  exact ⟨h.1.2, h.2⟩

theorem isBoundary_of_separator {c : Char} (h : isSeparator c = true) : isBoundary c = true := by
  rw [isSeparator, Bool.and_eq_true, Bool.and_eq_true] at h
  exact h.1.1

theorem bare_cons {c : Char} (h : isBoundary c = false) (line : Str) :
    bare (c :: line) = c :: bare line := by
  rw [bare, List.takeWhile_cons_of_pos (by simp [h])]
  rfl

theorem bare_end {c : Char} (h : isBoundary c = true) : bare [c] = [] := by
  rw [bare, List.takeWhile_cons_of_neg (by simp [h])]

theorem splitlines_eq (text : Str) :
    splitlines text = (lines isBoundary (universal text)).map bare := by
  induction text with
  | nil => rfl
  | cons c cs ih =>
    rw [splitlines, universal]
    by_cases hr : c = '\r'
    · by_cases hhead : cs.head? = some '\n'
      · rw [if_pos ⟨hr, hhead⟩, if_pos hr, if_pos hhead, ih]
      · have hend : isBoundary c = true := by
          rw [hr]
          decide
        rw [if_neg fun h => hhead h.2, if_pos hend, if_pos hr, if_neg hhead, lines_end (by decide),
          List.map_cons, bare_end (by decide), ih]
    · rw [if_neg fun h => hr h.1, if_neg hr]
      cases hend : isBoundary c with
      | true => rw [if_pos rfl, lines_end hend, List.map_cons, bare_end hend, ih]
      | false =>
        rw [if_neg Bool.false_ne_true, ih, lines, if_neg (by simp [hend])]
        cases lines isBoundary (universal cs) with
        | nil => rw [List.map_nil, List.map_singleton, bare_cons hend]; rfl
        | cons l ls => rw [List.map_cons, List.map_cons, bare_cons hend]

theorem cr_not_mem_universal (text : Str) : '\r' ∉ universal text := by
  induction text with
  | nil => simp [universal]
  | cons c cs ih =>
    rw [universal]
    split_ifs with hr
    · exact ih
    · simpa using ih
    · simpa [Ne.symm hr] using ih

theorem mem_universal {text : Str} {x : Char} (h : x ∈ universal text) (hn : x ≠ '\n') : x ∈ text := by
  induction text with
  | nil => exact h
  | cons c cs ih =>
    rw [universal] at h
    split_ifs at h
    · exact List.mem_cons_of_mem c (ih h)
    · exact List.mem_cons_of_mem c (ih ((List.mem_cons.mp h).resolve_left hn))
    · obtain rfl | h := List.mem_cons.mp h
      · simp
      · exact List.mem_cons_of_mem c (ih h)

theorem universal_ne_nil {text : Str} (h : text ≠ []) : universal text ≠ [] := by
  induction text with
  | nil => exact absurd rfl h
  | cons c cs ih =>
    rw [universal]
    split_ifs with hr hhead
    · apply ih
      rintro rfl
      cases hhead
    · simp
    · simp

theorem mem_dropLast_universal {text : Str} {x : Char} (hx : isSeparator x = true) :
    x ∈ (universal text).dropLast ↔ x ∈ text.dropLast := by
  obtain ⟨hn, hr⟩ := isSeparator_ne hx
  induction text with
  | nil => rfl
  | cons c cs ih =>
    by_cases hnil : cs = []
    · subst hnil
      by_cases hc : c = '\r' <;> simp [universal, hc]
    · have huniversal := universal_ne_nil hnil
      rw [universal, List.dropLast_cons_of_ne_nil hnil, List.mem_cons]
      split_ifs with hc
      · rw [ih, hc]
        simp [hr]
      · rw [List.dropLast_cons_of_ne_nil huniversal, List.mem_cons, ih, hc]
        simp [hn, hr]
      · rw [List.dropLast_cons_of_ne_nil huniversal, List.mem_cons, ih]

theorem getLast?_universal {text : Str} {x : Char} (hx : isSeparator x = true) :
    (universal text).getLast? = some x ↔ text.getLast? = some x := by
  obtain ⟨hn, hr⟩ := isSeparator_ne hx
  induction text with
  | nil => rfl
  | cons c cs ih =>
    by_cases hnil : cs = []
    · subst hnil
      by_cases hc : c = '\r'
      · simp [universal, hc, Ne.symm hn, Ne.symm hr]
      · simp [universal, hc]
    · obtain ⟨d, ds, rfl⟩ := List.exists_cons_of_ne_nil hnil
      have huniversal := universal_ne_nil hnil
      obtain ⟨u, us, hu⟩ := List.exists_cons_of_ne_nil huniversal
      rw [List.getLast?_cons_cons, ← ih, universal]
      split_ifs
      · rfl
      · rw [hu, List.getLast?_cons_cons]
      · rw [hu, List.getLast?_cons_cons]

theorem boundary_of_newline (c : Char) (h : isNewline c = true) : isBoundary c = true := by
  rw [isNewline, beq_iff_eq] at h
  rw [h]
  decide

theorem newline_eq_boundary {c : Char} (hr : c ≠ '\r') (h : isSeparator c = false) :
    isNewline c = isBoundary c := by
  rw [Bool.eq_iff_iff]
  refine ⟨boundary_of_newline c, fun hc => ?_⟩
  simpa [isSeparator, hc, hr, isNewline] using h

theorem length_splitlines (text : Str) :
    (splitlines text).length = (lines isBoundary (universal text)).length := by
  rw [splitlines_eq, List.length_map]

theorem length_textLines_le (text : Str) : (textLines text).length ≤ (splitlines text).length := by
  rw [length_splitlines]
  exact length_lines_le boundary_of_newline (universal text)

theorem separators_of_length {text : Str} (h : (textLines text).length = (splitlines text).length) :
    ∀ c ∈ text.dropLast, isSeparator c = false := by
  rw [length_splitlines] at h
  have hsame := length_lines_eq boundary_of_newline h
  intro c hc
  by_contra hsep
  rw [Bool.not_eq_false] at hsep
  have hend := hsame c ((mem_dropLast_universal hsep).mpr hc)
  rw [isBoundary_of_separator hsep, isNewline, beq_iff_eq] at hend
  exact (isSeparator_ne hsep).1 hend

theorem textLines_eq {text : Str} (h : ∀ c ∈ text.dropLast, isSeparator c = false) :
    textLines text = lines isBoundary (universal text) := by
  refine lines_congr fun c hc => newline_eq_boundary ?_ ?_
  · rintro rfl
    exact cr_not_mem_universal text (List.dropLast_subset _ hc)
  · by_contra hsep
    rw [Bool.not_eq_false] at hsep
    rw [h c ((mem_dropLast_universal hsep).mp hc)] at hsep
    cases hsep

theorem bare_append {m : Str} (hm : ∀ c ∈ m, isBoundary c = false) (rest : Str) :
    bare (m ++ rest) = m ++ bare rest := by
  rw [bare, List.takeWhile_append_of_pos (by simpa using hm)]
  rfl

theorem rstripNewline_bare {l : Str} (hopen : ∀ c ∈ l.dropLast, isBoundary c = false)
    (hl : ∀ c ∈ l, c ≠ '\r' ∧ isSeparator c = false) : rstripNewline (bare l) = rstripNewline l := by
  obtain rfl | ⟨m, e, rfl⟩ := List.eq_nil_or_concat' l
  · rfl
  · rw [List.dropLast_concat] at hopen
    obtain ⟨hr, hsep⟩ := hl e (by simp)
    rw [bare_append hopen]
    cases he : isBoundary e with
    | true =>
      rw [← newline_eq_boundary hr hsep, isNewline, beq_iff_eq] at he
      rw [he, bare_end (by decide), List.append_nil]
      exact (List.rdropWhile_concat_pos _ _ _ (by decide)).symm
    | false =>
      rw [bare_cons he]
      rfl

theorem stripped_lines (text : Str) {ls : List Str}
    (hls : ∀ l ∈ ls, l ∈ lines isBoundary (universal text))
    (h : ∀ l ∈ ls, ∀ c ∈ l, isSeparator c = false) :
    (ls.map bare).map rstripNewline = ls.map rstripNewline := by
  rw [List.map_map]
  refine List.map_congr_left fun l hl => rstripNewline_bare (line_open (hls l hl)) fun c hc => ?_
  refine ⟨?_, h l hl c hc⟩
  rintro rfl
  apply cr_not_mem_universal text
  rw [← lines_flatten isBoundary (universal text)]
  exact List.mem_flatten_of_mem (hls l hl) hc

theorem stripped_same {text : Str} (h : ∀ c ∈ text, isSeparator c = false) :
    (splitlines text).map rstripNewline = (textLines text).map rstripNewline := by
  rw [splitlines_eq, textLines_eq fun c hc => h c (List.dropLast_subset _ hc)]
  refine stripped_lines text (fun l hl => hl) fun l hl c hc => ?_
  have hmem : c ∈ universal text := by
    rw [← lines_flatten isBoundary (universal text)]
    exact List.mem_flatten_of_mem hl hc
  by_cases hn : c = '\n'
  · rw [hn]
    decide
  · exact h c (mem_universal hmem hn)

theorem rstripNewline_open {m : Str} (hm : ∀ c ∈ m, isBoundary c = false) : rstripNewline m = m := by
  refine List.rdropWhile_eq_self_iff.mpr fun hne hlast => ?_
  have hopen := hm _ (List.getLast_mem hne)
  rw [Bool.or_eq_true, beq_iff_eq, beq_iff_eq] at hlast
  rcases hlast with hlast | hlast
  all_goals
    rw [hlast] at hopen
    exact absurd hopen (by decide)

theorem stripped_last {text : Str} (h : ∀ c ∈ text.dropLast, isSeparator c = false) {x : Char}
    (hlast : text.getLast? = some x) (hx : isSeparator x = true) :
    ∃ ls m, (∀ c ∈ m, isBoundary c = false) ∧
      (splitlines text).map rstripNewline = ls ++ [m] ∧
      (textLines text).map rstripNewline = ls ++ [m ++ [x]] := by
  obtain ⟨text', htext⟩ := List.getLast?_eq_some_iff.mp ((getLast?_universal hx).mpr hlast)
  have hend := isBoundary_of_separator hx
  obtain ⟨ls, m, hlines, hflat⟩ := lines_concat_end text' hend
  rw [← htext] at hlines
  have hopen : ∀ c ∈ m, isBoundary c = false := by
    have hmem : m ++ [x] ∈ lines isBoundary (universal text) := by simp [hlines]
    have hline := line_open hmem
    rwa [List.dropLast_concat] at hline
  have hinner : ∀ l ∈ ls, ∀ c ∈ l, isSeparator c = false := by
    intro l hl c hc
    by_contra hsep
    rw [Bool.not_eq_false] at hsep
    have hmem : c ∈ (universal text).dropLast := by
      rw [htext, List.dropLast_concat, ← hflat]
      exact List.mem_append_left m (List.mem_flatten_of_mem hl hc)
    rw [h c ((mem_dropLast_universal hsep).mp hmem)] at hsep
    cases hsep
  refine ⟨ls.map rstripNewline, m, hopen, ?_, ?_⟩
  · rw [splitlines_eq, hlines, List.map_append, List.map_append, List.map_singleton,
      List.map_singleton, bare_append hopen, bare_end hend, List.append_nil, rstripNewline_open hopen,
      stripped_lines text (fun l hl => by simp [hlines, hl]) hinner]
  · obtain ⟨hn, hr⟩ := isSeparator_ne hx
    have hkeep : rstripNewline (m ++ [x]) = m ++ [x] :=
      List.rdropWhile_concat_neg _ _ _ (by simp [hn, hr])
    rw [textLines_eq h, hlines, List.map_append, List.map_singleton, hkeep]

end AtmMonitor.SplitLines
