import AtmMonitor.Library.LineSearch

namespace AtmMonitor.Library.Regex

variable {α : Type}

/-- In front of `rest` the pattern takes `w` first, with these groups. -/
def Prefers (r : Pattern α) (w rest : List α) (gs : List (String × List α)) : Prop :=
  ∀ left groups, (run r ⟨left, w ++ rest, groups⟩).head? = some ⟨w.reverse ++ left, rest, gs ++ groups⟩

variable {r s : Pattern α} {rs : List (Pattern α)} {w w' rest : List α} {gs gs' : List (String × List α)}

theorem prefers_cls {p : α → Bool} {x : α} (h : p x = true) : Prefers (.cls p) [x] rest [] := by
  intro left groups
  simp [run, h]

theorem prefers_many {p : α → Bool} (hw : ∀ x ∈ w, p x = true) (hrest : ∀ x ∈ rest.head?, p x = false) :
    Prefers (.many p) w rest [] := by
  intro left groups
  simp only [run, List.nil_append]
  induction w generalizing left with
  | nil =>
    cases rest with
    | nil => rfl
    | cons y ys =>
      rw [List.nil_append, manyRun, if_neg (by simp [hrest y rfl])]
      rfl
  | cons x w ih =>
    have htail := ih (fun y hy => hw y (List.mem_cons_of_mem x hy)) (x :: left)
    rw [List.cons_append, manyRun, if_pos (hw x (by simp)), List.head?_append, htail]
    simp

theorem prefers_seq (hr : Prefers r w (w' ++ rest) gs) (hs : Prefers s w' rest gs') :
    Prefers (.seq r s) (w ++ w') rest (gs' ++ gs) := by
  intro left groups
  have hfirst := hr left groups
  rw [run, List.append_assoc]
  cases hrun : run r ⟨left, w ++ (w' ++ rest), groups⟩ with
  | nil =>
    rw [hrun] at hfirst
    cases hfirst
  | cons d ds =>
    rw [hrun, List.head?_cons, Option.some.injEq] at hfirst
    rw [List.flatMap_cons, List.head?_append, hfirst, hs]
    simp

theorem prefers_seqs_nil : Prefers (seqs []) ([] : List α) rest [] := fun _ _ => rfl

theorem prefers_seqs_cons (hr : Prefers r w (w' ++ rest) gs) (hs : Prefers (seqs rs) w' rest gs') :
    Prefers (seqs (r :: rs)) (w ++ w') rest (gs' ++ gs) := by
  intro left groups
  rw [run_seqs_cons]
  exact prefers_seq hr hs left groups

theorem prefers_seqs_skip (hr : Prefers r w (w' ++ rest) []) (hs : Prefers (seqs rs) w' rest gs') :
    Prefers (seqs (r :: rs)) (w ++ w') rest gs' := by
  have hcons := prefers_seqs_cons hr hs
  rwa [List.append_nil] at hcons

theorem prefers_seqs_last (h : Prefers r w rest gs) : Prefers (seqs [r]) w rest gs := h

theorem prefers_seqs_end (hr : Prefers r w rest gs) (hs : Prefers s [] rest []) :
    Prefers (seqs [r, s]) w rest gs := by
  have hseq : Prefers (seqs [r, s]) (w ++ []) rest ([] ++ gs) :=
    prefers_seqs_cons hr (prefers_seqs_last hs)
  rwa [List.append_nil] at hseq

theorem prefers_many1 {p : α → Bool} (hne : w ≠ []) (hw : ∀ x ∈ w, p x = true)
    (hrest : ∀ x ∈ rest.head?, p x = false) : Prefers (many1 p) w rest [] := by
  obtain ⟨x, w, rfl⟩ := List.exists_cons_of_ne_nil hne
  exact prefers_seq (w := [x]) (prefers_cls (hw x (by simp)))
    (prefers_many (fun y hy => hw y (List.mem_cons_of_mem x hy)) hrest)

theorem prefers_lit {eqv : α → α → Bool} (h : List.Forall₂ (fun a x => eqv a x = true) w w') :
    Prefers (lit eqv w) w' rest [] := by
  induction h with
  | nil => exact prefers_seqs_nil
  | cons hx _ ih => exact prefers_seqs_cons (w := [_]) (prefers_cls hx) ih

theorem prefers_group {name : String} (h : Prefers r w rest gs) :
    Prefers (.group name r) w rest ((name, w) :: gs) := by
  intro left groups
  rw [run, List.head?_map, h left groups, Option.map_some, captured]
  simp

theorem prefers_opt (h : Prefers r w rest gs) : Prefers (.opt r) w rest gs := by
  intro left groups
  rw [run, List.head?_append, h left groups]
  rfl

theorem prefers_opt_none (h : ∀ left groups, run r ⟨left, rest, groups⟩ = []) :
    Prefers (.opt r) [] rest [] := by
  intro left groups
  rw [run, List.nil_append, h left groups]
  rfl

theorem matchStart_of_prefers (h : Prefers r w rest gs) :
    matchStart r (w ++ rest) = some ⟨w.reverse, rest, gs⟩ := by
  rw [matchStart, start, h [] [], List.append_nil, List.append_nil]

theorem matchStart_atStart (rs : List (Pattern α)) (u : List α) :
    matchStart (seqs (atStart :: rs)) u = matchStart (seqs rs) u := by
  rw [matchStart, run_seqs_cons]
  exact congrArg List.head? (List.append_nil _)

theorem search_of_matchStart {u : List α} {m : Cursor α} (h : matchStart r u = some m) :
    search r u = some m := by
  cases u with
  | nil => exact h
  | cons x xs =>
    rw [matchStart, start] at h
    rw [search, searchFrom, h]
    rfl

theorem search_of_prefers (h : Prefers r w rest gs) :
    search r (w ++ rest) = some ⟨w.reverse, rest, gs⟩ :=
  search_of_matchStart (matchStart_of_prefers h)

def Needs (eqv : α → α → Bool) (phrase : List α) (r : Pattern α) : Prop :=
  ∀ c d, d ∈ run r c → ∃ u, List.Forall₂ (fun a x => eqv a x = true) phrase u ∧ u <:+: c.right

section Needs

variable {eqv : α → α → Bool} {phrase : List α}

theorem needs_lit : Needs eqv phrase (lit eqv phrase) := by
  intro c d hd
  obtain ⟨u, rest, hu, hright, -⟩ := mem_run_lit.mp hd
  exact ⟨u, hu, hright ▸ (List.prefix_append u rest).isInfix⟩

theorem needs_seqs (hmem : r ∈ rs) (h : Needs eqv phrase r) : Needs eqv phrase (seqs rs) := by
  induction rs with
  | nil => cases hmem
  | cons r' rs ih =>
    intro c d hd
    obtain ⟨e, he, hd⟩ := mem_run_seqs_cons.mp hd
    obtain rfl | hmem := List.mem_cons.mp hmem
    · exact h c e he
    · obtain ⟨u, hu, hinfix⟩ := ih hmem e d hd
      exact ⟨u, hu, List.IsInfix.trans hinfix (run_suffix he).isInfix⟩

theorem found_of_needs (h : Needs eqv phrase r) {u : List α} (hfound : found r u = true) :
    found (lit eqv phrase) u = true := by
  obtain ⟨a, b, rfl, hrun⟩ := found_iff_run.mp hfound
  obtain ⟨d, hd⟩ := Option.isSome_iff_exists.mp hrun
  obtain ⟨v, hv, hinfix⟩ := h _ d (List.mem_of_head? hd)
  exact found_lit.mpr ⟨v, hv, List.IsInfix.trans hinfix (List.suffix_append a b).isInfix⟩

theorem search_of_needs (h : Needs eqv phrase r) {u : List α} (hnone : found (lit eqv phrase) u = false) :
    search r u = none := by
  rw [← Option.not_isSome_iff_eq_none]
  intro hsome
  rw [found_of_needs h hsome] at hnone
  cases hnone

theorem matchStart_of_needs (h : Needs eqv phrase r) {u : List α}
    (hnone : found (lit eqv phrase) u = false) : matchStart r u = none := by
  rw [← Option.not_isSome_iff_eq_none]
  intro hsome
  obtain ⟨d, hd⟩ := matchStart_isSome_iff.mp hsome
  obtain ⟨v, hv, hinfix⟩ := h _ d hd
  have hfound : found (lit eqv phrase) u = true := found_lit.mpr ⟨v, hv, hinfix⟩
  rw [hfound] at hnone
  cases hnone

theorem search_line {n : α} (hn : ∀ u, List.Forall₂ (fun a x => eqv a x = true) phrase u → n ∉ u)
    (hbehind : NoBehind (seqs (lit eqv phrase :: rs))) {l : List α} (hl : found (lit eqv phrase) l = false)
    (t : List α) : (search (seqs (lit eqv phrase :: rs)) (l ++ n :: t)).map Cursor.groups =
      (search (seqs (lit eqv phrase :: rs)) t).map Cursor.groups := by
  have hnone : ∀ s, s <:+ l → matchStart (seqs (lit eqv phrase :: rs)) (s ++ n :: t) = none := by
    intro s hs
    rw [← Option.not_isSome_iff_eq_none, matchStart_isSome_iff]
    rintro ⟨d, hd⟩
    obtain ⟨e, he, -⟩ := mem_run_seqs_cons.mp hd
    obtain ⟨u, rest, hu, hright, -⟩ := mem_run_lit.mp he
    have hprefix : u <+: s ++ [n] ++ t := by
      rw [List.append_assoc]
      exact ⟨rest, hright.symm⟩
    have hinfix : u <:+: l := by
      obtain h | h := List.prefix_or_prefix_of_prefix hprefix (List.prefix_append _ t)
      · obtain rfl | h := List.prefix_concat_iff.mp h
        · exact absurd (by simp) (hn _ hu)
        · exact h.isInfix.trans hs.isInfix
      · exact absurd (h.subset (by simp)) (hn u hu)
    rw [found_lit.mpr ⟨u, hu, hinfix⟩] at hl
    cases hl
  clear hl
  induction l with
  | nil =>
    have hfirst := hnone [] List.suffix_rfl
    rw [List.nil_append] at hfirst ⊢
    rw [search_cons hbehind, hfirst]
    cases search (seqs (lit eqv phrase :: rs)) t <;> rfl
  | cons x l ih =>
    rw [List.cons_append, search_cons hbehind, ← List.cons_append, hnone (x :: l) List.suffix_rfl,
      ← ih fun s hs => hnone s (hs.trans (List.suffix_cons x l))]
    cases search (seqs (lit eqv phrase :: rs)) (l ++ n :: t) <;> rfl

end Needs

end AtmMonitor.Library.Regex
