import AtmMonitor.Library.Matching
import Mathlib.Data.List.Infix

namespace AtmMonitor.Library.Regex

variable {α : Type}

theorem searchFrom_isSome {r : Pattern α} {left s : List α} :
    (searchFrom r left s).isSome = true ↔
      ∃ u v, s = u ++ v ∧ (run r ⟨u.reverse ++ left, v, []⟩).head?.isSome = true := by
  induction s generalizing left with
  | nil =>
    rw [searchFrom]
    constructor
    · exact fun h => ⟨[], [], rfl, h⟩
    · rintro ⟨u, v, huv, h⟩
      obtain ⟨rfl, rfl⟩ := List.append_eq_nil_iff.mp huv.symm
      exact h
  | cons x xs ih =>
    have hor : ∀ o o' : Option (Cursor α), (o <|> o').isSome = true ↔ o.isSome = true ∨ o'.isSome = true := by
      intro o o'
      cases o <;> simp
    rw [searchFrom, hor, ih]
    constructor
    · rintro (h | ⟨u, v, rfl, h⟩)
      · exact ⟨[], x :: xs, rfl, h⟩
      · exact ⟨x :: u, v, rfl, by simpa using h⟩
    · rintro ⟨u, v, huv, h⟩
      cases u with
      | nil =>
        obtain rfl : x :: xs = v := huv
        exact .inl h
      | cons y u =>
        obtain ⟨rfl, rfl⟩ := List.cons.inj huv
        exact .inr ⟨u, v, rfl, by simpa using h⟩

theorem found_iff_run {r : Pattern α} {s : List α} : found r s = true ↔
    ∃ u v, s = u ++ v ∧ (run r ⟨u.reverse, v, []⟩).head?.isSome = true := by
  rw [found, search, searchFrom_isSome]
  simp only [List.append_nil]

theorem run_isSome {r : Pattern α} (h : NoBehind r) (left s : List α) :
    (run r ⟨left, s, []⟩).head?.isSome = (matchStart r s).isSome := by
  have hrun := run_after h left (start s)
  have hcursor : (start s).after left = ⟨left, s, []⟩ := rfl
  rw [hcursor] at hrun
  rw [hrun, List.head?_map, Option.isSome_map, matchStart]

theorem found_iff_matchStart {r : Pattern α} (h : NoBehind r) {s : List α} : found r s = true ↔
    ∃ u v, s = u ++ v ∧ (matchStart r v).isSome = true := by
  rw [found_iff_run]
  simp only [run_isSome h]

theorem found_append {r : Pattern α} (h : NoBehind r) {s : List α} (hs : found r s = true)
    (u : List α) : found r (u ++ s) = true := by
  obtain ⟨v, w, rfl, hw⟩ := (found_iff_matchStart h).mp hs
  exact (found_iff_matchStart h).mpr ⟨u ++ v, w, by simp, hw⟩

theorem matchStart_isSome_iff {r : Pattern α} {s : List α} :
    (matchStart r s).isSome = true ↔ ∃ d, d ∈ run r (start s) := by
  rw [matchStart, List.isSome_head?]
  exact ⟨List.exists_mem_of_ne_nil _, fun ⟨_, hd⟩ => List.ne_nil_of_mem hd⟩

/-- No match begins where this symbol, or nothing, comes next. -/
def Rejects (o : Option α) : Pattern α → Prop
  | .cls p => o.all (fun x => !p x) = true
  | .seq r _ | .group _ r => Rejects o r
  | .alt r s => Rejects o r ∧ Rejects o s
  | _ => False

theorem run_of_rejects {r : Pattern α} {c : Cursor α} (h : Rejects c.right.head? r) : run r c = [] := by
  induction r generalizing c with
  | cls p =>
    rw [run]
    cases hright : c.right with
    | nil => rfl
    | cons x xs =>
      rw [hright] at h
      have hx : p x = false := by simpa [Rejects] using h
      simp [hx]
  | seq r s ihr _ => rw [run, ihr h, List.flatMap_nil]
  | group name r ih => rw [run, ih h, List.map_nil]
  | alt r s ihr ihs => rw [run, ihr h.1, ihs h.2, List.append_nil]
  | _ => exact h.elim

theorem rejects_seqs_cons {o : Option α} {r : Pattern α} (h : Rejects o r) (rs : List (Pattern α)) :
    Rejects o (seqs (r :: rs)) := by
  cases rs with
  | nil => exact h
  | cons s rs => exact h

theorem matchStart_of_rejects {r : Pattern α} {s : List α} (h : Rejects s.head? r) :
    matchStart r s = none := by
  rw [matchStart, run_of_rejects h]
  rfl

theorem search_skip {r : Pattern α} (hr : NoBehind r) {v : List α}
    (hv : ∀ x ∈ v, Rejects (some x) r) (s : List α) :
    (search r (v ++ s)).map Cursor.groups = (search r s).map Cursor.groups := by
  induction v with
  | nil => rfl
  | cons x v ih =>
    have hnone : matchStart r (x :: (v ++ s)) = none := matchStart_of_rejects (hv x (by simp))
    rw [List.cons_append, search_cons hr, hnone, ← ih fun y hy => hv y (by simp [hy])]
    cases search r (v ++ s) <;> rfl

section Lines

variable {nl : α → Bool} {r : Pattern α}

theorem found_lineStart (h : NoBehind r) {s : List α} : found (.seq (lineStart nl) r) s = true ↔
    ∃ u v, s = u ++ v ∧ u.getLast?.all nl = true ∧ (matchStart r v).isSome = true := by
  have hrun : ∀ u v : List α, (run (.seq (lineStart nl) r) ⟨u.reverse, v, []⟩).head?.isSome = true ↔
      u.getLast?.all nl = true ∧ (matchStart r v).isSome = true := by
    intro u v
    rw [run, lineStart, run, List.head?_reverse]
    split_ifs with hu
    · rw [List.flatMap_cons, List.flatMap_nil, List.append_nil, run_isSome h]
      simp [hu]
    · simp [hu]
  rw [found_iff_run]
  simp only [hrun]

theorem start_of_line {l u a : List α} (hl : ∀ x ∈ l, nl x = false) (hsplit : l = u ++ a)
    (hu : u.getLast?.all nl = true) : u = [] := by
  cases hlast : u.getLast? with
  | none => exact List.getLast?_eq_none_iff.mp hlast
  | some x =>
    have hx : x ∈ l := hsplit ▸ List.mem_append_left _ (List.mem_of_getLast? hlast)
    rw [hlast, Option.all_some, hl x hx] at hu
    cases hu

theorem found_last_line (h : NoBehind r) {l : List α} (hl : ∀ x ∈ l, nl x = false) :
    found (.seq (lineStart nl) r) l = (matchStart r l).isSome := by
  rw [Bool.eq_iff_iff, found_lineStart h]
  constructor
  · rintro ⟨u, v, hsplit, hu, hv⟩
    obtain rfl := start_of_line hl hsplit hu
    rwa [hsplit]
  · exact fun hv => ⟨[], l, rfl, rfl, hv⟩

theorem found_line (h : NoBehind r) {n : α} (hn : nl n = true) {l : List α}
    (hl : ∀ x ∈ l, nl x = false) (t : List α) :
    found (.seq (lineStart nl) r) (l ++ n :: t) =
      ((matchStart r (l ++ n :: t)).isSome || found (.seq (lineStart nl) r) t) := by
  rw [Bool.eq_iff_iff, Bool.or_eq_true, found_lineStart h, found_lineStart h]
  constructor
  · rintro ⟨u, v, hsplit, hu, hv⟩
    obtain ⟨a, rfl, hrest⟩ | ⟨c, rfl, rfl⟩ := List.append_eq_append_iff.mp hsplit
    · cases a with
      | nil =>
        obtain rfl := start_of_line hl (List.append_nil l).symm (by simpa using hu)
        exact .inl (by rwa [hrest])
      | cons x a =>
        obtain ⟨rfl, rfl⟩ := List.cons.inj hrest
        refine .inr ⟨a, v, rfl, ?_, hv⟩
        cases ha : a.getLast? with
        | none => rfl
        | some y =>
          rw [List.getLast?_append, List.getLast?_cons, ha] at hu
          exact hu
    · obtain rfl := start_of_line hl rfl hu
      exact .inl hv
  · rintro (hv | ⟨u, v, rfl, hu, hv⟩)
    · exact ⟨[], _, rfl, rfl, hv⟩
    · refine ⟨l ++ n :: u, v, by simp, ?_, hv⟩
      rw [List.getLast?_append, List.getLast?_cons]
      cases hlast : u.getLast? with
      | none => exact hn
      | some y =>
        rw [hlast] at hu
        exact hu

end Lines

theorem matchStart_lit {eqv : α → α → Bool} {w s : List α} :
    (matchStart (lit eqv w) s).isSome = true ↔
      ∃ u rest, List.Forall₂ (fun a x => eqv a x = true) w u ∧ s = u ++ rest := by
  rw [matchStart_isSome_iff]
  simp only [mem_run_lit]
  constructor
  · rintro ⟨_, u, rest, hu, hs, -⟩
    exact ⟨u, rest, hu, hs⟩
  · rintro ⟨u, rest, hu, hs⟩
    exact ⟨_, u, rest, hu, hs, rfl⟩

theorem found_lit {eqv : α → α → Bool} {w s : List α} : found (lit eqv w) s = true ↔
    ∃ u, List.Forall₂ (fun a x => eqv a x = true) w u ∧ u <:+: s := by
  rw [found_iff_matchStart (noBehind_lit w)]
  simp only [matchStart_lit]
  constructor
  · rintro ⟨p, _, rfl, u, rest, hu, rfl⟩
    exact ⟨u, hu, p, rest, List.append_assoc p u rest⟩
  · rintro ⟨u, hu, p, rest, rfl⟩
    exact ⟨p, u ++ rest, List.append_assoc p u rest, u, rest, hu, rfl⟩

theorem infix_line_iff {u l t : List α} {n : α} (hn : n ∉ u) (hne : u ≠ []) :
    u <:+: l ++ n :: t ↔ u <:+: l ∨ u <:+: t := by
  constructor
  · intro h
    rw [List.infix_append_iff] at h
    obtain h | h | ⟨u₁, u₂, rfl, h₁, h₂⟩ := h
    · exact .inl h
    · rw [List.infix_cons_iff, List.prefix_cons_iff] at h
      obtain (rfl | ⟨u, rfl, -⟩) | h := h
      · exact absurd rfl hne
      · exact absurd (List.mem_cons_self ..) hn
      · exact .inr h
    · rw [List.prefix_cons_iff] at h₂
      obtain rfl | ⟨u₂, rfl, -⟩ := h₂
      · rw [List.append_nil]
        exact .inl h₁.isInfix
      · exact absurd (by simp) hn
  · rintro (h | h)
    · exact h.trans (List.prefix_append l _).isInfix
    · exact h.trans ((List.suffix_cons n t).trans (List.suffix_append l _)).isInfix

theorem infix_skip {u v s : List α} (hne : u ≠ []) (hv : ∀ x ∈ v, u.head? ≠ some x) :
    u <:+: v ++ s ↔ u <:+: s := by
  induction v with
  | nil => rfl
  | cons x v ih =>
    have htail := ih fun y hy => hv y (by simp [hy])
    rw [List.cons_append, List.infix_cons_iff, List.prefix_cons_iff, htail]
    constructor
    · rintro ((rfl | ⟨t, rfl, -⟩) | h)
      · exact absurd rfl hne
      · exact absurd rfl (hv x (by simp))
      · exact h
    · exact .inr

end AtmMonitor.Library.Regex
