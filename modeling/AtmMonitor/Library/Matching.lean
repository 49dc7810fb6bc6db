import AtmMonitor.Library.Regex
import Mathlib.Data.Option.Basic

namespace AtmMonitor.Library.Regex

variable {α : Type}

def Cursor.skip (c : Cursor α) (w rest : List α) : Cursor α := ⟨w.reverse ++ c.left, rest, c.groups⟩

@[simp] theorem Cursor.skip_right (c : Cursor α) (w rest : List α) : (c.skip w rest).right = rest := rfl

@[simp] theorem Cursor.skip_groups (c : Cursor α) (w rest : List α) :
    (c.skip w rest).groups = c.groups := rfl

theorem Cursor.skip_nil (c : Cursor α) : c.skip [] c.right = c := rfl

theorem Cursor.skip_skip (c : Cursor α) (w w' rest rest' : List α) :
    (c.skip w rest').skip w' rest = c.skip (w ++ w') rest := by
  simp [Cursor.skip]

theorem mem_run_cls_iff {p : α → Bool} {c d : Cursor α} :
    d ∈ run (.cls p) c ↔ ∃ x rest, p x = true ∧ c.right = x :: rest ∧ d = c.skip [x] rest := by
  rw [run]
  cases hright : c.right with
  | nil => simp
  | cons x xs =>
    cases hx : p x with
    | false => simp [hx]
    | true => simp [hx, Cursor.skip]

theorem mem_manyRun_iff {p : α → Bool} {gs : List (String × List α)} {left right : List α}
    {d : Cursor α} :
    d ∈ manyRun p gs left right ↔
      ∃ w rest, (∀ x ∈ w, p x = true) ∧ right = w ++ rest ∧ d = ⟨w.reverse ++ left, rest, gs⟩ := by
  induction right generalizing left with
  | nil => simp [manyRun]
  | cons x xs ih =>
    have hstay : d = ⟨left, x :: xs, gs⟩ → ∃ w rest, (∀ y ∈ w, p y = true) ∧ x :: xs = w ++ rest ∧
        d = ⟨w.reverse ++ left, rest, gs⟩ := fun hd => ⟨[], x :: xs, by simp, rfl, hd⟩
    rw [manyRun]
    constructor
    · intro h
      split_ifs at h with hx
      · obtain h | h := List.mem_append.mp h
        · obtain ⟨w, rest, hw, rfl, rfl⟩ := ih.mp h
          exact ⟨x :: w, rest, by simpa [hx] using hw, rfl, by simp⟩
        · exact hstay (List.mem_singleton.mp h)
      · exact hstay (List.mem_singleton.mp h)
    · rintro ⟨w, rest, hw, hright, rfl⟩
      cases w with
      | nil =>
        rw [List.nil_append] at hright
        split_ifs
        · exact List.mem_append_right _ (by simp [hright])
        · simp [hright]
      | cons y w =>
        obtain ⟨rfl, rfl⟩ := List.cons.inj hright
        rw [if_pos (hw x (by simp))]
        refine List.mem_append_left _ (ih.mpr ⟨w, rest, fun z hz => hw z (by simp [hz]), rfl, ?_⟩)
        simp

theorem mem_run_many {p : α → Bool} {c d : Cursor α} :
    d ∈ run (.many p) c ↔ ∃ w rest, (∀ x ∈ w, p x = true) ∧ c.right = w ++ rest ∧ d = c.skip w rest :=
  mem_manyRun_iff

theorem mem_run_seq_iff {r s : Pattern α} {c d : Cursor α} :
    d ∈ run (.seq r s) c ↔ ∃ e ∈ run r c, d ∈ run s e := List.mem_flatMap

theorem mem_run_ahead {p : Option α → Bool} {c d : Cursor α} :
    d ∈ run (.ahead p) c ↔ p c.right.head? = true ∧ d = c := by
  rw [run, List.mem_ite_nil_right, List.mem_singleton]

theorem mem_run_seqs_cons {r : Pattern α} {rs : List (Pattern α)} {c d : Cursor α} :
    d ∈ run (seqs (r :: rs)) c ↔ ∃ e ∈ run r c, d ∈ run (seqs rs) e := by
  rw [run_seqs_cons, List.mem_flatMap]

theorem mem_run_seqs_nil {c d : Cursor α} : d ∈ run (seqs []) c ↔ d = c := List.mem_singleton

theorem mem_run_many1 {p : α → Bool} {c d : Cursor α} :
    d ∈ run (many1 p) c ↔
      ∃ w rest, w ≠ [] ∧ (∀ x ∈ w, p x = true) ∧ c.right = w ++ rest ∧ d = c.skip w rest := by
  rw [many1, mem_run_seq_iff]
  simp only [mem_run_cls_iff, mem_run_many]
  constructor
  · rintro ⟨_, ⟨x, _, hx, hright, rfl⟩, w, rest, hw, hrest, rfl⟩
    refine ⟨x :: w, rest, by simp, by simpa [hx] using hw, ?_, Cursor.skip_skip ..⟩
    rw [hright]
    exact congrArg _ hrest
  · rintro ⟨w, rest, hne, hw, hright, rfl⟩
    obtain ⟨x, w, rfl⟩ := List.exists_cons_of_ne_nil hne
    refine ⟨_, ⟨x, w ++ rest, hw x (by simp), hright, rfl⟩, w, rest, fun y hy => hw y (by simp [hy]),
      rfl, ?_⟩
    exact (Cursor.skip_skip c [x] w rest (w ++ rest)).symm

theorem mem_run_lit {eqv : α → α → Bool} {w : List α} {c d : Cursor α} :
    d ∈ run (lit eqv w) c ↔
      ∃ u rest, List.Forall₂ (fun a x => eqv a x = true) w u ∧ c.right = u ++ rest ∧
        d = c.skip u rest := by
  induction w generalizing c with
  | nil =>
    rw [lit, List.map_nil, mem_run_seqs_nil]
    constructor
    · rintro rfl
      exact ⟨[], _, .nil, rfl, rfl⟩
    · rintro ⟨_, rest, ⟨⟩, hright, rfl⟩
      rw [List.nil_append] at hright
      rw [← hright, Cursor.skip_nil]
  | cons a w ih =>
    rw [lit, List.map_cons, mem_run_seqs_cons]
    simp only [mem_run_cls_iff]
    constructor
    · rintro ⟨_, ⟨x, _, hx, hright, rfl⟩, hd⟩
      obtain ⟨u, rest, hu, hrest, rfl⟩ := ih.mp hd
      refine ⟨x :: u, rest, .cons hx hu, ?_, Cursor.skip_skip ..⟩
      rw [hright]
      exact congrArg _ hrest
    · rintro ⟨u, rest, hu, hright, rfl⟩
      obtain ⟨x, u, hx, htail, rfl⟩ := List.forall₂_cons_left_iff.mp hu
      refine ⟨_, ⟨x, u ++ rest, hx, hright, rfl⟩, ih.mpr ⟨u, rest, htail, rfl, ?_⟩⟩
      exact (Cursor.skip_skip c [x] u rest (u ++ rest)).symm

theorem mem_run_group {name : String} {r : Pattern α} {c d : Cursor α} :
    d ∈ run (.group name r) c ↔
      ∃ e ∈ run r c, d = { e with groups := (name, captured c e) :: e.groups } := by
  rw [run, List.mem_map]
  simp only [eq_comm]

theorem captured_skip {c : Cursor α} {w rest : List α} (h : c.right = w ++ rest) :
    captured c (c.skip w rest) = w := by
  simp [captured, h]

theorem mem_searchFrom {r : Pattern α} {left s : List α} {m : Cursor α}
    (h : searchFrom r left s = some m) :
    ∃ u v, s = u ++ v ∧ m ∈ run r ⟨u.reverse ++ left, v, []⟩ := by
  induction s generalizing left with
  | nil => exact ⟨[], [], rfl, List.mem_of_head? h⟩
  | cons x xs ih =>
    rw [searchFrom, Option.orElse_eq_some] at h
    obtain h | ⟨-, h⟩ := h
    · exact ⟨[], x :: xs, rfl, List.mem_of_head? h⟩
    · obtain ⟨u, v, rfl, hm⟩ := ih h
      exact ⟨x :: u, v, rfl, by simpa using hm⟩

theorem mem_search {r : Pattern α} {s : List α} {m : Cursor α} (h : search r s = some m) :
    ∃ u v, s = u ++ v ∧ m ∈ run r ⟨u.reverse, v, []⟩ := by
  simpa using mem_searchFrom h

def NoBehind : Pattern α → Prop
  | .empty | .cls _ | .many _ | .ahead _ => True
  | .behind _ => False
  | .seq r s | .alt r s => NoBehind r ∧ NoBehind s
  | .opt r | .group _ r => NoBehind r

def Cursor.after (l : List α) (c : Cursor α) : Cursor α := { c with left := c.left ++ l }

theorem noBehind_seqs {rs : List (Pattern α)} (h : ∀ r ∈ rs, NoBehind r) : NoBehind (seqs rs) := by
  induction rs with
  | nil => trivial
  | cons r rs ih =>
    cases rs with
    | nil => exact h r (by simp)
    | cons s rs => exact ⟨h r (by simp), ih fun t ht => h t (by simp [ht])⟩

theorem noBehind_lit {eqv : α → α → Bool} (w : List α) : NoBehind (lit eqv w) := by
  refine noBehind_seqs fun r hr => ?_
  obtain ⟨x, -, rfl⟩ := List.mem_map.mp hr
  trivial

theorem manyRun_after (p : α → Bool) (gs : List (String × List α)) (left right l : List α) :
    manyRun p gs (left ++ l) right = (manyRun p gs left right).map (Cursor.after l) := by
  induction right generalizing left with
  | nil => rfl
  | cons x xs ih =>
    rw [manyRun, manyRun]
    split_ifs
    · rw [List.map_append, ← ih (x :: left)]
      rfl
    · rfl

theorem run_after {r : Pattern α} (h : NoBehind r) (l : List α) (c : Cursor α) :
    run r (c.after l) = (run r c).map (Cursor.after l) := by
  induction r generalizing c with
  | empty => rfl
  | cls p =>
    rw [run, run]
    cases hright : c.right with
    | nil => simp [Cursor.after, hright]
    | cons x xs => cases hx : p x <;> simp [Cursor.after, hright, hx]
  | many p => exact manyRun_after p c.groups c.left c.right l
  | seq r s ihr ihs =>
    rw [run, run, ihr h.1, List.flatMap_map, List.map_flatMap]
    exact List.flatMap_congr fun d _ => ihs h.2 d
  | alt r s ihr ihs => rw [run, run, ihr h.1, ihs h.2, List.map_append]
  | opt r ih => rw [run, run, ih h, List.map_append, List.map_singleton]
  | behind p => exact h.elim
  | ahead p =>
    rw [run, run]
    cases hp : p c.right.head? <;> simp [Cursor.after, hp]
  | group name r ih =>
    rw [run, run, ih h, List.map_map, List.map_map]
    rfl

theorem searchFrom_after {r : Pattern α} (h : NoBehind r) (left l s : List α) :
    searchFrom r (left ++ l) s = (searchFrom r left s).map (Cursor.after l) := by
  induction s generalizing left with
  | nil =>
    have hrun := run_after h l ⟨left, [], []⟩
    rw [searchFrom, searchFrom, ← List.head?_map, ← hrun]
    rfl
  | cons x xs ih =>
    have hrun := congrArg List.head? (run_after h l ⟨left, x :: xs, []⟩)
    have hcursor : (Cursor.mk left (x :: xs) []).after l = ⟨left ++ l, x :: xs, []⟩ := rfl
    have htail := ih (x :: left)
    rw [List.cons_append] at htail
    rw [List.head?_map, hcursor] at hrun
    rw [searchFrom, searchFrom, hrun, htail]
    cases (run r ⟨left, x :: xs, []⟩).head? <;> rfl

theorem search_cons {r : Pattern α} (h : NoBehind r) (x : α) (xs : List α) :
    search r (x :: xs) = (matchStart r (x :: xs) <|> (search r xs).map (Cursor.after [x])) := by
  rw [search, searchFrom, search]
  exact congrArg _ (funext fun _ => searchFrom_after h [] [x] xs)

/-- `skip` symbols belong to the match that was replaced last. -/
def subFrom (r : Pattern α) (new : List α) : Nat → List α → List α → List α
  | _, _, [] => []
  | skip + 1, left, x :: xs => subFrom r new skip (x :: left) xs
  | 0, left, x :: xs =>
    match (run r ⟨left, x :: xs, []⟩).head? with
    | some d =>
      if d.right.length ≤ xs.length then
        new ++ subFrom r new (xs.length - d.right.length) (x :: left) xs
      else x :: subFrom r new 0 (x :: left) xs
    | none => x :: subFrom r new 0 (x :: left) xs

def sub (r : Pattern α) (new s : List α) : List α := subFrom r new 0 [] s

theorem subFrom_after {r : Pattern α} (h : NoBehind r) (new left l s : List α) (skip : Nat) :
    subFrom r new skip (left ++ l) s = subFrom r new skip left s := by
  induction s generalizing left skip with
  | nil => cases skip <;> rfl
  | cons x xs ih =>
    have htail := fun skip => ih (x :: left) skip
    simp only [List.cons_append] at htail
    cases skip with
    | succ skip => exact htail skip
    | zero =>
      have hrun := congrArg List.head? (run_after h l ⟨left, x :: xs, []⟩)
      rw [List.head?_map] at hrun
      have hcursor : (Cursor.mk left (x :: xs) []).after l = ⟨left ++ l, x :: xs, []⟩ := rfl
      rw [hcursor] at hrun
      rw [subFrom, subFrom, hrun]
      cases (run r ⟨left, x :: xs, []⟩).head? with
      | none => exact congrArg _ (htail 0)
      | some d => simp only [Option.map_some, Cursor.after, htail]

theorem sub_of_not_match {r : Pattern α} (h : NoBehind r) {new xs : List α} {x : α}
    (hnone : matchStart r (x :: xs) = none) : sub r new (x :: xs) = x :: sub r new xs := by
  have hrun : (run r ⟨[], x :: xs, []⟩).head? = none := hnone
  rw [sub, subFrom, hrun]
  exact congrArg _ (subFrom_after h new [] [x] xs 0)

theorem subFrom_skip (r : Pattern α) (new left w rest : List α) :
    subFrom r new w.length left (w ++ rest) = subFrom r new 0 (w.reverse ++ left) rest := by
  induction w generalizing left with
  | nil => rfl
  | cons x w ih =>
    rw [List.cons_append, List.length_cons, subFrom, ih, List.reverse_cons, List.append_assoc]
    rfl

theorem sub_of_match {r : Pattern α} (h : NoBehind r) {new w rest : List α} {d : Cursor α}
    (hne : w ≠ []) (hmatch : matchStart r (w ++ rest) = some d) (hright : d.right = rest) :
    sub r new (w ++ rest) = new ++ sub r new rest := by
  obtain ⟨x, w, rfl⟩ := List.exists_cons_of_ne_nil hne
  have hrun : (run r ⟨[], x :: (w ++ rest), []⟩).head? = some d := hmatch
  have hskip : (w ++ rest).length - rest.length = w.length := by simp
  have hle : rest.length ≤ (w ++ rest).length := by simp
  rw [sub, List.cons_append, subFrom, hrun]
  simp only [hright, hle, if_true, hskip]
  rw [subFrom_skip]
  exact congrArg _ (subFrom_after h new [] (w.reverse ++ [x]) rest 0)

theorem append_mark_inj {m : α} {u u' t t' : List α} (hu : m ∉ u) (hu' : m ∉ u')
    (h : u ++ m :: t = u' ++ m :: t') : u = u' ∧ t = t' := by
  induction u generalizing u' with
  | nil =>
    cases u' with
    | nil => exact ⟨rfl, (List.cons.inj h).2⟩
    | cons x u' => exact absurd (List.mem_cons.mpr (.inl (List.cons.inj h).1)) hu'
  | cons x u ih =>
    cases u' with
    | nil => exact absurd (List.mem_cons.mpr (.inl (List.cons.inj h).1.symm)) hu
    | cons y u' =>
      obtain ⟨rfl, htail⟩ := List.cons.inj h
      obtain ⟨rfl, rfl⟩ := ih (fun hm => hu (.tail _ hm)) (fun hm => hu' (.tail _ hm)) htail
      exact ⟨rfl, rfl⟩

/-- The symbols that the pattern takes, none of them into a group. -/
def Within (q : α → Prop) : Pattern α → Prop
  | .empty | .behind _ | .ahead _ => True
  | .cls p | .many p => ∀ x, p x = true → q x
  | .seq r s | .alt r s => Within q r ∧ Within q s
  | .opt r => Within q r
  | .group _ _ => False

theorem within_seqs {q : α → Prop} {rs : List (Pattern α)} (h : ∀ r ∈ rs, Within q r) :
    Within q (seqs rs) := by
  induction rs with
  | nil => trivial
  | cons r rs ih =>
    cases rs with
    | nil => exact h r (by simp)
    | cons s rs => exact ⟨h r (by simp), ih fun t ht => h t (by simp [ht])⟩

theorem run_within {q : α → Prop} {r : Pattern α} (h : Within q r) {c d : Cursor α}
    (hd : d ∈ run r c) :
    ∃ w rest, (∀ x ∈ w, q x) ∧ c.right = w ++ rest ∧ d = c.skip w rest := by
  have hstay : ∃ w rest, (∀ x ∈ w, q x) ∧ c.right = w ++ rest ∧ c = c.skip w rest :=
    ⟨[], c.right, by simp, rfl, (Cursor.skip_nil c).symm⟩
  induction r generalizing c d with
  | empty => exact List.mem_singleton.mp hd ▸ hstay
  | behind p | ahead p =>
    rw [run, List.mem_ite_nil_right, List.mem_singleton] at hd
    exact hd.2 ▸ hstay
  | cls p =>
    obtain ⟨x, rest, hx, hright, rfl⟩ := mem_run_cls_iff.mp hd
    exact ⟨[x], rest, by simpa using h x hx, hright, rfl⟩
  | many p =>
    obtain ⟨w, rest, hw, hright, rfl⟩ := mem_run_many.mp hd
    exact ⟨w, rest, fun x hx => h x (hw x hx), hright, rfl⟩
  | seq r s ihr ihs =>
    obtain ⟨e, he, hd⟩ := mem_run_seq_iff.mp hd
    obtain ⟨u, _, hu, hright, rfl⟩ := ihr h.1 he hstay
    obtain ⟨v, rest, hv, hright', rfl⟩ := ihs h.2 hd ⟨[], _, by simp, rfl, (Cursor.skip_nil _).symm⟩
    refine ⟨u ++ v, rest, ?_, ?_, Cursor.skip_skip ..⟩
    · exact fun x hx => (List.mem_append.mp hx).elim (hu x) (hv x)
    · rw [hright, List.append_assoc]
      exact congrArg _ hright'
  | alt r s ihr ihs =>
    obtain hd | hd := List.mem_append.mp hd
    · exact ihr h.1 hd hstay
    · exact ihs h.2 hd hstay
  | opt r ih =>
    obtain hd | hd := List.mem_append.mp hd
    · exact ih h hd hstay
    · exact List.mem_singleton.mp hd ▸ hstay
  | group name r ih => exact h.elim

end AtmMonitor.Library.Regex
