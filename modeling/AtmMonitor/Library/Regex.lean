import Mathlib.Data.List.Forall2

namespace AtmMonitor.Library.Regex

variable {α : Type}

/-- Regular expressions with the constructs of a backtracking engine: greedy
repetition of one class, ordered choice, assertions and named groups. -/
inductive Pattern (α : Type) where
  | empty
  | cls (p : α → Bool)
  | many (p : α → Bool)
  | seq (r s : Pattern α)
  | alt (r s : Pattern α)
  | opt (r : Pattern α)
  | behind (p : Option α → Bool)
  | ahead (p : Option α → Bool)
  | group (name : String) (r : Pattern α)

/-- A position in the subject: the consumed part reversed, the part to come,
and the groups captured so far, the latest first. -/
structure Cursor (α : Type) where
  left : List α
  right : List α
  groups : List (String × List α)

def start (s : List α) : Cursor α := ⟨[], s, []⟩

def Cursor.group (c : Cursor α) (name : String) : Option (List α) := c.groups.lookup name

def captured (c d : Cursor α) : List α := c.right.take (c.right.length - d.right.length)

/-- All ends of a greedy repetition, the longest first. -/
def manyRun (p : α → Bool) (gs : List (String × List α)) : List α → List α → List (Cursor α)
  | left, [] => [⟨left, [], gs⟩]
  | left, x :: xs =>
    if p x then manyRun p gs (x :: left) xs ++ [⟨left, x :: xs, gs⟩] else [⟨left, x :: xs, gs⟩]

/-- All ways to match from a position, in the order in which backtracking tries them. -/
def run : Pattern α → Cursor α → List (Cursor α)
  | .empty, c => [c]
  | .cls p, c =>
    match c.right with
    | [] => []
    | x :: xs => if p x then [⟨x :: c.left, xs, c.groups⟩] else []
  | .many p, c => manyRun p c.groups c.left c.right
  | .seq r s, c => (run r c).flatMap (run s)
  | .alt r s, c => run r c ++ run s c
  | .opt r, c => run r c ++ [c]
  | .behind p, c => if p c.left.head? then [c] else []
  | .ahead p, c => if p c.right.head? then [c] else []
  | .group n r, c => (run r c).map (fun d => { d with groups := (n, captured c d) :: d.groups })

def matchStart (r : Pattern α) (s : List α) : Option (Cursor α) := (run r (start s)).head?

def searchFrom (r : Pattern α) : List α → List α → Option (Cursor α)
  | left, [] => (run r ⟨left, [], []⟩).head?
  | left, x :: xs => (run r ⟨left, x :: xs, []⟩).head? <|> searchFrom r (x :: left) xs

/-- The preferred match at the leftmost position that has one. -/
def search (r : Pattern α) (s : List α) : Option (Cursor α) := searchFrom r [] s

def found (r : Pattern α) (s : List α) : Bool := (search r s).isSome

def seqs : List (Pattern α) → Pattern α
  | [] => .empty
  | [r] => r
  | r :: rs => .seq r (seqs rs)

def alts : List (Pattern α) → Pattern α
  | [] => .cls (fun _ => false)
  | [r] => r
  | r :: rs => .alt r (alts rs)

def many1 (p : α → Bool) : Pattern α := .seq (.cls p) (.many p)

def lit (eqv : α → α → Bool) (w : List α) : Pattern α := seqs (w.map (fun x => .cls (eqv x)))

def atStart : Pattern α := .behind Option.isNone

def lineStart (nl : α → Bool) : Pattern α := .behind (fun o => o.all nl)

def lineEnd (nl : α → Bool) : Pattern α := .ahead (fun o => o.all nl)

theorem mem_manyRun {p : α → Bool} {gs : List (String × List α)} {left right : List α}
    {d : Cursor α} (h : d ∈ manyRun p gs left right) :
    ∃ w, (∀ x ∈ w, p x = true) ∧ right = w ++ d.right := by
  induction right generalizing left with
  | nil =>
    rw [manyRun, List.mem_singleton] at h
    exact ⟨[], by simp, by rw [h]; rfl⟩
  | cons x xs ih =>
    rw [manyRun] at h
    have hstay : d = ⟨left, x :: xs, gs⟩ → ∃ w, (∀ x ∈ w, p x = true) ∧ x :: xs = w ++ d.right :=
      fun hd => ⟨[], by simp, by rw [hd]; rfl⟩
    by_cases hx : p x = true
    · rw [if_pos hx, List.mem_append, List.mem_singleton] at h
      obtain h | h := h
      · obtain ⟨w, hw, hr⟩ := ih h
        exact ⟨x :: w, by simpa [hx] using hw, by rw [hr]; rfl⟩
      · exact hstay h
    · rw [if_neg hx, List.mem_singleton] at h
      exact hstay h

theorem mem_run_seq {r s : Pattern α} {c d : Cursor α} (h : d ∈ run (.seq r s) c) :
    ∃ e ∈ run r c, d ∈ run s e := by
  rw [run, List.mem_flatMap] at h
  exact h

theorem mem_run_cls {p : α → Bool} {c d : Cursor α} (h : d ∈ run (.cls p) c) :
    ∃ x, p x = true ∧ c.right = x :: d.right := by
  rw [run] at h
  cases hr : c.right with
  | nil => simp [hr] at h
  | cons x xs =>
    by_cases hx : p x = true
    · simp only [hr, hx, if_true, List.mem_singleton] at h
      exact ⟨x, hx, by rw [h]⟩
    · simp [hr, hx] at h

theorem mem_run_of_matchStart {r : Pattern α} {s : List α} {m : Cursor α}
    (h : matchStart r s = some m) : m ∈ run r (start s) := List.mem_of_head? h

theorem manyRun_all {p : α → Bool} {gs : List (String × List α)} {left right : List α}
    (h : ∀ x ∈ right, p x = true) :
    (manyRun p gs left right).head? = some ⟨right.reverse ++ left, [], gs⟩ := by
  induction right generalizing left with
  | nil => rfl
  | cons x xs ih =>
    have hxs : (manyRun p gs (x :: left) xs).head? = some ⟨xs.reverse ++ x :: left, [], gs⟩ :=
      ih fun y hy => h y (List.mem_cons_of_mem x hy)
    rw [manyRun, if_pos (h x (by simp)), List.head?_append, hxs]
    simp

section Indistinct

variable (R : α → α → Prop)

/-- The classes of the pattern do not tell related symbols apart. -/
def Respects : Pattern α → Prop
  | .empty => True
  | .cls p | .many p => ∀ x y, R x y → p x = p y
  | .seq r s | .alt r s => Respects r ∧ Respects s
  | .opt r | .group _ r => Respects r
  | .behind p | .ahead p => ∀ o o', Option.Rel R o o' → p o = p o'

structure Beside (c d : Cursor α) : Prop where
  left : List.Forall₂ R c.left d.left
  right : List.Forall₂ R c.right d.right

variable {R}

theorem respects_seqs {rs : List (Pattern α)} (h : ∀ r ∈ rs, Respects R r) : Respects R (seqs rs) := by
  induction rs with
  | nil => trivial
  | cons r rest ih =>
    cases rest with
    | nil => exact h r (by simp)
    | cons s rest => exact ⟨h r (by simp), ih fun r hr => h r (List.mem_cons_of_mem _ hr)⟩

theorem respects_many1 {p : α → Bool} (h : ∀ x y, R x y → p x = p y) : Respects R (many1 p) :=
  ⟨h, h⟩

theorem respects_atStart : Respects R atStart := by
  intro o o' h
  cases h <;> rfl

theorem head?_rel {l l' : List α} (h : List.Forall₂ R l l') : Option.Rel R l.head? l'.head? := by
  cases h with
  | nil => exact .none
  | cons hx _ => exact .some hx

theorem dropWhile_beside {f : α → Bool} (hf : ∀ x y, R x y → f x = f y) {s t : List α}
    (h : List.Forall₂ R s t) : List.Forall₂ R (s.dropWhile f) (t.dropWhile f) := by
  induction h with
  | nil => exact .nil
  | @cons x y s t hx hst ih =>
    rw [List.dropWhile_cons, List.dropWhile_cons, hf x y hx]
    split_ifs
    · exact ih
    · exact .cons hx hst

variable (R) in
def GroupsBeside : List (String × List α) → List (String × List α) → Prop :=
  List.Forall₂ fun g g' => g.1 = g'.1 ∧ List.Forall₂ R g.2 g'.2

variable (R) in
structure SameMatch (c d : Cursor α) : Prop where
  place : Beside R c d
  groups : GroupsBeside R c.groups d.groups

theorem captured_beside {c d e f : Cursor α} (hcd : Beside R c d) (hef : Beside R e f) :
    List.Forall₂ R (captured c e) (captured d f) := by
  rw [captured, captured, hcd.right.length_eq, hef.right.length_eq]
  exact List.forall₂_take _ hcd.right

theorem manyRun_same {p : α → Bool} (hp : ∀ x y, R x y → p x = p y)
    {gs gs' : List (String × List α)} (hgs : GroupsBeside R gs gs')
    {left left' right right' : List α}
    (hl : List.Forall₂ R left left') (hr : List.Forall₂ R right right') :
    List.Forall₂ (SameMatch R) (manyRun p gs left right) (manyRun p gs' left' right') := by
  induction hr generalizing left left' with
  | nil => exact .cons ⟨⟨hl, .nil⟩, hgs⟩ .nil
  | @cons x y xs ys hx hxs ih =>
    have hstay : List.Forall₂ (SameMatch R) [⟨left, x :: xs, gs⟩] [⟨left', y :: ys, gs'⟩] :=
      .cons ⟨⟨hl, .cons hx hxs⟩, hgs⟩ .nil
    rw [manyRun, manyRun, hp x y hx]
    split_ifs
    · exact List.rel_append (ih (.cons hx hl)) hstay
    · exact hstay

theorem run_same {r : Pattern α} (h : Respects R r) {c d : Cursor α} (hcd : SameMatch R c d) :
    List.Forall₂ (SameMatch R) (run r c) (run r d) := by
  induction r generalizing c d with
  | empty => exact .cons hcd .nil
  | cls p =>
    rw [run, run]
    cases hc : c.right with
    | nil =>
      have hr := hcd.place.right
      rw [hc] at hr
      rw [List.forall₂_nil_left_iff.mp hr]
      exact .nil
    | cons x xs =>
      have hr := hcd.place.right
      rw [hc] at hr
      obtain ⟨y, ys, hx, hxs, hd⟩ := List.forall₂_cons_left_iff.mp hr
      simp only [hd, h x y hx]
      split_ifs
      · exact .cons ⟨⟨.cons hx hcd.place.left, hxs⟩, hcd.groups⟩ .nil
      · exact .nil
  | many p => exact manyRun_same h hcd.groups hcd.place.left hcd.place.right
  | seq r s ihr ihs => exact List.rel_flatMap (ihr h.1 hcd) fun _ _ hef => ihs h.2 hef
  | alt r s ihr ihs => exact List.rel_append (ihr h.1 hcd) (ihs h.2 hcd)
  | opt r ih => exact List.rel_append (ih h hcd) (.cons hcd .nil)
  | behind p =>
    rw [run, run, h _ _ (head?_rel hcd.place.left)]
    split_ifs
    · exact .cons hcd .nil
    · exact .nil
  | ahead p =>
    rw [run, run, h _ _ (head?_rel hcd.place.right)]
    split_ifs
    · exact .cons hcd .nil
    · exact .nil
  | group n r ih =>
    exact List.rel_map (fun _ _ hef => ⟨⟨hef.place.left, hef.place.right⟩,
      .cons ⟨rfl, captured_beside hcd.place hef.place⟩ hef.groups⟩) (ih h hcd)

theorem matchStart_same {r : Pattern α} (h : Respects R r) {s t : List α}
    (hst : List.Forall₂ R s t) : Option.Rel (SameMatch R) (matchStart r s) (matchStart r t) :=
  head?_rel (run_same h ⟨⟨.nil, hst⟩, .nil⟩)

theorem matchStart_isSome {r : Pattern α} (h : Respects R r) {s t : List α}
    (hst : List.Forall₂ R s t) : (matchStart r s).isSome = (matchStart r t).isSome := by
  have hm := matchStart_same h hst
  generalize matchStart r s = o at hm ⊢
  generalize matchStart r t = o' at hm ⊢
  cases hm <;> rfl

theorem searchFrom_same {r : Pattern α} (h : Respects R r) {left left' s t : List α}
    (hl : List.Forall₂ R left left') (hst : List.Forall₂ R s t) :
    Option.Rel (SameMatch R) (searchFrom r left s) (searchFrom r left' t) := by
  induction hst generalizing left left' with
  | nil => exact head?_rel (run_same h ⟨⟨hl, .nil⟩, .nil⟩)
  | @cons x y s t hx hst ih =>
    have hhead : Option.Rel (SameMatch R) (run r ⟨left, x :: s, []⟩).head?
        (run r ⟨left', y :: t, []⟩).head? :=
      head?_rel (run_same h ⟨⟨hl, .cons hx hst⟩, .nil⟩)
    rw [searchFrom, searchFrom]
    generalize (run r ⟨left, x :: s, []⟩).head? = o at hhead ⊢
    generalize (run r ⟨left', y :: t, []⟩).head? = o' at hhead ⊢
    cases hhead with
    | none => exact ih (.cons hx hl)
    | some hm => exact .some hm

theorem search_same {r : Pattern α} (h : Respects R r) {s t : List α} (hst : List.Forall₂ R s t) :
    Option.Rel (SameMatch R) (search r s) (search r t) := searchFrom_same h .nil hst

theorem found_same {r : Pattern α} (h : Respects R r) {s t : List α} (hst : List.Forall₂ R s t) :
    found r s = found r t := by
  have hm := search_same h hst
  rw [found, found]
  generalize search r s = o at hm ⊢
  generalize search r t = o' at hm ⊢
  cases hm <;> rfl

theorem SameMatch.group {m m' : Cursor α} (h : SameMatch R m m') (name : String) :
    Option.Rel (List.Forall₂ R) (m.group name) (m'.group name) := by
  rw [Cursor.group, Cursor.group]
  have hgroups := h.groups
  rw [GroupsBeside] at hgroups
  generalize m.groups = gs at hgroups ⊢
  generalize m'.groups = gs' at hgroups ⊢
  induction hgroups with
  | nil => exact .none
  | @cons g g' gs gs' hg _ ih =>
    obtain ⟨n, w⟩ := g
    obtain ⟨n', w'⟩ := g'
    obtain ⟨hn, hw⟩ := hg
    simp only at hn hw
    subst hn
    rw [List.lookup_cons, List.lookup_cons]
    cases name == n with
    | true => exact .some hw
    | false => exact ih

end Indistinct

theorem run_seqs_cons (r : Pattern α) (rs : List (Pattern α)) (c : Cursor α) :
    run (seqs (r :: rs)) c = (run r c).flatMap (run (seqs rs)) := by
  cases rs with
  | nil =>
    have hempty : run (seqs ([] : List (Pattern α))) = fun c => [c] := rfl
    rw [hempty, List.flatMap_singleton']
    rfl
  | cons s rs => rfl

theorem run_seqs_append (rs ss : List (Pattern α)) (c : Cursor α) :
    run (seqs (rs ++ ss)) c = (run (seqs rs) c).flatMap (run (seqs ss)) := by
  induction rs generalizing c with
  | nil => exact (List.append_nil _).symm
  | cons r rs ih =>
    rw [List.cons_append, run_seqs_cons, run_seqs_cons, List.flatMap_assoc]
    congr 1
    funext d
    exact ih d

theorem run_suffix {r : Pattern α} {c d : Cursor α} (h : d ∈ run r c) : d.right <:+ c.right := by
  induction r generalizing c d with
  | empty =>
    obtain rfl := List.mem_singleton.mp h
    exact List.suffix_rfl
  | behind p | ahead p =>
    rw [run, List.mem_ite_nil_right, List.mem_singleton] at h
    obtain ⟨-, rfl⟩ := h
    exact List.suffix_rfl
  | cls p =>
    obtain ⟨x, -, hx⟩ := mem_run_cls h
    exact ⟨[x], hx.symm⟩
  | many p =>
    obtain ⟨w, -, hw⟩ := mem_manyRun h
    exact ⟨w, hw.symm⟩
  | seq r s ihr ihs =>
    obtain ⟨e, he, hd⟩ := mem_run_seq h
    exact (ihs hd).trans (ihr he)
  | alt r s ihr ihs =>
    obtain h | h := List.mem_append.mp h
    · exact ihr h
    · exact ihs h
  | opt r ih =>
    obtain h | h := List.mem_append.mp h
    · exact ih h
    · obtain rfl := List.mem_singleton.mp h
      exact List.suffix_rfl
  | group n r ih =>
    obtain ⟨e, he, rfl⟩ := List.mem_map.mp h
    have hright := ih he
    exact hright

/-- The pattern does not look at what comes next. -/
def NoAhead : Pattern α → Prop
  | .empty | .cls _ | .many _ | .behind _ => True
  | .seq r s | .alt r s => NoAhead r ∧ NoAhead s
  | .opt r | .group _ r => NoAhead r
  | .ahead _ => False

theorem noAhead_seqs {rs : List (Pattern α)} (h : ∀ r ∈ rs, NoAhead r) : NoAhead (seqs rs) := by
  induction rs with
  | nil => trivial
  | cons r rest ih =>
    cases rest with
    | nil => exact h r (by simp)
    | cons s rest => exact ⟨h r (by simp), ih fun r hr => h r (List.mem_cons_of_mem _ hr)⟩

def Cursor.extend (u : List α) (c : Cursor α) : Cursor α := { c with right := c.right ++ u }

def before (n : Nat) (d : Cursor α) : Bool := decide (n ≤ d.right.length)

theorem filter_before_nil {r : Pattern α} {n : Nat} {c : Cursor α} (h : c.right.length < n) :
    (run r c).filter (before n) = [] := by
  refine List.filter_eq_nil_iff.mpr fun d hd => ?_
  have hle := (run_suffix hd).length_le
  simp only [before, decide_eq_true_eq]
  omega

theorem manyRun_extend (p : α → Bool) (gs : List (String × List α)) (left right u : List α) :
    (manyRun p gs left (right ++ u)).filter (before u.length) =
      (manyRun p gs left right).map (Cursor.extend u) := by
  induction right generalizing left with
  | nil =>
    cases u with
    | nil => rfl
    | cons y ys =>
      have hshort : (manyRun p gs (y :: left) ys).filter (before (y :: ys).length) = [] :=
        filter_before_nil (r := .many p) (c := ⟨y :: left, ys, gs⟩) (Nat.lt_succ_self _)
      simp only [List.nil_append, manyRun]
      split_ifs
      · rw [List.filter_append, hshort]
        simp [before, Cursor.extend]
      · simp [before, Cursor.extend]
  | cons x xs ih =>
    have hstay : before u.length ⟨left, x :: (xs ++ u), gs⟩ = true := by
      simp only [before, decide_eq_true_eq, List.length_cons, List.length_append]
      omega
    rw [List.cons_append, manyRun, manyRun]
    split_ifs
    · rw [List.filter_append, ih, List.map_append, List.filter_singleton, hstay]
      rfl
    · rw [List.filter_singleton, hstay]
      rfl

theorem captured_extend (u : List α) (c d : Cursor α) :
    captured (c.extend u) (d.extend u) = captured c d := by
  simp only [captured, Cursor.extend, List.length_append, Nat.add_sub_add_right]
  exact List.take_append_of_le_length (Nat.sub_le _ _)

theorem flatMap_filter {β : Type} (keep : α → Bool) {f : α → List β} {l : List α}
    (h : ∀ x ∈ l, keep x = false → f x = []) : (l.filter keep).flatMap f = l.flatMap f := by
  induction l with
  | nil => rfl
  | cons x xs ih =>
    rw [List.filter_cons, List.flatMap_cons, ← ih fun y hy => h y (List.mem_cons_of_mem x hy)]
    cases hx : keep x with
    | true => rfl
    | false =>
      rw [h x (by simp) hx]
      rfl

/-- The runs that stay out of the new end are those that were there before. -/
theorem run_extend {r : Pattern α} (h : NoAhead r) (u : List α) (c : Cursor α) :
    (run r (c.extend u)).filter (before u.length) = (run r c).map (Cursor.extend u) := by
  have hstay : before u.length (c.extend u) = true := by
    simp [before, Cursor.extend]
  induction r generalizing c with
  | empty =>
    rw [run, run, List.filter_singleton, hstay]
    rfl
  | cls p =>
    cases hc : c.right with
    | nil => cases u <;> simp [run, hc, Cursor.extend, before]
    | cons x xs =>
      simp only [run, hc, Cursor.extend, List.cons_append]
      split_ifs
      · simp [before, Cursor.extend]
      · rfl
  | many p => exact manyRun_extend p c.groups c.left c.right u
  | seq r s ihr ihs =>
    rw [run, run, List.filter_flatMap, List.map_flatMap, ← flatMap_filter (before u.length),
      ihr h.1 c hstay, List.flatMap_map]
    · congr 1
      funext e
      exact ihs h.2 e (by simp [before, Cursor.extend])
    · intro e _ he
      exact filter_before_nil (by simpa [before] using he)
  | alt r s ihr ihs =>
    rw [run, run, List.filter_append, List.map_append, ihr h.1 c hstay, ihs h.2 c hstay]
  | opt r ih =>
    rw [run, run, List.filter_append, List.map_append, ih h c hstay, List.filter_singleton, hstay]
    rfl
  | behind p =>
    have hleft : (c.extend u).left = c.left := rfl
    rw [run, run, hleft]
    split_ifs
    · rw [List.filter_singleton, hstay]
      rfl
    · rfl
  | ahead p => exact absurd h id
  | group n r ih =>
    have hright : before u.length ∘ (fun d : Cursor α =>
        { d with groups := (n, captured (c.extend u) d) :: d.groups }) = before u.length := rfl
    rw [run, run, List.filter_map, hright, ih h c hstay, List.map_map, List.map_map]
    congr 1
    funext d
    rw [Function.comp_apply, captured_extend]
    rfl

end AtmMonitor.Library.Regex
