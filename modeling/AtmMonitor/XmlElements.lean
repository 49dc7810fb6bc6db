import AtmMonitor.LetterCase
import AtmMonitor.Library.Matching

namespace AtmMonitor.XmlElements

open PyText Library.Regex

/-- An element of a document, by its name and the characters of its content. -/
structure Element where
  name : Str
  content : Char → Bool
  letters : ∀ c ∈ name, c.isAlpha = true
  name_ne_nil : name ≠ []
  content_lt : content '<' = false

def Element.opening (e : Element) : Str := '<' :: e.name ++ ['>']

def Element.closing (e : Element) : Str := '<' :: '/' :: e.name ++ ['>']

/-- `<name>(content+)</name>` with `re.IGNORECASE`. -/
def Element.pattern (e : Element) : Pattern Char :=
  seqs [lit sameFold e.opening, .group "1" (many1 e.content), lit sameFold e.closing]

def Element.write (e : Element) (value : Str) : Str := e.opening ++ value ++ e.closing

/-- The content of the first element in a document. -/
def read (e : Element) (xml : Str) : Option Str := (search e.pattern xml).bind fun m => m.group "1"

/-- The document with a value in every element. -/
def replace (e : Element) (value xml : Str) : Str := sub e.pattern (e.write value) xml

structure Fits (e : Element) (value : Str) : Prop where
  ne_nil : value ≠ []
  content : ∀ c ∈ value, e.content c = true

def IsMark (c : Char) : Prop := c = '<' ∨ c = '>' ∨ c = '/'

theorem sameFold_mark {x c : Char} (hx : IsMark x) (h : sameFold x c = true) : c = x := by
  rw [sameFold, beq_iff_eq] at h
  have hfold : fold x = x ∧ x ≠ 'i' ∧ x ≠ 's' ∧ x ≠ 'k' ∧
      ∀ n < 128, fold (Char.ofNat n) = x → Char.ofNat n = x := by
    obtain rfl | rfl | rfl := hx <;> decide
  obtain ⟨hself, hi, hs, hk, hascii⟩ := hfold
  rw [hself] at h
  by_cases hc : c.toNat < 128
  · have hlow := hascii c.toNat hc
    rw [Char.ofNat_toNat] at hlow
    exact hlow h.symm
  · rw [fold, if_neg hc] at h
    split_ifs at h
    · exact absurd h hi
    · exact absurd h hs
    · exact absurd h hk
    · exact h.symm

theorem not_isMark_of_letter {x c : Char} (hx : x.isAlpha = true) (h : sameFold x c = true) :
    ¬ IsMark c := by
  have hletters : ∀ n < 128, (Char.ofNat n).isAlpha = true → ¬ IsMark (fold (Char.ofNat n)) := by
    unfold IsMark
    decide
  have hfold := hletters x.toNat (LetterCase.isAlpha_lt hx)
  rw [Char.ofNat_toNat] at hfold
  rw [sameFold, beq_iff_eq] at h
  intro hc
  have hself : fold c = c := by obtain rfl | rfl | rfl := hc <;> decide
  rw [← hself, ← h] at hc
  exact hfold hx hc

/-- The text of a name, in any case. -/
structure Named (e : Element) (name : Str) : Prop where
  same : List.Forall₂ (fun x c => sameFold x c = true) e.name name
  ne_nil : name ≠ []
  marks : ∀ c ∈ name, ¬ IsMark c

theorem named_of_forall₂ {e : Element} {name : Str}
    (h : List.Forall₂ (fun x c => sameFold x c = true) e.name name) : Named e name := by
  refine ⟨h, ?_, fun c hc => ?_⟩
  · rintro rfl
    exact e.name_ne_nil (List.forall₂_nil_right_iff.mp h)
  · obtain ⟨i, hi, rfl⟩ := List.mem_iff_getElem.mp hc
    have hi' : i < e.name.length := h.length_eq ▸ hi
    exact not_isMark_of_letter (e.letters _ (List.getElem_mem hi')) (h.get hi' hi)

theorem named_self (e : Element) : Named e e.name :=
  named_of_forall₂ (List.forall₂_same.mpr fun _ _ => beq_self_eq_true _)

/-- A document that begins with the element: what the element says, and what follows it. -/
structure Begins (e : Element) (xml value rest : Str) : Prop where
  fits : Fits e value
  eq : ∃ name name', Named e name ∧ Named e name' ∧
    xml = '<' :: (name ++ '>' :: (value ++ '<' :: '/' :: (name' ++ '>' :: rest)))

theorem begins_write {e : Element} {value : Str} (h : Fits e value) (rest : Str) :
    Begins e (e.write value ++ rest) value rest :=
  ⟨h, e.name, e.name, named_self e, named_self e, by
    simp [Element.write, Element.opening, Element.closing]⟩

theorem forall₂_append_iff {R : Char → Char → Prop} {u v s : Str} :
    List.Forall₂ R (u ++ v) s ↔ ∃ u' v', List.Forall₂ R u u' ∧ List.Forall₂ R v v' ∧ s = u' ++ v' := by
  constructor
  · intro h
    induction u generalizing s with
    | nil => exact ⟨[], s, .nil, h, rfl⟩
    | cons x u ih =>
      obtain ⟨c, tail, hc, htail, rfl⟩ := List.forall₂_cons_left_iff.mp h
      obtain ⟨u', v', hu, hv, rfl⟩ := ih htail
      exact ⟨c :: u', v', .cons hc hu, hv, rfl⟩
  · rintro ⟨u', v', hu, hv, rfl⟩
    exact List.rel_append hu hv

theorem tag_iff {e : Element} (marks : Str) (hmarks : ∀ x ∈ marks, IsMark x) {tag : Str} :
    List.Forall₂ (fun x c => sameFold x c = true) (marks ++ (e.name ++ ['>'])) tag ↔
      ∃ name, Named e name ∧ tag = marks ++ (name ++ ['>']) := by
  have hself : ∀ w : Str, (∀ x ∈ w, IsMark x) → ∀ {s : Str},
      List.Forall₂ (fun x c => sameFold x c = true) w s → s = w := by
    intro w hw s hs
    induction hs with
    | nil => rfl
    | cons hc _ ih =>
      obtain ⟨hx, hw⟩ := List.forall_mem_cons.mp hw
      rw [sameFold_mark hx hc, ih hw]
  have hrefl : ∀ w : Str, List.Forall₂ (fun x c => sameFold x c = true) w w := fun w =>
    List.forall₂_same.mpr fun _ _ => beq_self_eq_true _
  rw [forall₂_append_iff]
  simp only [forall₂_append_iff]
  constructor
  · rintro ⟨_, _, hfirst, ⟨name, _, hname, hlast, rfl⟩, rfl⟩
    rw [hself marks hmarks hfirst, hself ['>'] (by simp [IsMark]) hlast]
    exact ⟨name, named_of_forall₂ hname, rfl⟩
  · rintro ⟨name, hname, rfl⟩
    exact ⟨marks, _, hrefl marks, ⟨name, ['>'], hname.same, hrefl _, rfl⟩, rfl⟩

theorem opening_iff {e : Element} {tag : Str} :
    List.Forall₂ (fun x c => sameFold x c = true) e.opening tag ↔
      ∃ name, Named e name ∧ tag = '<' :: (name ++ ['>']) :=
  tag_iff ['<'] (by simp [IsMark])

theorem closing_iff {e : Element} {tag : Str} :
    List.Forall₂ (fun x c => sameFold x c = true) e.closing tag ↔
      ∃ name, Named e name ∧ tag = '<' :: '/' :: (name ++ ['>']) :=
  tag_iff ['<', '/'] (by simp [IsMark])

theorem begins_of_mem {e : Element} {xml : Str} {d : Cursor Char}
    (h : d ∈ run e.pattern (start xml)) :
    ∃ value, Begins e xml value d.right ∧ d.group "1" = some value := by
  obtain ⟨_, hfirst, hrest⟩ := mem_run_seqs_cons.mp h
  obtain ⟨opening, tail, hopen, hxml, rfl⟩ := mem_run_lit.mp hfirst
  obtain ⟨_, hgroup, hlast⟩ := mem_run_seqs_cons.mp hrest
  obtain ⟨_, hvalue, rfl⟩ := mem_run_group.mp hgroup
  obtain ⟨value, tail', hne, hcontent, htail, rfl⟩ := mem_run_many1.mp hvalue
  obtain ⟨closing, rest, hclose, htail', rfl⟩ := mem_run_lit.mp hlast
  obtain ⟨name, hname, rfl⟩ := opening_iff.mp hopen
  obtain ⟨name', hname', rfl⟩ := closing_iff.mp hclose
  have hxml : xml = '<' :: (name ++ ['>']) ++ tail := hxml
  have htail : tail = value ++ tail' := htail
  have htail' : tail' = '<' :: '/' :: (name' ++ ['>']) ++ rest := htail'
  refine ⟨value, ⟨⟨hne, hcontent⟩, name, name', hname, hname', ?_⟩, ?_⟩
  · simp [hxml, htail, htail']
  · rw [captured_skip htail]
    rfl

theorem mem_of_begins {e : Element} {xml value rest : Str} (h : Begins e xml value rest) :
    ∃ d, d ∈ run e.pattern (start xml) := by
  obtain ⟨⟨hne, hcontent⟩, name, name', hname, hname', rfl⟩ := h
  have hopen := opening_iff.mpr ⟨name, hname, rfl⟩
  have hclose := closing_iff.mpr ⟨name', hname', rfl⟩
  refine ⟨_, mem_run_seqs_cons.mpr ⟨_, mem_run_lit.mpr ⟨_, value ++ '<' :: '/' :: (name' ++ '>' :: rest),
    hopen, by simp [start], rfl⟩, mem_run_seqs_cons.mpr ⟨_, mem_run_group.mpr ⟨_, mem_run_many1.mpr
    ⟨value, _, hne, hcontent, rfl, rfl⟩, rfl⟩, mem_run_lit.mpr ⟨_, rest, hclose, ?_, rfl⟩⟩⟩⟩
  simp

theorem Named.not_mem {e : Element} {name : Str} (h : Named e name) {c : Char} (hc : IsMark c) :
    c ∉ name := fun hmem => h.marks c hmem hc

theorem Fits.not_mem {e : Element} {value : Str} (h : Fits e value) : '<' ∉ value := by
  intro hmem
  have hlt := h.content '<' hmem
  rw [e.content_lt] at hlt
  cases hlt

/-- Names that match no common text. -/
def Apart (e f : Element) : Prop := e.name.map fold ≠ f.name.map fold

theorem Named.fold_eq {e : Element} {name : Str} (h : Named e name) :
    name.map fold = e.name.map fold := by
  have hsame : List.Forall₂ (fun x c => fold x = fold c) e.name name :=
    h.same.imp fun _ _ hc => beq_iff_eq.mp hc
  rw [← List.forall₂_eq_eq_eq, List.forall₂_map_left_iff, List.forall₂_map_right_iff]
  exact hsame.flip.imp fun _ _ hc => hc.symm

theorem Begins.not_apart {e f : Element} {xml value rest value' rest' : Str}
    (he : Begins e xml value rest) (hf : Begins f xml value' rest') : ¬ Apart e f := by
  obtain ⟨-, name, _, hname, -, rfl⟩ := he
  obtain ⟨-, name', _, hname', -, hxml⟩ := hf
  obtain ⟨rfl, -⟩ := append_mark_inj (hname.not_mem (.inr (.inl rfl)))
    (hname'.not_mem (.inr (.inl rfl))) (List.cons.inj hxml).2
  exact fun h => h (hname.fold_eq.symm.trans hname'.fold_eq)

theorem Begins.unique {e : Element} {xml value rest value' rest' : Str}
    (h : Begins e xml value rest) (h' : Begins e xml value' rest') : value = value' ∧ rest = rest' := by
  have hgt : IsMark '>' := .inr (.inl rfl)
  obtain ⟨hfits, _, _, hopen, hclose, rfl⟩ := h
  obtain ⟨hfits', _, _, hopen', hclose', hxml⟩ := h'
  obtain ⟨-, hxml⟩ := append_mark_inj (hopen.not_mem hgt) (hopen'.not_mem hgt) (List.cons.inj hxml).2
  obtain ⟨hvalue, hxml⟩ := append_mark_inj hfits.not_mem hfits'.not_mem hxml
  obtain ⟨-, hrest⟩ := append_mark_inj (hclose.not_mem hgt) (hclose'.not_mem hgt)
    (List.cons.inj hxml).2
  exact ⟨hvalue, hrest⟩

theorem noBehind_pattern (e : Element) : NoBehind e.pattern := by
  refine noBehind_seqs fun r hr => ?_
  simp only [List.mem_cons, List.not_mem_nil, or_false] at hr
  obtain rfl | rfl | rfl := hr
  · exact noBehind_lit _
  · exact ⟨trivial, trivial⟩
  · exact noBehind_lit _

theorem matchStart_of_begins {e : Element} {xml value rest : Str} (h : Begins e xml value rest) :
    ∃ d, matchStart e.pattern xml = some d ∧ d.right = rest ∧ d.group "1" = some value := by
  obtain ⟨d, hd⟩ := mem_of_begins h
  have hne : run e.pattern (start xml) ≠ [] := List.ne_nil_of_mem hd
  obtain ⟨first, hfirst⟩ := Option.ne_none_iff_exists'.mp (mt List.head?_eq_none_iff.mp hne)
  obtain ⟨value', hbegins, hgroup⟩ := begins_of_mem (List.mem_of_head? hfirst)
  obtain ⟨rfl, rfl⟩ := h.unique hbegins
  exact ⟨first, hfirst, rfl, hgroup⟩

theorem matchStart_of_not_begins {e : Element} {xml : Str} (h : ∀ value rest, ¬ Begins e xml value rest) :
    matchStart e.pattern xml = none := by
  rw [matchStart, List.head?_eq_none_iff, List.eq_nil_iff_forall_not_mem]
  intro d hd
  obtain ⟨value, hbegins, -⟩ := begins_of_mem hd
  exact h value _ hbegins

theorem search_nil (e : Element) : search e.pattern [] = none := by
  apply matchStart_of_not_begins
  rintro value rest ⟨-, _, _, -, -, hxml⟩
  cases hxml

theorem search_of_begins {e : Element} {xml value rest : Str} (h : Begins e xml value rest) :
    ∃ d, search e.pattern xml = some d ∧ d.group "1" = some value := by
  obtain ⟨d, hmatch, -, hgroup⟩ := matchStart_of_begins h
  refine ⟨d, ?_, hgroup⟩
  cases xml with
  | nil => exact hmatch
  | cons x xs => rw [search_cons (noBehind_pattern e), hmatch]; rfl

theorem search_of_not_begins {e : Element} {x : Char} {xs : Str}
    (h : ∀ value rest, ¬ Begins e (x :: xs) value rest) :
    search e.pattern (x :: xs) = (search e.pattern xs).map (Cursor.after [x]) := by
  rw [search_cons (noBehind_pattern e), matchStart_of_not_begins h]
  rfl

theorem read_nil (e : Element) : read e [] = none := by rw [read, search_nil]; rfl

theorem read_of_begins {e : Element} {xml value rest : Str} (h : Begins e xml value rest) :
    read e xml = some value := by
  obtain ⟨d, hsearch, hgroup⟩ := search_of_begins h
  rw [read, hsearch]
  exact hgroup

theorem read_cons {e : Element} {x : Char} {xs : Str} (h : ∀ value rest, ¬ Begins e (x :: xs) value rest) :
    read e (x :: xs) = read e xs := by
  rw [read, search_of_not_begins h, read]
  cases search e.pattern xs <;> rfl

theorem found_iff {e : Element} {xml : Str} : found e.pattern xml = true ↔ read e xml ≠ none := by
  induction xml with
  | nil => rw [found, search_nil, read_nil]; simp
  | cons x xs ih =>
    by_cases h : ∃ value rest, Begins e (x :: xs) value rest
    · obtain ⟨value, rest, h⟩ := h
      obtain ⟨d, hsearch, -⟩ := search_of_begins h
      rw [found, hsearch, read_of_begins h]
      simp
    · have hnot : ∀ value rest, ¬ Begins e (x :: xs) value rest := fun v r hb => h ⟨v, r, hb⟩
      rw [found, search_of_not_begins hnot, Option.isSome_map, read_cons hnot]
      exact ih

theorem found_write {e : Element} {value : Str} (h : Fits e value) (rest : Str) :
    found e.pattern (e.write value ++ rest) = true := by
  rw [found_iff, read_of_begins (begins_write h rest)]
  exact Option.some_ne_none _

theorem replace_of_begins {e : Element} {xml value rest : Str} (h : Begins e xml value rest)
    (new : Str) : replace e new xml = e.write new ++ replace e new rest := by
  obtain ⟨d, hmatch, hright, -⟩ := matchStart_of_begins h
  obtain ⟨-, name, name', -, -, rfl⟩ := h
  have hsplit : '<' :: (name ++ '>' :: (value ++ '<' :: '/' :: (name' ++ '>' :: rest))) =
      '<' :: (name ++ '>' :: (value ++ '<' :: '/' :: (name' ++ ['>']))) ++ rest := by simp
  rw [hsplit] at hmatch ⊢
  exact sub_of_match (noBehind_pattern e) (List.cons_ne_nil _ _) hmatch hright

theorem replace_cons {e : Element} {x : Char} {xs : Str}
    (h : ∀ value rest, ¬ Begins e (x :: xs) value rest) (new : Str) :
    replace e new (x :: xs) = x :: replace e new xs :=
  sub_of_not_match (noBehind_pattern e) (matchStart_of_not_begins h)

/-- Elements one after the other: what is true of the text after an element, or after
a character that begins none, is true of the text with it. -/
theorem document_induction (e : Element) {P : Str → Prop} (nil : P [])
    (element : ∀ xml value rest, Begins e xml value rest → P rest → P xml)
    (other : ∀ x xs, (∀ value rest, ¬ Begins e (x :: xs) value rest) → P xs → P (x :: xs)) (xml : Str) :
    P xml := by
  induction hlength : xml.length using Nat.strongRecOn generalizing xml with
  | ind n ih =>
    by_cases h : ∃ value rest, Begins e xml value rest
    · obtain ⟨value, rest, hbegins⟩ := h
      obtain ⟨_, _, _, -, -, rfl⟩ := hbegins.eq
      refine element _ value rest hbegins (ih _ ?_ rest rfl)
      simp only [← hlength, List.length_cons, List.length_append]
      omega
    · cases xml with
      | nil => exact nil
      | cons x xs =>
        refine other x xs (fun value rest hbegins => h ⟨value, rest, hbegins⟩) (ih _ ?_ xs rfl)
        rw [← hlength]
        exact Nat.lt_succ_self _

/-- Every `<` is the beginning of a closing tag. -/
def Quiet : Str → Prop
  | [] => True
  | c :: w => (c = '<' → w.head? = some '/') ∧ Quiet w

theorem quiet_append {u w : Str} (hu : '<' ∉ u) (hw : Quiet w) : Quiet (u ++ w) := by
  induction u with
  | nil => exact hw
  | cons c u ih =>
    refine ⟨?_, ih fun h => hu (.tail _ h)⟩
    rintro rfl
    exact absurd (List.mem_cons_self ..) hu

theorem Quiet.not_begins {c : Char} {w : Str} (h : Quiet (c :: w)) {e : Element}
    {xs value rest : Str} : ¬ Begins e (c :: (w ++ xs)) value rest := by
  rintro ⟨-, name, _, hname, -, hxml⟩
  obtain ⟨rfl, htail⟩ := List.cons.inj hxml
  obtain ⟨w, rfl⟩ := List.head?_eq_some_iff.mp (h.1 rfl)
  obtain ⟨x, name, rfl⟩ := List.exists_cons_of_ne_nil hname.ne_nil
  exact hname.marks x (by simp) (.inr (.inr (List.cons.inj htail).1.symm))

theorem Begins.split {e : Element} {xml value rest : Str} (h : Begins e xml value rest) :
    ∃ w, Quiet w ∧ xml = '<' :: (w ++ rest) ∧ ∀ rest', Begins e ('<' :: (w ++ rest')) value rest' := by
  obtain ⟨hfits, name, name', hname, hname', rfl⟩ := h
  have hlt : ∀ {name : Str}, Named e name → '<' ∉ name := fun hn => hn.not_mem (.inl rfl)
  have hgt : ∀ {w : Str}, Quiet w → Quiet ('>' :: w) := fun hw => ⟨fun h => by simp at h, hw⟩
  have hclose : Quiet ('<' :: '/' :: (name' ++ ['>'])) :=
    ⟨fun _ => rfl, fun h => by simp at h, quiet_append (hlt hname') (hgt trivial)⟩
  refine ⟨name ++ '>' :: (value ++ '<' :: '/' :: (name' ++ ['>'])), ?_, by simp, fun rest' =>
    ⟨hfits, name, name', hname, hname', by simp⟩⟩
  exact quiet_append (hlt hname) (hgt (quiet_append hfits.not_mem hclose))

theorem read_quiet (e : Element) {w : Str} (h : Quiet w) (xs : Str) : read e (w ++ xs) = read e xs := by
  induction w with
  | nil => rfl
  | cons c w ih =>
    rw [List.cons_append, read_cons fun _ _ => h.not_begins]
    exact ih h.2

theorem replace_quiet (e : Element) (new : Str) {w : Str} (h : Quiet w) (xs : Str) :
    replace e new (w ++ xs) = w ++ replace e new xs := by
  induction w with
  | nil => rfl
  | cons c w ih =>
    rw [List.cons_append, replace_cons fun _ _ => h.not_begins]
    exact congrArg _ (ih h.2)

theorem quiet_of_replace {e : Element} {new w xs rest : Str} (hw : Quiet w)
    (h : replace e new xs = w ++ rest) : ∃ xs', xs = w ++ xs' ∧ replace e new xs' = rest := by
  induction w generalizing xs with
  | nil => exact ⟨xs, rfl, h⟩
  | cons c w ih =>
    by_cases hbegins : ∃ value rest, Begins e xs value rest
    · obtain ⟨value, rest', hbegins⟩ := hbegins
      rw [replace_of_begins hbegins] at h
      obtain ⟨rfl, htail⟩ := List.cons.inj h
      obtain ⟨w, rfl⟩ := List.head?_eq_some_iff.mp (hw.1 rfl)
      obtain ⟨x, name, hname⟩ := List.exists_cons_of_ne_nil e.name_ne_nil
      rw [hname] at htail
      obtain ⟨rfl, -⟩ := List.cons.inj htail
      have hslash := (named_self e).not_mem (c := '/') (.inr (.inr rfl))
      exact absurd (hname ▸ List.mem_cons_self ..) hslash
    · cases xs with
      | nil => cases h
      | cons x xs =>
        rw [replace_cons fun value rest hb => hbegins ⟨value, rest, hb⟩] at h
        obtain ⟨rfl, htail⟩ := List.cons.inj h
        obtain ⟨xs', rfl, hrest⟩ := ih hw.2 htail
        exact ⟨xs', rfl, hrest⟩

theorem begins_of_replace {e f : Element} {new xs value rest : Str} {x : Char}
    (h : Begins f (x :: replace e new xs) value rest) : ∃ rest', Begins f (x :: xs) value rest' := by
  obtain ⟨w, hw, hxml, hbegins⟩ := h.split
  obtain ⟨rfl, htail⟩ := List.cons.inj hxml
  obtain ⟨xs', rfl, -⟩ := quiet_of_replace hw htail
  exact ⟨xs', hbegins xs'⟩

theorem Begins.read_apart {e f : Element} (h : Apart e f) {xml value rest : Str}
    (hbegins : Begins e xml value rest) : read f xml = read f rest := by
  obtain ⟨w, hw, rfl, -⟩ := hbegins.split
  rw [read_cons fun _ _ hf => hbegins.not_apart hf h]
  exact read_quiet f hw rest

theorem read_replace_apart {e f : Element} (h : Apart e f) {new : Str} (hnew : Fits e new) (xml : Str) :
    read f (replace e new xml) = read f xml := by
  induction xml using document_induction e with
  | nil => rfl
  | element xml value rest hbegins ih =>
    rw [replace_of_begins hbegins, (begins_write hnew _).read_apart h, ih, hbegins.read_apart h]
  | other x xs hnot ih =>
    rw [replace_cons hnot]
    by_cases hf : ∃ value rest, Begins f (x :: xs) value rest
    · obtain ⟨value, rest, hf⟩ := hf
      obtain ⟨w, hw, hxml, hbegins⟩ := hf.split
      obtain ⟨rfl, rfl⟩ := List.cons.inj hxml
      rw [replace_quiet e new hw, read_of_begins (hbegins _), read_of_begins hf]
    · rw [read_cons fun value rest hb => hf ⟨value, begins_of_replace hb⟩, ih,
        read_cons fun value rest hb => hf ⟨value, rest, hb⟩]

/-- What has been written is read. -/
theorem read_replace {e : Element} {new : Str} (hnew : Fits e new) {xml : Str}
    (h : read e xml ≠ none) : read e (replace e new xml) = some new := by
  induction xml using document_induction e with
  | nil => exact absurd (read_nil e) h
  | element xml value rest hbegins ih =>
    rw [replace_of_begins hbegins]
    exact read_of_begins (begins_write hnew _)
  | other x xs hnot ih =>
    have hxs : read e xs ≠ none := by rwa [read_cons hnot] at h
    rw [replace_cons hnot, read_cons fun value rest hb => ?_]
    · exact ih hxs
    · obtain ⟨rest', hbegins⟩ := begins_of_replace hb
      exact hnot value rest' hbegins

end AtmMonitor.XmlElements
