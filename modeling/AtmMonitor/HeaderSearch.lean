import AtmMonitor.HeaderLines

namespace AtmMonitor.HeaderSearch

open Library.Regex PyText EventPatterns EjParser TrimmedLines HeaderLines

def OneLine (w : Str) : Prop := ∀ c ∈ w, fold c ≠ '\n'

instance : DecidablePred OneLine := fun w =>
  decidable_of_iff ((w.all fun c => fold c != '\n') = true) (by simp [OneLine])

def Worded (w : Str) : Prop := Lettered w ∧ OneLine w

instance : DecidablePred Worded := fun _ => inferInstanceAs (Decidable (_ ∧ _))

abbrev SameCase (w u : Str) : Prop := List.Forall₂ (fun a c => sameFold a c = true) w u

theorem SameCase.no_newline {w u : Str} (h : SameCase w u) (hw : OneLine w) : '\n' ∉ u := by
  intro hmem
  obtain ⟨i, hi, hc⟩ := List.mem_iff_getElem.mp hmem
  have hi' : i < w.length := h.length_eq ▸ hi
  have hsame := h.get hi' hi
  rw [List.get_eq_getElem, List.get_eq_getElem, hc, sameFold, beq_iff_eq] at hsame
  exact hw _ (List.getElem_mem hi') hsame

theorem SameCase.head {w u : Str} (h : SameCase w u) (hw : Lettered w) :
    u ≠ [] ∧ ∀ c, HeaderChar c → u.head? ≠ some c := by
  obtain ⟨x, t, rfl, halpha⟩ := hw.cons
  cases h with
  | @cons _ c _ u hac _ =>
    refine ⟨List.cons_ne_nil _ _, fun d hd heq => ?_⟩
    obtain rfl := Option.some.inj heq
    rw [sameFold_headerChar halpha hd] at hac
    cases hac

theorem rejects_phrase {w : String} {x : Char} {t : Str} (hw : w.toList = x :: t) {o : Option Char}
    (ho : o.all (fun c => !sameFold x c) = true) (rs : List Regex) :
    Rejects o (seqs (phrase w :: rs)) := by
  apply rejects_seqs_cons
  rw [phrase, lit, hw, List.map_cons]
  exact rejects_seqs_cons (r := .cls (sameFold x)) ho _

/-- What follows `^` in a pattern that begins no header line. -/
structure NotHeader (r : Regex) : Prop where
  noBehind : NoBehind r
  nil : matchStart r [] = none
  newline : ∀ t, matchStart r ('\n' :: t) = none
  header : ∀ d t, isDigit d = true → matchStart r ('*' :: d :: t) = none

/-- Lines below may complete the pattern, but no header line does. -/
structure OfLine (r : Regex) : Prop extends NotHeader r where
  grows : ∀ l t, (matchStart r l).isSome = true → '\n' ∉ l →
    (matchStart r (l ++ '\n' :: t)).isSome = true
  below : ∀ l t, '\n' ∉ l → (matchStart r (l ++ '\n' :: '*' :: t)).isSome = (matchStart r l).isSome

def Unlike (w : Str) : Prop := Lettered w ∨ Lettered w.tail

instance : DecidablePred Unlike := fun _ => inferInstanceAs (Decidable (_ ∨ _))

theorem matchStart_linePhrase {w s : Str} :
    (matchStart (.seq (lit sameFold w) (lineEnd isNewline)) s).isSome = true ↔
      ∃ u rest, SameCase w u ∧ s = u ++ rest ∧ rest.head?.all isNewline = true := by
  rw [matchStart_isSome_iff]
  constructor
  · rintro ⟨d, hd⟩
    obtain ⟨_, hlit, hend⟩ := mem_run_seq_iff.mp hd
    obtain ⟨u, rest, hu, hs, rfl⟩ := mem_run_lit.mp hlit
    exact ⟨u, rest, hu, hs, (mem_run_ahead.mp hend).1⟩
  · rintro ⟨u, rest, hu, hs, hend⟩
    exact ⟨_, mem_run_seq_iff.mpr ⟨_, mem_run_lit.mpr ⟨u, rest, hu, hs, rfl⟩,
      mem_run_ahead.mpr ⟨hend, rfl⟩⟩⟩

theorem matchStart_linePhrase_line {w l t : Str} (hw : OneLine w) (hl : '\n' ∉ l) :
    ((matchStart (.seq (lit sameFold w) (lineEnd isNewline)) (l ++ '\n' :: t)).isSome = true ↔
        SameCase w l) ∧
      ((matchStart (.seq (lit sameFold w) (lineEnd isNewline)) l).isSome = true ↔ SameCase w l) := by
  have hrest : ∀ {rest : Str}, rest.head?.all isNewline = true → rest = [] ∨ ∃ t, rest = '\n' :: t := by
    intro rest h
    cases rest with
    | nil => exact .inl rfl
    | cons c t => exact .inr ⟨t, by rw [beq_iff_eq.mp h]⟩
  rw [matchStart_linePhrase, matchStart_linePhrase]
  constructor <;> constructor
  · rintro ⟨u, rest, hu, hs, hend⟩
    have hnu := hu.no_newline hw
    obtain rfl | ⟨t', rfl⟩ := hrest hend
    · rw [List.append_nil] at hs
      exact absurd (hs ▸ List.mem_append_right l (List.mem_cons_self ..)) hnu
    · rwa [(append_mark_inj hl hnu hs).1]
  · exact fun h => ⟨l, _, h, rfl, rfl⟩
  · rintro ⟨u, rest, hu, rfl, hend⟩
    obtain rfl | ⟨t', rfl⟩ := hrest hend
    · rwa [List.append_nil]
    · exact absurd (by simp) hl
  · exact fun h => ⟨l, [], h, (List.append_nil l).symm, rfl⟩

theorem ofLine_phrase {w : Str} (hne : w ≠ []) (hw : OneLine w) (hunlike : Unlike w) :
    OfLine (.seq (lit sameFold w) (lineEnd isNewline)) where
  noBehind := ⟨noBehind_lit w, trivial⟩
  nil := by
    rw [← Option.not_isSome_iff_eq_none, (matchStart_linePhrase_line (t := []) hw (by simp)).2]
    exact fun h => hne (List.forall₂_nil_right_iff.mp h)
  newline t := by
    rw [← Option.not_isSome_iff_eq_none]
    have hline := (matchStart_linePhrase_line (l := []) (t := t) hw (by simp)).1
    rw [List.nil_append] at hline
    rw [hline]
    exact fun h => hne (List.forall₂_nil_right_iff.mp h)
  header d t hd := by
    rw [← Option.not_isSome_iff_eq_none, matchStart_linePhrase]
    rintro ⟨u, rest, hu, hs, -⟩
    have hstar : HeaderChar '*' := .inr (.inr (by simp))
    obtain hletter | hletter := hunlike
    · obtain ⟨hne', hhead⟩ := hu.head hletter
      obtain ⟨c, u, rfl⟩ := List.exists_cons_of_ne_nil hne'
      exact hhead '*' hstar (by rw [(List.cons.inj hs).1]; rfl)
    · cases hu with
      | nil => exact absurd rfl hne
      | cons hc htail =>
        obtain ⟨hne', hhead⟩ := SameCase.head htail hletter
        obtain ⟨c, u, rfl⟩ := List.exists_cons_of_ne_nil hne'
        have hd' : d = c := (List.cons.inj (List.cons.inj hs).2).1
        exact hhead d (.inl hd) (by rw [hd']; rfl)
  grows l t h hl := by
    rw [(matchStart_linePhrase_line (t := []) hw hl).2] at h
    exact (matchStart_linePhrase_line hw hl).1.mpr h
  below l t hl := by
    rw [Bool.eq_iff_iff, (matchStart_linePhrase_line hw hl).1,
      (matchStart_linePhrase_line (t := []) hw hl).2]

theorem last_of_many1 {rs : List Regex} {q : Char → Bool} (hq : q '\n' = false) {s w rest : Str}
    (hsplit : s = w ++ rest)
    (hd : (start s).skip w rest ∈ run (seqs (rs ++ [many1 q])) (start s)) :
    w.getLast? ≠ some '\n' := by
  rw [run_seqs_append] at hd
  obtain ⟨e, he, hd⟩ := List.mem_flatMap.mp hd
  obtain ⟨v, rest', hne, hv, hright, hskip⟩ := mem_run_many1.mp hd
  obtain ⟨u, hu⟩ := run_suffix he
  obtain rfl : rest = rest' := congrArg Cursor.right hskip
  have hw : w = u ++ v := by
    rw [hright, ← List.append_assoc] at hu
    exact (List.append_cancel_right (hu.trans hsplit)).symm
  rw [hw, List.getLast?_append_of_ne_nil _ hne]
  intro hnl
  rw [hv _ (List.mem_of_getLast? hnl)] at hq
  cases hq

theorem length_below_le {l t w rest : Str} (hsplit : l ++ '\n' :: '*' :: t = w ++ rest) (hw : '*' ∉ w)
    (hlast : w.getLast? ≠ some '\n') : ('\n' :: '*' :: t).length ≤ rest.length := by
  obtain ⟨a, rfl, htail⟩ | ⟨c, -, rfl⟩ := List.append_eq_append_iff.mp hsplit
  · cases a with
    | nil => exact htail ▸ le_rfl
    | cons x a =>
      obtain ⟨rfl, hstar⟩ := List.cons.inj htail
      cases a with
      | nil => exact absurd (by simp) hlast
      | cons y a =>
        obtain ⟨rfl, -⟩ := List.cons.inj hstar
        exact absurd (by simp) hw
  · rw [List.length_append]
    exact Nat.le_add_left _ _

theorem ofLine_table {rs : List Regex} {q : Char → Bool} (hq : q '\n' = false)
    (hbehind : NoBehind (seqs (rs ++ [many1 q]))) (hahead : NoAhead (seqs (rs ++ [many1 q])))
    (hwithin : Within (· ≠ '*') (seqs (rs ++ [many1 q])))
    (hrejects : ∀ o : Option Char, (∀ c ∈ o, c = '\n' ∨ c = '*') → Rejects o (seqs (rs ++ [many1 q]))) :
    OfLine (seqs (rs ++ [many1 q])) where
  noBehind := hbehind
  nil := matchStart_of_rejects (hrejects none (by simp))
  newline t := matchStart_of_rejects (hrejects (some '\n') (by simp))
  header d t _ := matchStart_of_rejects (hrejects (some '*') (by simp))
  grows l t h _ := by
    obtain ⟨d, hd⟩ := matchStart_isSome_iff.mp h
    have hmem := List.mem_map_of_mem (f := Cursor.extend ('\n' :: t)) hd
    rw [← run_extend hahead] at hmem
    exact matchStart_isSome_iff.mpr ⟨_, List.mem_of_mem_filter hmem⟩
  below l t hl := by
    have hextend : (run (seqs (rs ++ [many1 q])) (start (l ++ '\n' :: '*' :: t))).filter
        (before ('\n' :: '*' :: t).length) =
          (run (seqs (rs ++ [many1 q])) (start l)).map (Cursor.extend ('\n' :: '*' :: t)) :=
      run_extend hahead _ (start l)
    rw [Bool.eq_iff_iff, matchStart_isSome_iff, matchStart_isSome_iff]
    constructor
    · rintro ⟨d, hd⟩
      obtain ⟨w, rest, hw, hsplit, rfl⟩ := run_within hwithin hd
      have hlast := last_of_many1 hq hsplit hd
      have hbefore : before ('\n' :: '*' :: t).length ((start (l ++ '\n' :: '*' :: t)).skip w rest) =
          true := by
        rw [before, decide_eq_true_eq, Cursor.skip_right]
        exact length_below_le hsplit (fun h => hw '*' h rfl) hlast
      have hmem := List.mem_filter.mpr ⟨hd, hbefore⟩
      rw [hextend] at hmem
      obtain ⟨d', hd', -⟩ := List.mem_map.mp hmem
      exact ⟨d', hd'⟩
    · rintro ⟨d, hd⟩
      have hmem := List.mem_map_of_mem (f := Cursor.extend ('\n' :: '*' :: t)) hd
      rw [← hextend] at hmem
      exact ⟨_, List.mem_of_mem_filter hmem⟩

theorem noAhead_phrase (w : String) : NoAhead (phrase w) := by
  refine noAhead_seqs fun r hr => ?_
  obtain ⟨x, -, rfl⟩ := List.mem_map.mp hr
  trivial

theorem within_phrase {w : String} {q : Char → Prop} (h : ∀ a ∈ w.toList, ∀ c, sameFold a c = true → q c) :
    Within q (phrase w) := by
  refine within_seqs fun r hr => ?_
  obtain ⟨a, ha, rfl⟩ := List.mem_map.mp hr
  exact h a ha

theorem ofLine_phrase_table {w : String} (rs : List Regex) {x : Char} {t : Str} (hw : w.toList = x :: t)
    (hx : sameFold x '\n' = false) (hstar : (w.toList.all fun a => !sameFold a '*') = true)
    {q : Char → Bool} (hq : q '\n' = false ∧ q '*' = false)
    (hrs : ∀ r ∈ rs, NoBehind r ∧ NoAhead r ∧ Within (· ≠ '*') r) :
    OfLine (seqs (phrase w :: rs ++ [many1 q])) := by
  have hne : ∀ a ∈ w.toList, sameFold a '*' = false := fun a ha => by
    simpa using List.all_eq_true.mp hstar a ha
  have hwithin : Within (· ≠ '*') (phrase w) := by
    refine within_phrase fun a ha c hc => ?_
    rintro rfl
    rw [hne a ha] at hc
    cases hc
  have hlast : NoBehind (many1 q) ∧ NoAhead (many1 q) ∧ Within (· ≠ '*') (many1 q) := by
    have hne : ∀ c, q c = true → c ≠ '*' := by
      rintro c hc rfl
      rw [hq.2] at hc
      cases hc
    exact ⟨⟨trivial, trivial⟩, ⟨trivial, trivial⟩, hne, hne⟩
  have hall : ∀ r ∈ phrase w :: rs ++ [many1 q], NoBehind r ∧ NoAhead r ∧ Within (· ≠ '*') r := by
    intro r hr
    simp only [List.cons_append, List.mem_cons, List.mem_append, List.not_mem_nil, or_false] at hr
    obtain rfl | hr | rfl := hr
    · exact ⟨noBehind_lit _, noAhead_phrase w, hwithin⟩
    · exact hrs r hr
    · exact hlast
  refine ofLine_table hq.1 (noBehind_seqs fun r hr => (hall r hr).1)
    (noAhead_seqs fun r hr => (hall r hr).2.1) (within_seqs fun r hr => (hall r hr).2.2) fun o ho => ?_
  refine rejects_phrase hw ?_ _
  cases o with
  | none => rfl
  | some c =>
    obtain rfl | rfl := ho c rfl
    · simp [hx]
    · simp [hne x (hw ▸ List.mem_cons_self ..)]

theorem joinLines_singleton (l : Str) : joinLines [l] = l := List.intercalate_singleton

theorem joinLines_cons (l m : Str) (ls : List Str) :
    joinLines (l :: m :: ls) = l ++ '\n' :: joinLines (m :: ls) := by
  simp [joinLines, List.intercalate_cons_cons]

theorem strip_no_newline {s : Str} (h : '\n' ∉ s) : '\n' ∉ strip s := by
  obtain ⟨before, after, hs, -, -⟩ := strip_split s
  intro hmem
  apply h
  rw [hs]
  exact List.mem_append_right _ (List.mem_append_left _ hmem)

theorem found_join {r : Regex} (hbehind : NoBehind r) (hnil : matchStart r [] = none) {l : Str}
    (hl : '\n' ∉ l) (ls : List Str) :
    found (.seq (lineStart isNewline) r) (joinLines (l :: ls)) =
      ((matchStart r (joinLines (l :: ls))).isSome ||
        found (.seq (lineStart isNewline) r) (joinLines ls)) := by
  have hline := isNewline_of_not_mem hl
  cases ls with
  | nil =>
    have hempty : found (.seq (lineStart isNewline) r) [] = false := by
      rw [found_last_line hbehind (by simp), hnil]
      rfl
    have hnone : joinLines [] = [] := List.intercalate_nil
    rw [joinLines_singleton, hnone, found_last_line hbehind hline, hempty, Bool.or_false]
  | cons m ls =>
    rw [joinLines_cons]
    exact found_line hbehind rfl hline _

section Text

variable {p : HeaderParts} {x : Str} (hx : '\n' ∉ p.line x) (body : List Str)

def besideText (p : HeaderParts) (x : Str) (body : List Str) : Str :=
  joinLines (strip x :: strip (p.line x) :: body.map strip)

def belowText (p : HeaderParts) (x : Str) (body : List Str) : Str :=
  joinLines ([] :: strip (p.line []) :: strip x :: body.map strip)

/-- The stripped lines below the header, with the text as the first of them. -/
def bodyText (x : Str) (body : List Str) : Str := joinLines ((x :: body).map strip)

include hx

theorem no_newline : '\n' ∉ p.line [] ∧ '\n' ∉ x := by
  rw [← p.line_append, List.mem_append, not_or] at hx
  exact hx

theorem found_below {r : Regex} (h : NotHeader r) :
    found (.seq (lineStart isNewline) r) (belowText p x body) =
      found (.seq (lineStart isNewline) r) (bodyText x body) := by
  obtain ⟨hheader, -⟩ := no_newline hx
  obtain ⟨d, t, hd, hcore⟩ := p.core_cons
  rw [belowText, found_join h.noBehind h.nil (by simp), joinLines_cons, List.nil_append, h.newline,
    found_join h.noBehind h.nil (strip_no_newline hheader), joinLines_cons, strip_line, hcore]
  simp only [List.cons_append, h.header _ _ hd, Option.isSome_none, Bool.false_or]
  rfl

theorem found_beside_split {r : Regex} (h : NotHeader r) : ∃ t,
    found (.seq (lineStart isNewline) r) (besideText p x body) =
      ((matchStart r (strip x ++ '\n' :: '*' :: t)).isSome ||
        found (.seq (lineStart isNewline) r) (joinLines (body.map strip))) := by
  obtain ⟨-, hextra⟩ := no_newline hx
  obtain ⟨d, t, hd, hcore⟩ := p.core_cons
  have hshape : ∃ t, joinLines (strip (p.line x) :: body.map strip) = '*' :: d :: t := by
    rw [strip_line, hcore]
    cases body with
    | nil => exact ⟨_, joinLines_singleton _⟩
    | cons line rest => exact ⟨_, joinLines_cons _ _ _⟩
  obtain ⟨t', ht'⟩ := hshape
  have hsecond : found (.seq (lineStart isNewline) r) (joinLines (strip (p.line x) :: body.map strip)) =
      found (.seq (lineStart isNewline) r) (joinLines (body.map strip)) := by
    rw [found_join h.noBehind h.nil (strip_no_newline hx), ht', h.header d t' hd]
    rfl
  refine ⟨d :: t', ?_⟩
  rw [besideText, found_join h.noBehind h.nil (strip_no_newline hextra), joinLines_cons, hsecond, ht']

theorem found_beside {r : Regex} (h : OfLine r) :
    found (.seq (lineStart isNewline) r) (besideText p x body) =
      (found (.seq (lineStart isNewline) r) (strip x) ||
        found (.seq (lineStart isNewline) r) (joinLines (body.map strip))) := by
  have hstripped := strip_no_newline (no_newline hx).2
  obtain ⟨t, ht⟩ := found_beside_split hx body h.toNotHeader
  rw [ht, h.below _ _ hstripped, found_last_line h.noBehind (isNewline_of_not_mem hstripped)]

omit hx in
theorem infix_join {u : Str} (hne : u ≠ []) (hn : '\n' ∉ u) (l : Str) (ls : List Str) :
    u <:+: joinLines (l :: ls) ↔ u <:+: l ∨ u <:+: joinLines ls := by
  cases ls with
  | nil =>
    have hnone : joinLines [] = [] := List.intercalate_nil
    rw [joinLines_singleton, hnone, List.infix_nil]
    exact (or_iff_left hne).symm
  | cons m ls =>
    rw [joinLines_cons]
    exact infix_line_iff hn hne

omit hx in
theorem infix_texts {u : Str} (hne : u ≠ []) (hn : '\n' ∉ u) (hfirst : ∀ c, HeaderChar c → u.head? ≠ some c) :
    (u <:+: besideText p x body ↔ u <:+: bodyText x body) ∧
      (u <:+: belowText p x body ↔ u <:+: bodyText x body) := by
  have hskip : ∀ {v : Str}, (∀ c ∈ v, HeaderChar c) → ∀ s, u <:+: v ++ s ↔ u <:+: s := fun hv s =>
    infix_skip hne fun c hc => hfirst c (hv c hc)
  have hnil : ¬ u <:+: [] := fun h => hne (List.infix_nil.mp h)
  obtain ⟨v, hv, hsplit⟩ := strip_line_split p x
  have hcore : ¬ u <:+: strip (p.line []) := by
    obtain ⟨w, hw, hempty⟩ := strip_line_split p []
    rw [hempty, hskip hw]
    exact hnil
  constructor
  · rw [besideText, bodyText, List.map_cons, infix_join hne hn, infix_join hne hn, infix_join hne hn, hsplit,
      hskip hv]
    exact or_self_left
  · rw [belowText, infix_join hne hn, infix_join hne hn]
    exact (or_iff_right hnil).trans (or_iff_right hcore)

omit hx in
theorem contains_texts {w : Str} (hw : Worded w) :
    contains (besideText p x body) w = contains (bodyText x body) w ∧
      contains (belowText p x body) w = contains (bodyText x body) w := by
  have hself : SameCase w w := List.forall₂_same.mpr fun _ _ => beq_self_eq_true _
  obtain ⟨hne, hfirst⟩ := hself.head hw.1
  have htexts := infix_texts (p := p) (x := x) body hne (hself.no_newline hw.2) hfirst
  exact ⟨Bool.eq_iff_iff.mpr (contains_iff.trans (htexts.1.trans contains_iff.symm)),
    Bool.eq_iff_iff.mpr (contains_iff.trans (htexts.2.trans contains_iff.symm))⟩

omit hx in
theorem found_phrase_texts {w : String} (hw : Worded w.toList) :
    found (phrase w) (besideText p x body) = found (phrase w) (bodyText x body) ∧
      found (phrase w) (belowText p x body) = found (phrase w) (bodyText x body) := by
  have htexts : ∀ u, SameCase w.toList u → (u <:+: besideText p x body ↔ u <:+: bodyText x body) ∧
      (u <:+: belowText p x body ↔ u <:+: bodyText x body) := by
    intro u hu
    obtain ⟨hne, hfirst⟩ := hu.head hw.1
    exact infix_texts body hne (hu.no_newline hw.2) hfirst
  have hsame : ∀ {s s' : Str}, (∀ u, SameCase w.toList u → (u <:+: s ↔ u <:+: s')) →
      found (phrase w) s = found (phrase w) s' := fun h => Bool.eq_iff_iff.mpr <|
    found_lit.trans ((exists_congr fun u => and_congr_right (h u)).trans found_lit.symm)
  exact ⟨hsame fun u hu => (htexts u hu).1, hsame fun u hu => (htexts u hu).2⟩

omit hx in
theorem strip_getLast (s : Str) : ∀ c ∈ (strip s).getLast?, isSpace c = false := by
  intro c hc
  have hne : strip s ≠ [] := by
    intro h
    rw [h] at hc
    cases hc
  rw [List.getLast?_eq_some_getLast hne, Option.mem_some_iff] at hc
  rw [← hc]
  exact Bool.eq_false_iff.mpr (List.rdropWhile_last_not isSpace (s.dropWhile isSpace) hne)

omit hx in
theorem matchStart_caption {w l : Str} (hw : OneLine w) (hl : '\n' ∉ l)
    (hend : ∀ c ∈ l.getLast?, isSpace c = false) (rest : Str) (hrest : rest.head?.all isNewline = true) :
    (matchStart (seqs [lit sameFold w, .many isSpace, lineEnd isNewline]) (l ++ rest)).isSome = true ↔
      SameCase w l := by
  rw [matchStart_isSome_iff]
  constructor
  · rintro ⟨d, hd⟩
    obtain ⟨_, hlit, hd⟩ := mem_run_seqs_cons.mp hd
    obtain ⟨u, tail, hu, hs, rfl⟩ := mem_run_lit.mp hlit
    obtain ⟨_, hmany, hd⟩ := mem_run_seqs_cons.mp hd
    obtain ⟨v, stop, hv, htail, rfl⟩ := mem_run_many.mp hmany
    have hstop : stop.head?.all isNewline = true := (mem_run_ahead.mp hd).1
    have hnospace : ∀ bs, l = u ++ bs → (∀ c ∈ bs, isSpace c = true) → l = u := by
      rintro bs rfl hbs
      cases hlast : bs.getLast? with
      | none => rw [List.getLast?_eq_none_iff.mp hlast, List.append_nil]
      | some c =>
        have hc := hend c (by rw [List.getLast?_append, hlast]; rfl)
        rw [hbs c (List.mem_of_getLast? hlast)] at hc
        cases hc
    suffices l = u by rwa [this]
    obtain ⟨as, rfl, hrest'⟩ | ⟨bs, hbs, rfl⟩ := List.append_eq_append_iff.mp hs
    · cases as with
      | nil => exact (List.append_nil l).symm
      | cons c as =>
        rw [hrest', List.cons_append, List.head?_cons, Option.all_some] at hrest
        obtain rfl := beq_iff_eq.mp hrest
        exact absurd (by simp) (SameCase.no_newline hu hw)
    · obtain ⟨as, rfl, -⟩ | ⟨cs, rfl, rfl⟩ := List.append_eq_append_iff.mp htail
      · exact hnospace bs hbs fun c hc => hv c (List.mem_append_left _ hc)
      · cases cs with
        | nil => exact hnospace _ hbs (by simpa using hv)
        | cons c cs =>
          rw [List.cons_append, List.head?_cons, Option.all_some] at hstop
          obtain rfl := beq_iff_eq.mp hstop
          exact absurd (by simp [hbs]) hl
  · intro h
    refine ⟨_, mem_run_seqs_cons.mpr ⟨_, mem_run_lit.mpr ⟨l, rest, h, rfl, rfl⟩, mem_run_seqs_cons.mpr
      ⟨_, mem_run_many.mpr ⟨[], rest, by simp, rfl, rfl⟩, mem_run_ahead.mpr ⟨hrest, rfl⟩⟩⟩⟩

theorem isIgnored_texts :
    isIgnored (besideText p x body) = isIgnored (bodyText x body) ∧
      isIgnored (belowText p x body) = isIgnored (bodyText x body) := by
  have hcaption : NotHeader (seqs [phrase "TERMINALID:", .many isSpace, lineEnd isNewline]) := by
    have hrejects : ∀ o : Option Char, o.all (fun c => !sameFold 'T' c) = true →
        Rejects o (seqs [phrase "TERMINALID:", .many isSpace, lineEnd isNewline]) :=
      fun o ho => rejects_phrase rfl ho _
    exact ⟨⟨noBehind_lit _, trivial, trivial⟩, matchStart_of_rejects (hrejects _ rfl),
      fun t => matchStart_of_rejects (hrejects (some '\n') (by decide)),
      fun d t _ => matchStart_of_rejects (hrejects (some '*') (by decide))⟩
  have hfirst : ∀ rest : Str, rest.head?.all isNewline = true →
      ((matchStart (seqs [phrase "TERMINALID:", .many isSpace, lineEnd isNewline])
        (strip x ++ rest)).isSome = true ↔ SameCase "TERMINALID:".toList (strip x)) :=
    matchStart_caption (by decide) (strip_no_newline (no_newline hx).2) (strip_getLast x)
  have hbeside : found (.seq (lineStart isNewline) (seqs [phrase "TERMINALID:", .many isSpace,
      lineEnd isNewline])) (besideText p x body) = found (.seq (lineStart isNewline) (seqs
        [phrase "TERMINALID:", .many isSpace, lineEnd isNewline])) (bodyText x body) := by
    obtain ⟨t, ht⟩ := found_beside_split hx body hcaption
    have hrest : ∃ rest, bodyText x body = strip x ++ rest ∧ rest.head?.all isNewline = true := by
      cases body with
      | nil => exact ⟨[], (joinLines_singleton _).trans (List.append_nil _).symm, rfl⟩
      | cons line rest => exact ⟨_, joinLines_cons _ _ _, rfl⟩
    obtain ⟨rest, hbody, hrest⟩ := hrest
    rw [ht, bodyText, List.map_cons, found_join hcaption.noBehind hcaption.nil
      (strip_no_newline (no_newline hx).2)]
    rw [bodyText, List.map_cons] at hbody
    rw [hbody, Bool.eq_iff_iff, Bool.or_eq_true, Bool.or_eq_true, hfirst _ rfl, hfirst _ hrest]
  have hbelow := found_below hx body hcaption
  have hall : ∀ r ∈ IGNORE_PATTERNS, found r (besideText p x body) = found r (bodyText x body) ∧
      found r (belowText p x body) = found r (bodyText x body) := by
    simp only [IGNORE_PATTERNS, List.forall_mem_cons, List.not_mem_nil, false_imp_iff, implies_true,
      and_true]
    exact ⟨found_phrase_texts body (by decide), found_phrase_texts body (by decide),
      found_phrase_texts body (by decide), found_phrase_texts body (by decide),
      found_phrase_texts body (by decide), hbeside, hbelow⟩
  have hany : ∀ {s s' : Str}, (∀ r ∈ IGNORE_PATTERNS, found r s = found r s') →
      isIgnored s = isIgnored s' := fun h => by
    rw [isIgnored, isIgnored, Bool.eq_iff_iff, List.any_eq_true, List.any_eq_true]
    exact exists_congr fun r => and_congr_right fun hr => by rw [h r hr]
  exact ⟨hany fun r hr => (hall r hr).1, hany fun r hr => (hall r hr).2⟩

omit hx in
theorem start_absent {v : Str} (hv : ∀ c ∈ v, HeaderChar c) : ¬ "*TRANSACTION START*".toList <:+: v := by
  intro h
  have hT : ¬ HeaderChar 'T' := by decide
  exact hT (hv 'T' (h.subset (by decide)))

omit hx in
theorem start_split (y : Str) : "*TRANSACTION START*".toList <:+: p.core ++ y ↔
    "TRANSACTION START*".toList <+: y ∨ "*TRANSACTION START*".toList <:+: y := by
  have hwhole : "*TRANSACTION START*".toList = '*' :: "TRANSACTION START*".toList := rfl
  constructor
  · intro h
    obtain h | h | ⟨u, w, hsplit, hu, hw⟩ := List.infix_append_iff.mp h
    · exact absurd h (start_absent p.core_chars)
    · exact .inr h
    · rw [hwhole] at hsplit
      obtain ⟨rfl, rfl⟩ | ⟨u, rfl, hrest⟩ := List.append_eq_cons_iff.mp hsplit.symm
      · exact .inr hw.isInfix
      · cases u with
        | nil => exact .inl (by rwa [hrest])
        | cons c u =>
          obtain rfl : 'T' = c := (List.cons.inj hrest).1
          have hT : HeaderChar 'T' := p.core_chars 'T' (hu.subset (by simp))
          exact absurd hT (by decide)
  · rintro (⟨rest, rfl⟩ | h)
    · rw [p.core_concat, hwhole, List.append_assoc]
      exact ⟨_, rest, List.append_assoc _ _ rest⟩
    · exact h.trans (List.suffix_append _ _).isInfix

omit hx in
theorem start_prefix_rstrip : "TRANSACTION START*".toList <+: x.rdropWhile isSpace ↔
    "TRANSACTION START*".toList <+: x := by
  constructor
  · exact fun h => h.trans (List.rdropWhile_prefix _ _)
  · rintro ⟨rest, rfl⟩
    have hself : ("TRANSACTION START*".toList).rdropWhile isSpace = "TRANSACTION START*".toList := by decide
    rw [rdropWhile_append, hself]
    split_ifs
    · exact List.prefix_rfl
    · exact List.prefix_append _ _

omit hx in
theorem contains_start_beside : contains (besideText p x body) "*TRANSACTION START*".toList = true ↔
    "TRANSACTION START*".toList <+: x ∨
      contains (bodyText x body) "*TRANSACTION START*".toList = true := by
  obtain ⟨v, hv, hright⟩ := rstrip_split x
  have hskip : "*TRANSACTION START*".toList <:+: v ++ strip x ↔
      "*TRANSACTION START*".toList <:+: strip x := by
    refine infix_skip (by decide) fun c hc heq => ?_
    obtain rfl := Option.some.inj heq
    exact absurd (hv '*' hc) (by decide)
  rw [contains_iff, contains_iff, besideText, bodyText, List.map_cons, infix_join (by decide) (by decide),
    infix_join (by decide) (by decide), infix_join (by decide) (by decide), strip_line, start_split,
    start_prefix_rstrip, hright, hskip]
  tauto

omit hx in
theorem contains_start_below : contains (belowText p x body) "*TRANSACTION START*".toList =
    contains (bodyText x body) "*TRANSACTION START*".toList := by
  have hcore : ¬ "*TRANSACTION START*".toList <:+: strip (p.line []) := by
    obtain ⟨v, hv, hempty⟩ := strip_line_split p []
    rw [hempty]
    exact start_absent (by simpa [strip] using hv)
  rw [Bool.eq_iff_iff, contains_iff, contains_iff, belowText, infix_join (by decide) (by decide),
    infix_join (by decide) (by decide)]
  exact (or_iff_right (by decide)).trans (or_iff_right hcore)

end Text

end AtmMonitor.HeaderSearch
