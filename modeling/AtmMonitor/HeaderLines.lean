import AtmMonitor.TrimmedLines
import AtmMonitor.LetterCase
import AtmMonitor.Library.LineSearch

namespace AtmMonitor.HeaderLines

open Library.Regex PyText EventPatterns EjParser TrimmedLines

structure HeaderParts where
  spaces : Str
  seq : Str
  date : Str
  time : Str
  of_spaces : ∀ c ∈ spaces, isSpace c = true
  seq_ne_nil : seq ≠ []
  of_seq : ∀ c ∈ seq, isDigit c = true
  of_date : ∀ c ∈ date, isDigit c = true ∨ c = '/'
  of_time : ∀ c ∈ time, isDigit c = true ∨ c = ':'

def HeaderParts.line (p : HeaderParts) (rest : Str) : Str :=
  p.spaces ++ '*' :: (p.seq ++ '*' :: (p.date ++ '*' :: (p.time ++ '*' :: rest)))

def HeaderParts.groups (p : HeaderParts) : List (String × Str) :=
  [("time", p.time), ("date", p.date), ("seq", p.seq)]

theorem within_digits {q : Char → Prop} (hq : ∀ c, isDigit c = true → q c) (n : Nat) :
    Within q (digits n) := by
  refine within_seqs fun r hr => ?_
  rw [(List.mem_replicate.mp hr).2]
  exact hq

theorem within_chr {q : Char → Prop} {x : Char} (hx : q x) : Within q (chr x) := by
  intro c hc
  rwa [beq_iff_eq.mp hc]

theorem mem_run_chr {x : Char} {c d : Cursor Char} :
    d ∈ run (chr x) c ↔ ∃ rest, c.right = x :: rest ∧ d = c.skip [x] rest := by
  rw [chr, mem_run_cls_iff]
  simp

theorem mem_run_within {q : Char → Prop} {r : Regex} (h : Within q r) {name : String} {c d : Cursor Char}
    (hd : d ∈ run (.group name r) c) : ∃ w rest, (∀ x ∈ w, q x) ∧ c.right = w ++ rest ∧
      d.right = rest ∧ d.groups = (name, w) :: c.groups := by
  obtain ⟨_, he, rfl⟩ := mem_run_group.mp hd
  obtain ⟨w, rest, hw, hright, rfl⟩ := run_within h he
  exact ⟨w, rest, hw, hright, rfl, by rw [captured_skip hright]; rfl⟩

theorem mem_headerStart {line : Str} {d : Cursor Char}
    (h : d ∈ run (seqs (headerStart ++ [chr '*'])) (start line)) :
    ∃ p : HeaderParts, line = p.line d.right ∧ d.groups = p.groups := by
  have hdate : Within (fun c => isDigit c = true ∨ c = '/')
      (seqs [digits 2, chr '/', digits 2, chr '/', digits 4]) :=
    ⟨within_digits (fun _ => .inl) 2, within_chr (.inr rfl), within_digits (fun _ => .inl) 2,
      within_chr (.inr rfl), within_digits (fun _ => .inl) 4⟩
  have htime : Within (fun c => isDigit c = true ∨ c = ':') (seqs [digits 2, chr ':', digits 2]) :=
    ⟨within_digits (fun _ => .inl) 2, within_chr (.inr rfl), within_digits (fun _ => .inl) 2⟩
  simp only [headerStart, List.cons_append, List.nil_append] at h
  obtain ⟨c₀, h₀, h⟩ := mem_run_seqs_cons.mp h
  obtain ⟨c₁, h₁, h⟩ := mem_run_seqs_cons.mp h
  obtain ⟨c₂, h₂, h⟩ := mem_run_seqs_cons.mp h
  obtain ⟨c₃, h₃, h⟩ := mem_run_seqs_cons.mp h
  obtain ⟨c₄, h₄, h⟩ := mem_run_seqs_cons.mp h
  obtain ⟨c₅, h₅, h⟩ := mem_run_seqs_cons.mp h
  obtain ⟨c₆, h₆, h⟩ := mem_run_seqs_cons.mp h
  obtain ⟨c₇, h₇, h⟩ := mem_run_seqs_cons.mp h
  obtain ⟨c₈, h₈, h⟩ := mem_run_seqs_cons.mp h
  obtain rfl := mem_run_seqs_nil.mp h
  obtain rfl : c₀ = start line := by simpa [atStart, run, start] using h₀
  obtain ⟨spaces, _, hspaces, hline, rfl⟩ := mem_run_many.mp h₁
  obtain ⟨_, hstar₁, rfl⟩ := mem_run_chr.mp h₂
  obtain ⟨_, hstar₂, rfl⟩ := mem_run_chr.mp h₄
  obtain ⟨_, hstar₃, rfl⟩ := mem_run_chr.mp h₆
  obtain ⟨_, hstar₄, rfl⟩ := mem_run_chr.mp h₈
  obtain ⟨_, hrun, rfl⟩ := mem_run_group.mp h₃
  obtain ⟨seq, _, hne, hseq, hright₃, rfl⟩ := mem_run_many1.mp hrun
  obtain ⟨date, _, hdate, hright₅, htail₅, hgroups₅⟩ := mem_run_within hdate h₅
  obtain ⟨time, _, htime, hright₇, htail₇, hgroups₇⟩ := mem_run_within htime h₇
  refine ⟨⟨spaces, seq, date, time, hspaces, hne, hseq, hdate, htime⟩, ?_, ?_⟩
  · simp only [start, Cursor.skip_right] at hline hstar₁ hright₃ hstar₂ hright₅ hright₇
    rw [HeaderParts.line, hline, hstar₁, hright₃, hstar₂, hright₅, ← htail₅, hstar₃, hright₇, ← htail₇,
      hstar₄]
    rfl
  · rw [Cursor.skip_groups, hgroups₇, Cursor.skip_groups, hgroups₅, Cursor.skip_groups,
      captured_skip hright₃]
    rfl

theorem HeaderParts.no_star (p : HeaderParts) :
    '*' ∉ p.spaces ∧ '*' ∉ p.seq ∧ '*' ∉ p.date ∧ '*' ∉ p.time := by
  have hspace : isSpace '*' = false := by decide
  have hdigit : isDigit '*' = false := by decide
  refine ⟨fun h => ?_, fun h => ?_, fun h => ?_, fun h => ?_⟩
  · simpa [hspace] using p.of_spaces _ h
  · simpa [hdigit] using p.of_seq _ h
  · simpa [hdigit] using p.of_date _ h
  · simpa [hdigit] using p.of_time _ h

theorem HeaderParts.line_inj {p p' : HeaderParts} {rest rest' : Str} (h : p.line rest = p'.line rest') :
    p = p' ∧ rest = rest' := by
  obtain ⟨hspaces, hseq, hdate, htime⟩ := p.no_star
  obtain ⟨hspaces', hseq', hdate', htime'⟩ := p'.no_star
  obtain ⟨h₁, h⟩ := append_mark_inj hspaces hspaces' h
  obtain ⟨h₂, h⟩ := append_mark_inj hseq hseq' h
  obtain ⟨h₃, h⟩ := append_mark_inj hdate hdate' h
  obtain ⟨h₄, hrest⟩ := append_mark_inj htime htime' h
  cases p
  cases p'
  simp only at h₁ h₂ h₃ h₄
  subst h₁ h₂ h₃ h₄
  exact ⟨rfl, hrest⟩

def HeaderParts.header (p : HeaderParts) (extra : Str) : Header := ⟨p.seq, p.date, p.time, extra⟩

theorem header?_of_run {line : Str} (hline : ∀ c ∈ line, isNewline c = false) {d : Cursor Char}
    {ds : List (Cursor Char)} (hrun : run (seqs (headerStart ++ [chr '*'])) (start line) = d :: ds) :
    ∃ p : HeaderParts, line = p.line d.right ∧ header? line = some (p.header d.right) := by
  obtain ⟨p, hp, hgroups⟩ := mem_headerStart (hrun ▸ List.mem_cons_self ..)
  refine ⟨p, hp, ?_⟩
  have hsuffix : d.right <:+ line := run_suffix (c := start line) (hrun ▸ List.mem_cons_self ..)
  rw [header?, matchStart, run_header, hrun, List.flatMap_cons, List.head?_append,
    run_headerExtra fun c hc => hline c (hsuffix.subset hc)]
  simp only [Option.some_or, Option.map_some, Cursor.group, hgroups]
  rfl

/-- A header line that ends in its last asterisk. -/
structure EndsInStar (header : Str) : Prop where
  empty : ∃ h, header? header = some h ∧ h.extra = []
  newline : '\n' ∉ header

theorem isNewline_of_not_mem {s : Str} (h : '\n' ∉ s) : ∀ c ∈ s, isNewline c = false := by
  intro c hc
  rw [isNewline, beq_eq_false_iff_ne]
  exact fun heq => h (heq ▸ hc)

theorem run_of_header {line : Str} {h : Header} (hh : header? line = some h) :
    ∃ d ds, run (seqs (headerStart ++ [chr '*'])) (start line) = d :: ds := by
  cases hrun : run (seqs (headerStart ++ [chr '*'])) (start line) with
  | nil =>
    rw [header?, matchStart, run_header, hrun] at hh
    cases hh
  | cons d ds => exact ⟨d, ds, rfl⟩

theorem EndsInStar.parts {header : Str} (h : EndsInStar header) : ∃ p : HeaderParts,
    (∀ extra, header ++ extra = p.line extra) ∧
      ∀ extra, '\n' ∉ extra → header? (header ++ extra) = some (p.header extra) := by
  obtain ⟨hd, hheader, hextra⟩ := h.empty
  have hnewline := isNewline_of_not_mem h.newline
  obtain ⟨d, ds, hrun⟩ := run_of_header hheader
  obtain ⟨p, hp, hparts⟩ := header?_of_run hnewline hrun
  have hright : d.right = [] := by
    rw [hparts, Option.some.injEq] at hheader
    rw [← hextra, ← hheader]
    rfl
  rw [hright] at hp
  have happend : ∀ extra, header ++ extra = p.line extra := by
    intro extra
    rw [hp]
    simp [HeaderParts.line]
  refine ⟨p, happend, fun extra hextra => ?_⟩
  have hlonger : d.extend extra ∈ run (seqs (headerStart ++ [chr '*'])) (start (header ++ extra)) := by
    have hmem : d.extend extra ∈ (run (seqs (headerStart ++ [chr '*'])) (start header)).map
        (Cursor.extend extra) := List.mem_map_of_mem (hrun ▸ List.mem_cons_self ..)
    rw [← run_extend headerStart_noAhead] at hmem
    exact List.mem_of_mem_filter hmem
  obtain ⟨e, es, hrun'⟩ := List.exists_cons_of_ne_nil (List.ne_nil_of_mem hlonger)
  have hnewline' : ∀ c ∈ header ++ extra, isNewline c = false := fun c hc =>
    (List.mem_append.mp hc).elim (hnewline c) (isNewline_of_not_mem hextra c)
  obtain ⟨p', hp', hparts'⟩ := header?_of_run hnewline' hrun'
  obtain ⟨rfl, hrest⟩ := HeaderParts.line_inj ((happend extra).symm.trans hp')
  rw [hparts', hrest]

def HeaderChar (c : Char) : Prop := isDigit c = true ∨ isSpace c = true ∨ c ∈ ['*', '/', ':']

theorem HeaderParts.chars (p : HeaderParts) : ∀ c ∈ p.line [], HeaderChar c := by
  intro c hc
  have hslash : HeaderChar '/' := .inr (.inr (by simp))
  have hcolon : HeaderChar ':' := .inr (.inr (by simp))
  have hstar : HeaderChar '*' := .inr (.inr (by simp))
  simp only [HeaderParts.line, List.mem_append, List.mem_cons, List.not_mem_nil, or_false] at hc
  obtain hc | rfl | hc | rfl | hc | rfl | hc | rfl := hc
  · exact .inr (.inl (p.of_spaces c hc))
  · exact hstar
  · exact .inl (p.of_seq c hc)
  · exact hstar
  · exact (p.of_date c hc).elim .inl fun h => h ▸ hslash
  · exact hstar
  · exact (p.of_time c hc).elim .inl fun h => h ▸ hcolon
  · exact hstar

def HeaderParts.core (p : HeaderParts) : Str :=
  '*' :: (p.seq ++ '*' :: (p.date ++ '*' :: (p.time ++ ['*'])))

theorem HeaderParts.line_eq (p : HeaderParts) (rest : Str) : p.line rest = p.spaces ++ (p.core ++ rest) := by
  simp [HeaderParts.line, HeaderParts.core]

theorem HeaderParts.core_chars (p : HeaderParts) : ∀ c ∈ p.core, HeaderChar c := by
  intro c hc
  apply p.chars
  rw [p.line_eq, List.append_nil]
  exact List.mem_append_right _ hc

theorem HeaderParts.line_append (p : HeaderParts) (extra : Str) : p.line [] ++ extra = p.line extra := by
  simp [HeaderParts.line]

theorem HeaderParts.core_cons (p : HeaderParts) : ∃ d t, isDigit d = true ∧ p.core = '*' :: d :: t := by
  obtain ⟨d, t, hseq⟩ := List.exists_cons_of_ne_nil p.seq_ne_nil
  have hd : isDigit d = true := p.of_seq d (hseq ▸ List.mem_cons_self ..)
  exact ⟨d, t ++ '*' :: (p.date ++ '*' :: (p.time ++ ['*'])), hd, by rw [HeaderParts.core, hseq]; rfl⟩

theorem HeaderParts.core_concat (p : HeaderParts) :
    p.core = ('*' :: (p.seq ++ '*' :: (p.date ++ '*' :: p.time))) ++ ['*'] := by
  simp [HeaderParts.core]

theorem rdropWhile_append (f : Char → Bool) (u s : Str) : (u ++ s).rdropWhile f =
    if (s.rdropWhile f).isEmpty then u.rdropWhile f else u ++ s.rdropWhile f := by
  simp only [List.rdropWhile, List.reverse_append, List.dropWhile_append, List.isEmpty_reverse]
  split_ifs <;> simp

theorem rstrip_split (s : Str) : ∃ v, (∀ c ∈ v, isSpace c = true) ∧ s.rdropWhile isSpace = v ++ strip s := by
  have hsplit := List.takeWhile_append_dropWhile (p := isSpace) (l := s)
  have hlead : ∀ c ∈ s.takeWhile isSpace, isSpace c = true := fun c => List.mem_takeWhile_imp
  have hright : s.rdropWhile isSpace =
      if (strip s).isEmpty then (s.takeWhile isSpace).rdropWhile isSpace
      else s.takeWhile isSpace ++ strip s := by
    conv_lhs => rw [← hsplit, rdropWhile_append]
    rfl
  split_ifs at hright with hempty
  · refine ⟨[], by simp, ?_⟩
    rw [hright, List.isEmpty_iff.mp hempty, List.rdropWhile_eq_nil_iff.mpr hlead]
    rfl
  · exact ⟨_, hlead, hright⟩

theorem strip_line (p : HeaderParts) (extra : Str) :
    strip (p.line extra) = p.core ++ extra.rdropWhile isSpace := by
  have hdrop : (p.line extra).dropWhile isSpace = p.core ++ extra := by
    rw [p.line_eq, List.dropWhile_append_of_pos p.of_spaces]
    exact List.dropWhile_cons_of_neg (by decide)
  have hcore : p.core.rdropWhile isSpace = p.core := by
    rw [p.core_concat]
    exact List.rdropWhile_concat_neg _ _ _ (by decide)
  rw [strip, hdrop, rdropWhile_append]
  split_ifs with hempty
  · rw [hcore, List.isEmpty_iff.mp hempty, List.append_nil]
  · rfl

theorem strip_line_split (p : HeaderParts) (extra : Str) :
    ∃ v, (∀ c ∈ v, HeaderChar c) ∧ strip (p.line extra) = v ++ strip extra := by
  obtain ⟨v, hv, hright⟩ := rstrip_split extra
  refine ⟨p.core ++ v, fun c hc => ?_, by rw [strip_line, hright, List.append_assoc]⟩
  exact (List.mem_append.mp hc).elim (p.core_chars c) fun h => .inr (.inl (hv c h))

instance : DecidablePred HeaderChar := fun _ => inferInstanceAs (Decidable (_ ∨ _ ∨ _))

theorem headerChar_ascii : ∀ n < 128, HeaderChar (Char.ofNat n) →
    (Char.ofNat n).toLower = Char.ofNat n ∧ (Char.ofNat n).toUpper = Char.ofNat n ∧
      (Char.ofNat n).isAlpha = false := by decide

/-- The characters outside ASCII that `fold` or `upperChar` maps. -/
def mapped : List Nat :=
  [0xDF, 0x130, 0x131, 0x149, 0x17F, 0x1F0, 0x1E96, 0x1E97, 0x1E98, 0x1E99, 0x1E9A, 0x212A, 0xFB00,
   0xFB01, 0xFB02, 0xFB03, 0xFB04, 0xFB05, 0xFB06]

theorem headerChar_mapped {c : Char} (h : HeaderChar c) : ∀ n ∈ mapped, c.toNat ≠ n := by
  have hmapped : ∀ n ∈ mapped, ¬ HeaderChar (Char.ofNat n) := by decide
  rintro n hn rfl
  apply hmapped c.toNat hn
  rwa [Char.ofNat_toNat]

theorem headerChar_fold {c : Char} (h : HeaderChar c) : fold c = c := by
  have hof : Char.ofNat c.toNat = c := Char.ofNat_toNat c
  by_cases hascii : c.toNat < 128
  · have hlower := headerChar_ascii c.toNat hascii
    rw [hof] at hlower
    rw [fold, if_pos hascii, (hlower h).1]
  · have hne := headerChar_mapped h
    simp only [mapped, List.forall_mem_cons] at hne
    simp [fold, hascii, hne]

theorem headerChar_upper {c : Char} (h : HeaderChar c) : upperChar c = [c] := by
  have hof : Char.ofNat c.toNat = c := Char.ofNat_toNat c
  by_cases hascii : c.toNat < 128
  · have hupper := headerChar_ascii c.toNat hascii
    rw [hof] at hupper
    rw [upperChar, if_pos hascii, (hupper h).2.1]
  · have hne := headerChar_mapped h
    simp only [mapped, List.forall_mem_cons] at hne
    simp [upperChar, hascii, hne]

theorem headerChar_alpha {c : Char} (h : HeaderChar c) : c.isAlpha = false := by
  by_contra hc
  rw [Bool.not_eq_false] at hc
  have hascii := headerChar_ascii c.toNat (LetterCase.isAlpha_lt hc)
  rw [Char.ofNat_toNat] at hascii
  rw [(hascii h).2.2] at hc
  cases hc

theorem sameFold_headerChar {x c : Char} (hx : x.isAlpha = true) (hc : HeaderChar c) :
    sameFold x c = false := by
  have hletter : ∀ n < 128, (Char.ofNat n).isAlpha = true → (fold (Char.ofNat n)).isAlpha = true := by
    decide
  have hfold := hletter x.toNat (LetterCase.isAlpha_lt hx)
  rw [Char.ofNat_toNat] at hfold
  rw [sameFold, headerChar_fold hc, beq_eq_false_iff_ne]
  intro heq
  have halpha := hfold hx
  rw [heq, headerChar_alpha hc] at halpha
  cases halpha

theorem upper_headerChars {v : Str} (h : ∀ c ∈ v, HeaderChar c) : upper v = v := by
  induction v with
  | nil => rfl
  | cons c v ih =>
    rw [upper, List.flatMap_cons, headerChar_upper (h c (by simp))]
    exact congrArg (c :: ·) (ih fun d hd => h d (List.mem_cons_of_mem c hd))

def Lettered (w : Str) : Prop := ∃ x ∈ w.head?, x.isAlpha = true

instance : DecidablePred Lettered := fun w =>
  decidable_of_iff ((w.head?.any Char.isAlpha) = true) (Option.any_eq_true ..)

theorem Lettered.cons {w : Str} (h : Lettered w) : ∃ x t, w = x :: t ∧ x.isAlpha = true := by
  obtain ⟨x, hx, halpha⟩ := h
  cases w with
  | nil => cases hx
  | cons y t =>
    obtain rfl := Option.some.inj hx
    exact ⟨y, t, rfl, halpha⟩

theorem Lettered.head {w : Str} (h : Lettered w) {c : Char} (hc : HeaderChar c) : w.head? ≠ some c := by
  obtain ⟨x, t, rfl, hx⟩ := h.cons
  intro heq
  rw [Option.some.inj heq, headerChar_alpha hc] at hx
  cases hx

theorem contains_headed {v : Str} (hv : ∀ c ∈ v, HeaderChar c) (s : Str) {w : Str} (hw : Lettered w) :
    contains (v ++ s) w = contains s w := by
  obtain ⟨x, t, rfl, -⟩ := hw.cons
  rw [Bool.eq_iff_iff, contains_iff, contains_iff]
  exact infix_skip (List.cons_ne_nil x t) fun c hc => hw.head (hv c hc)

theorem rejects_lettered {w : String} (hw : Lettered w.toList) (rs : List Regex) {c : Char}
    (hc : HeaderChar c) : Rejects (some c) (seqs (phrase w :: rs)) := by
  obtain ⟨x, t, hwt, hx⟩ := hw.cons
  apply rejects_seqs_cons
  rw [phrase, lit, hwt, List.map_cons]
  apply rejects_seqs_cons
  simp [Rejects, sameFold_headerChar hx hc]

end AtmMonitor.HeaderLines
