import AtmMonitor.BlockTwins

namespace AtmMonitor.LetterCase

open Library.Regex PyText EventPatterns BlockTwins

def SameLetter (c d : Char) : Prop :=
  c = d ∨ c.isAlpha = true ∧ d.isAlpha = true ∧ c.toLower = d.toLower

instance (c d : Char) : Decidable (SameLetter c d) :=
  inferInstanceAs (Decidable (_ = _ ∨ _ ∧ _ ∧ _ = _))

abbrev SameText : Str → Str → Prop := List.Forall₂ SameLetter

theorem sameText_refl (s : Str) : SameText s s := List.forall₂_same.mpr fun _ _ => Or.inl rfl

theorem isAlpha_lt {c : Char} (h : c.isAlpha = true) : c.toNat < 128 := by
  have hranges : (decide (c.val ≥ 'A'.val ∧ c.val ≤ 'Z'.val) ||
      decide (c.val ≥ 'a'.val) && decide (c.val ≤ 'z'.val)) = true := h
  have hval : c.val.toNat = c.toNat := rfl
  simp only [Bool.or_eq_true, Bool.and_eq_true, decide_eq_true_eq, ge_iff_le,
    UInt32.le_iff_toNat_le, hval] at hranges
  obtain ⟨-, hupper⟩ | ⟨-, hlower⟩ := hranges
  · exact Nat.lt_of_le_of_lt hupper (by decide)
  · exact Nat.lt_of_le_of_lt hlower (by decide)

theorem letter_class {β : Type} {f : Char → β} (hf : ∀ n < 128, (Char.ofNat n).isAlpha = true →
    f (Char.ofNat n) = f (Char.ofNat n).toLower) {c d : Char} (h : SameLetter c d) : f c = f d := by
  have hlower : ∀ c : Char, c.isAlpha = true → f c = f c.toLower := by
    intro c hc
    have hn := hf c.toNat (isAlpha_lt hc)
    rw [Char.ofNat_toNat] at hn
    exact hn hc
  obtain rfl | ⟨hc, hd, heq⟩ := h
  · rfl
  · rw [hlower c hc, hlower d hd, heq]

theorem fold_letter {c d : Char} (h : SameLetter c d) : fold c = fold d :=
  letter_class (by decide) h

theorem isSpace_letter (c d : Char) (h : SameLetter c d) : isSpace c = isSpace d :=
  letter_class (by decide) h

theorem digit?_letter {c d : Char} (h : SameLetter c d) : digit? c = digit? d :=
  letter_class (by decide) h

theorem isDigit_letter (c d : Char) (h : SameLetter c d) : isDigit c = isDigit d := by
  rw [isDigit, isDigit, digit?_letter h]

theorem upperChar_letter {c d : Char} (h : SameLetter c d) : upperChar c = upperChar d :=
  letter_class (by decide) h

theorem isWord_letter [Alnum] (c d : Char) (h : SameLetter c d) : isWord c = isWord d := by
  obtain rfl | ⟨hc, hd, -⟩ := h
  · rfl
  · rw [isWord, isWord, if_pos (isAlpha_lt hc), if_pos (isAlpha_lt hd)]
    simp [Char.isAlphanum, hc, hd]

theorem chr_letter {x : Char} (hx : x.isAlpha = false) (c d : Char) (h : SameLetter c d) :
    (c == x) = (d == x) := by
  have hne : ∀ c : Char, c.isAlpha = true → (c == x) = false := by
    intro c hc
    rw [beq_eq_false_iff_ne]
    rintro rfl
    rw [hx] at hc
    cases hc
  obtain rfl | ⟨hc, hd, -⟩ := h
  · rfl
  · rw [hne c hc, hne d hd]

theorem respects_chr {x : Char} (hx : x.isAlpha = false) : Respects SameLetter (chr x) := chr_letter hx

theorem respects_phrase (w : String) : Respects SameLetter (phrase w) := by
  refine respects_seqs fun r hr => ?_
  obtain ⟨p, -, rfl⟩ := List.mem_map.mp hr
  intro c d h
  rw [sameFold, sameFold, fold_letter h]

theorem all_newline {o o' : Option Char} (h : Option.Rel SameLetter o o') :
    o.all isNewline = o'.all isNewline := by
  cases h with
  | none => rfl
  | some h => exact chr_letter (by decide) _ _ h

theorem respects_lineStart : Respects SameLetter (lineStart isNewline) := fun _ _ => all_newline

theorem respects_lineEnd : Respects SameLetter (lineEnd isNewline) := fun _ _ => all_newline

theorem respects_linePhrase (w : String) : Respects SameLetter (linePhrase w) :=
  ⟨respects_lineStart, respects_phrase w, respects_lineEnd⟩

theorem respects_spaces : Respects SameLetter (.many isSpace) := isSpace_letter

theorem respects_spaces1 : Respects SameLetter (many1 isSpace) := respects_many1 isSpace_letter

theorem respects_number : Respects SameLetter (many1 isDigit) := respects_many1 isDigit_letter

theorem respects_operational : ∀ o ∈ OPERATIONAL_PATTERNS, Respects SameLetter o.pattern := by
  have hcleared : Respects SameLetter (seqs [lineStart isNewline, phrase "CARDS CLEARED",
      .many isSpace, chr '≈', .many isSpace, many1 isDigit]) :=
    ⟨respects_lineStart, respects_phrase _, respects_spaces, respects_chr (by decide),
      respects_spaces, respects_number⟩
  have hpresented : Respects SameLetter (seqs [lineStart isNewline, phrase "NOTES PRESENTED",
      many1 isSpace, many1 (fun c => isDigit c || c == ',')]) := by
    refine ⟨respects_lineStart, respects_phrase _, respects_spaces1, respects_many1 fun c d h => ?_⟩
    rw [isDigit_letter c d h, chr_letter (by decide) c d h]
  simp only [OPERATIONAL_PATTERNS, List.forall_mem_cons, respects_linePhrase, hcleared, hpresented,
    List.not_mem_nil, false_imp_iff, implies_true, and_true]

theorem respects_ignore : ∀ r ∈ IGNORE_PATTERNS, Respects SameLetter r := by
  have hterminal : Respects SameLetter (seqs [lineStart isNewline, phrase "TERMINALID:",
      .many isSpace, lineEnd isNewline]) :=
    ⟨respects_lineStart, respects_phrase _, respects_spaces, respects_lineEnd⟩
  simp only [IGNORE_PATTERNS, List.forall_mem_cons, respects_phrase, hterminal, List.not_mem_nil,
    false_imp_iff, implies_true, and_true]

theorem respects_alts {rs : List Regex} (h : ∀ r ∈ rs, Respects SameLetter r) :
    Respects SameLetter (alts rs) := by
  induction rs with
  | nil => exact fun _ _ _ => rfl
  | cons r rest ih =>
    cases rest with
    | nil => exact h r (by simp)
    | cons s rest => exact ⟨h r (by simp), ih fun r hr => h r (List.mem_cons_of_mem _ hr)⟩

theorem respects_positions (ws : List String) : Respects SameLetter (alts (ws.map phrase)) := by
  refine respects_alts fun r hr => ?_
  obtain ⟨w, -, rfl⟩ := List.mem_map.mp hr
  exact respects_phrase w

theorem respects_action (word : String) : Respects SameLetter (cassetteAction word) :=
  ⟨respects_atStart,
    respects_positions ["TOP", "SECOND", "THIRD", "FOURTH", "FIFTH", "SIXTH", "FIRST"],
    respects_spaces1, respects_phrase _, respects_spaces1, respects_phrase _⟩

theorem respects_infoRow [Alnum] : Respects SameLetter CASSETTE_INFO_ROW :=
  ⟨respects_atStart, respects_positions ["TOP", "SECOND", "THIRD", "FOURTH", "FIFTH", "SIXTH"],
    respects_spaces1, respects_many1 isWord_letter, respects_spaces1, respects_number,
    respects_spaces1, respects_number, respects_spaces1, respects_many1 isWord_letter⟩

theorem respects_values (word : String) : Respects SameLetter (valuesAfter word) := by
  refine ⟨respects_phrase _, respects_spaces1, respects_many1 fun c d h => ?_⟩
  rw [isDigit_letter c d h, isSpace_letter c d h]

theorem respects_typeCount {digit : Char} (h : digit.isAlpha = false) (name : String) :
    Respects SameLetter (typeCount digit name) :=
  ⟨respects_phrase _, respects_spaces1, respects_chr h, respects_spaces, respects_chr (by decide),
    respects_spaces, respects_number⟩

theorem respects_rowType : Respects SameLetter CASH_ROW_TYPE_PATTERN :=
  ⟨respects_typeCount (by decide) _, respects_spaces1, respects_typeCount (by decide) _,
    respects_spaces1, respects_typeCount (by decide) _, respects_spaces1,
    respects_typeCount (by decide) _⟩

theorem keepsHeaders : KeepsHeaders SameLetter where
  refl := fun _ => Or.inl rfl
  space := isSpace_letter
  digit := isDigit_letter
  star := chr_letter (by decide)
  slash := chr_letter (by decide)
  colon := chr_letter (by decide)
  newline := chr_letter (by decide)
  carriageReturn := chr_letter (by decide)

section Texts

variable {s t : Str}

theorem strip_same (h : SameText s t) : SameText (strip s) (strip t) :=
  List.rel_reverse (dropWhile_beside isSpace_letter
    (List.rel_reverse (dropWhile_beside isSpace_letter h)))

theorem upper_same (h : SameText s t) : upper s = upper t := by
  induction h with
  | nil => rfl
  | @cons c d s t hcd _ ih =>
    rw [upper, upper, List.flatMap_cons, List.flatMap_cons, upperChar_letter hcd]
    exact congrArg _ ih

theorem int_same (h : SameText s t) : int s = int t := by
  have hfold : ∀ n : Nat, s.foldl (fun n c => 10 * n + (digit? c).getD 0) n =
      t.foldl (fun n c => 10 * n + (digit? c).getD 0) n := by
    induction h with
    | nil => exact fun _ => rfl
    | @cons c d s t hcd _ ih =>
      intro n
      rw [List.foldl_cons, List.foldl_cons, digit?_letter hcd, ih]
  exact hfold 0

theorem isEmpty_same (h : SameText s t) : s.isEmpty = t.isEmpty := by
  cases h <;> rfl

theorem split_same (h : SameText s t) : List.Forall₂ SameText (split s) (split t) := by
  have hgo : ∀ acc acc', SameText acc acc' →
      List.Forall₂ SameText (splitGo s acc) (splitGo t acc') := by
    induction h with
    | nil =>
      intro acc acc' hacc
      rw [splitGo, splitGo, isEmpty_same hacc]
      split_ifs
      · exact .nil
      · exact .cons (List.rel_reverse hacc) .nil
    | @cons c d s t hcd _ ih =>
      intro acc acc' hacc
      rw [splitGo, splitGo, isSpace_letter c d hcd, isEmpty_same hacc]
      split_ifs
      · exact ih [] [] .nil
      · exact .cons (List.rel_reverse hacc) (ih [] [] .nil)
      · exact ih _ _ (.cons hcd hacc)
  exact hgo [] [] .nil

theorem joinLines_same {ls ls' : List Str} (h : List.Forall₂ SameText ls ls') :
    SameText (joinLines ls) (joinLines ls') := by
  induction h with
  | nil => exact .nil
  | @cons s t ls ls' hst hrest ih =>
    cases hrest with
    | nil => simpa [joinLines] using hst
    | cons h1 h2 =>
      rw [joinLines, joinLines, List.intercalate_cons_cons, List.intercalate_cons_cons]
      exact List.rel_append (List.rel_append hst (sameText_refl _)) ih

end Texts

end AtmMonitor.LetterCase
