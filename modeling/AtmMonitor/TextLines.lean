import AtmMonitor.AppendedLines
import AtmMonitor.EventPatterns

namespace AtmMonitor.TextLines

open Library.Lines PyText EventPatterns FileUtils

def encode (text : Str) : Bytes := text.flatMap String.utf8EncodeChar

/-- The text with newlines for all line ends of text mode. -/
def universal : Str → Str
  | [] => []
  | c :: cs =>
    if c = '\r' then (if cs.head? = some '\n' then universal cs else '\n' :: universal cs)
    else c :: universal cs

def textLines (text : Str) : List Str := lines isNewline (universal text)

/-- The lines that begin before the cap, when `n` bytes have been counted. -/
def capped (maxBytes : Nat) : Nat → List Str → List Str
  | _, [] => []
  | n, l :: ls => if n < maxBytes then l :: capped maxBytes (n + encodedLength l) ls else []

def holding (text : Str) : ReadAttempt := ⟨some (encode text).length, some (encode text), []⟩

def journalLines (maxBytes : Nat) (text : Str) : List Str :=
  (readAppendedLines maxBytes true [holding text] 0).1

theorem toNat_tail (n : Nat) : (UInt8.ofNat (n % 64 + 128)).toNat = n % 64 + 128 := by
  rw [UInt8.toNat_ofNat']
  omega

theorem isTail_tail (n : Nat) : isTail (UInt8.ofNat (n % 64 + 128)) = true := by
  simp only [isTail, toNat_tail, Bool.and_eq_true, decide_eq_true_eq]
  omega

theorem tailBits_tail (n : Nat) : tailBits (UInt8.ofNat (n % 64 + 128)) = n % 64 := by
  have hnat := toNat_tail n
  unfold tailBits
  omega

theorem charAt_encode (c : Char) (rest : Bytes) :
    charAt (String.utf8EncodeChar c ++ rest) = some (c, (String.utf8EncodeChar c).length) := by
  have hvalid : c.toNat < 0xD800 ∨ 0xDFFF < c.toNat ∧ c.toNat < 0x110000 := c.valid
  have hof : Char.ofNat c.toNat = c := Char.ofNat_toNat c
  have hval : c.val.toNat = c.toNat := rfl
  rw [String.utf8EncodeChar, hval]
  generalize c.toNat = v at hvalid hof
  split_ifs with h1 h2 h3
  · have hn : v % 2 ^ 8 = v := by omega
    simp only [List.singleton_append, charAt, UInt8.toNat_ofNat', List.length_singleton, hn]
    rw [if_pos (by omega), hof]
  · have hn : (v / 64 % 0x20 + 0xc0) % 2 ^ 8 = v / 64 + 0xC0 := by omega
    have hbits : (v / 64 + 0xC0 - 0xC0) * 64 + v % 64 = v := by omega
    simp only [List.cons_append, List.nil_append, charAt, UInt8.toNat_ofNat', hn, isTail_tail,
      tailBits_tail, hbits]
    rw [if_neg (by omega), if_pos (by simp; omega), if_pos trivial, hof]
    rfl
  · have hn : (v / 4096 % 0x10 + 0xe0) % 2 ^ 8 = v / 4096 + 0xE0 := by omega
    have hbits : ((v / 4096 + 0xE0 - 0xE0) * 64 + v / 64 % 64) * 64 + v % 64 = v := by omega
    simp only [List.cons_append, List.nil_append, charAt, UInt8.toNat_ofNat', hn, isTail_tail,
      tailBits_tail, hbits]
    rw [if_neg (by omega), if_neg (by simp), if_pos (by simp; omega), if_pos (by simp; omega), hof]
    rfl
  · have hn : (v / 262144 % 0x08 + 0xf0) % 2 ^ 8 = v / 262144 + 0xF0 := by omega
    have hbits : (((v / 262144 + 0xF0 - 0xF0) * 64 + v / 4096 % 64) * 64 + v / 64 % 64) * 64 +
        v % 64 = v := by omega
    simp only [List.cons_append, List.nil_append, charAt, UInt8.toNat_ofNat', hn, isTail_tail,
      tailBits_tail, hbits]
    rw [if_neg (by omega), if_neg (by simp), if_neg (by simp), if_pos (by simp; omega),
      if_pos (by simp; omega), hof]
    rfl

theorem not_lineEnd_encode {c : Char} (hn : c ≠ '\n') (hr : c ≠ '\r') :
    ∀ b ∈ String.utf8EncodeChar c, isLineEnd b = false := by
  have hchar : ∀ n, Char.ofNat n ≠ c → c.toNat ≠ n := by
    rintro n hne rfl
    exact hne (Char.ofNat_toNat c)
  have hten := hchar 10 (Ne.symm hn)
  have hthirteen := hchar 13 (Ne.symm hr)
  have hbyte : ∀ n, n % 256 ≠ 10 → n % 256 ≠ 13 → isLineEnd (UInt8.ofNat n) = false := by
    intro n h10 h13
    rw [isLineEnd, Bool.or_eq_false_iff, beq_eq_false_iff_ne, beq_eq_false_iff_ne, ne_eq, ne_eq,
      ← UInt8.toNat_inj, ← UInt8.toNat_inj, UInt8.toNat_ofNat']
    exact ⟨h10, h13⟩
  have hval : c.val.toNat = c.toNat := rfl
  rw [String.utf8EncodeChar, hval]
  split_ifs
  · simp only [List.forall_mem_cons, List.not_mem_nil, false_imp_iff, implies_true, and_true]
    exact hbyte _ (by omega) (by omega)
  · simp only [List.forall_mem_cons, List.not_mem_nil, false_imp_iff, implies_true, and_true]
    exact ⟨hbyte _ (by omega) (by omega), hbyte _ (by omega) (by omega)⟩
  · simp only [List.forall_mem_cons, List.not_mem_nil, false_imp_iff, implies_true, and_true]
    exact ⟨hbyte _ (by omega) (by omega), hbyte _ (by omega) (by omega),
      hbyte _ (by omega) (by omega)⟩
  · simp only [List.forall_mem_cons, List.not_mem_nil, false_imp_iff, implies_true, and_true]
    exact ⟨hbyte _ (by omega) (by omega), hbyte _ (by omega) (by omega),
      hbyte _ (by omega) (by omega), hbyte _ (by omega) (by omega)⟩

theorem encode_cons (c : Char) (text : Str) :
    encode (c :: text) = String.utf8EncodeChar c ++ encode text := List.flatMap_cons

theorem encode_append (s t : Str) : encode (s ++ t) = encode s ++ encode t := List.flatMap_append

theorem encode_eq_nil {text : Str} : encode text = [] ↔ text = [] := by
  cases text with
  | nil => simp [encode]
  | cons c cs => simp [encode_cons, String.utf8EncodeChar_ne_nil]

theorem decodeFrom_skip (skipped rest : Bytes) :
    decodeFrom skipped.length (skipped ++ rest) = decodeFrom 0 rest := by
  induction skipped with
  | nil => rfl
  | cons b skipped ih => exact ih

theorem decode_cons (c : Char) (rest : Bytes) :
    decode (String.utf8EncodeChar c ++ rest) = c :: decode rest := by
  obtain ⟨b, bs, hb⟩ := List.exists_cons_of_ne_nil (String.utf8EncodeChar_ne_nil (c := c))
  have hchar := charAt_encode c rest
  rw [hb, List.cons_append] at hchar ⊢
  rw [decode, decodeFrom, hchar]
  exact congrArg (c :: ·) (decodeFrom_skip bs rest)

theorem decode_encode (text : Str) : decode (encode text) = text := by
  induction text with
  | nil => rfl
  | cons c cs ih => rw [encode_cons, decode_cons, ih]

theorem takeLine_append {bs : Bytes} (h : ∀ b ∈ bs, isLineEnd b = false) (rest : Bytes) :
    takeLine (bs ++ rest) = bs ++ takeLine rest := by
  induction bs with
  | nil => rfl
  | cons b bs ih =>
    have hb := h b (by simp)
    rw [isLineEnd, Bool.or_eq_false_iff, beq_eq_false_iff_ne, beq_eq_false_iff_ne] at hb
    rw [List.cons_append, takeLine, if_neg hb.1, if_neg hb.2,
      ih fun c hc => h c (List.mem_cons_of_mem b hc), List.cons_append]

theorem textLine_cons {c : Char} (h : ∀ b ∈ String.utf8EncodeChar c, isLineEnd b = false)
    (raw : Bytes) : textLine (String.utf8EncodeChar c ++ raw) = c :: textLine raw := by
  have hany : (String.utf8EncodeChar c).any isLineEnd = false := List.any_eq_false.mpr (by simpa using h)
  have hall : ∀ b ∈ String.utf8EncodeChar c, (!isLineEnd b) = true := by simpa using h
  rw [textLine, textLine, List.any_append, hany, Bool.false_or,
    List.takeWhile_append_of_pos hall, decode_cons, decode_cons]
  split_ifs <;> rfl

theorem head?_encode {text : Str} : (encode text).head? = some 10 ↔ text.head? = some '\n' := by
  cases text with
  | nil => simp [encode]
  | cons c cs =>
    rw [encode_cons, List.head?_append_of_ne_nil _ String.utf8EncodeChar_ne_nil, List.head?_cons,
      Option.some_inj]
    by_cases hn : c = '\n'
    · subst hn
      simp [String.utf8EncodeChar]
    by_cases hr : c = '\r'
    · subst hr
      decide
    · have hopen := not_lineEnd_encode hn hr
      simp only [hn, iff_false]
      intro hhead
      have hten := hopen 10 (List.mem_of_mem_head? hhead)
      cases hten

theorem takeLine_encode {text : Str} (h : text ≠ []) : ∃ raw rest, text = raw ++ rest ∧ raw ≠ [] ∧
    takeLine (encode text) = encode raw ∧
    textLines text = textLine (encode raw) :: textLines rest := by
  induction text with
  | nil => exact absurd rfl h
  | cons c cs ih =>
    by_cases hn : c = '\n'
    · subst hn
      exact ⟨['\n'], cs, rfl, by simp, rfl, lines_end rfl (universal cs)⟩
    by_cases hr : c = '\r'
    · subst hr
      by_cases hhead : cs.head? = some '\n'
      · obtain ⟨ds, rfl⟩ := List.head?_eq_some_iff.mp hhead
        exact ⟨['\r', '\n'], ds, rfl, by simp, rfl, lines_end rfl (universal ds)⟩
      · refine ⟨['\r'], cs, rfl, by simp, ?_, ?_⟩
        · have hcr : encode ('\r' :: cs) = 13 :: encode cs := rfl
          rw [hcr, takeLine, if_neg (by decide), if_pos rfl, if_neg (mt head?_encode.mp hhead)]
          rfl
        · rw [textLines, universal, if_pos rfl, if_neg hhead]
          exact lines_end rfl (universal cs)
    have hopen := not_lineEnd_encode hn hr
    have hend : isNewline c = false := by simpa [isNewline] using hn
    have huniversal : universal (c :: cs) = c :: universal cs := by rw [universal, if_neg hr]
    by_cases hnil : cs = []
    · subst hnil
      refine ⟨[c], [], rfl, by simp, ?_, ?_⟩
      · rw [encode_cons, takeLine_append hopen]
        rfl
      · rw [textLines, huniversal, encode_cons, textLine_cons hopen]
        exact lines_last hend
    · obtain ⟨raw, rest, rfl, -, htake, hlines⟩ := ih hnil
      refine ⟨c :: raw, rest, rfl, by simp, ?_, ?_⟩
      · rw [encode_cons, takeLine_append hopen, htake, encode_cons]
      · rw [textLines, huniversal, lines_cons hend hlines, encode_cons, textLine_cons hopen]

theorem textLine_encode_ne_nil {raw : Str} (h : raw ≠ []) : textLine (encode raw) ≠ [] := by
  rw [textLine]
  split_ifs
  · simp
  · rwa [decode_encode]

theorem readLoop_text (maxBytes n : Nat) {fuel : Nat} {text : Str}
    (hfuel : (encode text).length ≤ fuel) :
    (readLoop maxBytes fuel n (encode text) []).1 = capped maxBytes n (textLines text) := by
  induction fuel generalizing n text with
  | zero =>
    obtain rfl : text = [] := encode_eq_nil.mp (List.length_eq_zero_iff.mp (by omega))
    rfl
  | succ fuel ih =>
    by_cases hnil : text = []
    · subst hnil
      rw [readLoop]
      split_ifs <;> rfl
    obtain ⟨raw, rest, rfl, hraw, htake, hlines⟩ := takeLine_encode hnil
    rw [readLoop, hlines, capped]
    split_ifs
    · have hline : (textLine (encode raw)).isEmpty = false := by
        simpa using textLine_encode_ne_nil hraw
      have hdrop : (encode (raw ++ rest)).drop (encode raw).length = encode rest := by
        rw [encode_append, List.drop_left]
      have hpos : 0 < (encode raw).length := List.length_pos_iff.mpr (mt encode_eq_nil.mp hraw)
      rw [encode_append, List.length_append] at hfuel
      simp only [htake, hdrop, hline, Bool.false_eq_true, if_false, List.headD_nil,
        AppendedLines.rest_of_appended, List.tail_nil, ite_self]
      rw [ih _ (by omega)]
    · rfl

theorem journalLines_eq (maxBytes : Nat) (text : Str) :
    journalLines maxBytes text = capped maxBytes 0 (textLines text) := by
  have hread := readLoop_text maxBytes 0 (Nat.le_refl (encode text).length)
  simpa [journalLines, holding, readAppendedLines, readAttempts, readFrom] using hread

theorem capped_prefix (maxBytes n : Nat) (ls : List Str) : capped maxBytes n ls <+: ls := by
  induction ls generalizing n with
  | nil => exact List.nil_prefix
  | cons l ls ih =>
    rw [capped]
    split_ifs
    · exact (List.prefix_cons_inj l).mpr (ih _)
    · exact List.nil_prefix

/-- All lines are read if and only if the last one begins before the cap. -/
theorem capped_eq_self {maxBytes n : Nat} {ls : List Str} :
    capped maxBytes n ls = ls ↔ ls = [] ∨ n + encodedLength ls.dropLast.flatten < maxBytes := by
  induction ls generalizing n with
  | nil => simp [capped]
  | cons l ls ih =>
    rw [capped]
    by_cases hnil : ls = []
    · subst hnil
      by_cases hcap : n < maxBytes <;> simp [hcap, capped, encodedLength]
    · rw [List.dropLast_cons_of_ne_nil hnil, List.flatten_cons, encodedLength_append, ← Nat.add_assoc]
      by_cases hcap : n < maxBytes
      · rw [if_pos hcap, List.cons_inj_right, ih]
        simp [hnil]
      · have hfull : ¬ n + encodedLength l + encodedLength ls.dropLast.flatten < maxBytes := by omega
        simp [hcap, hfull]

end AtmMonitor.TextLines
