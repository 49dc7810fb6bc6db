import AtmMonitor.FileUtils

namespace AtmMonitor.EncodedLines

open PyText FileUtils

def encode (s : Str) : Bytes := s.flatMap String.utf8EncodeChar

theorem encode_append (s t : Str) : encode (s ++ t) = encode s ++ encode t := List.flatMap_append

theorem length_encode (s : Str) : (encode s).length = encodedLength s := by
  rw [encode, encodedLength, List.length_flatMap]
  simp only [String.length_utf8EncodeChar]

theorem toNat_ofNat {n : Nat} (h : n < 256) : (UInt8.ofNat n).toNat = n := by
  rw [UInt8.toNat_ofNat']
  exact Nat.mod_eq_of_lt h

theorem isTail_ofNat {n : Nat} (h : n < 64) : isTail (UInt8.ofNat (n + 0x80)) = true := by
  rw [isTail, toNat_ofNat (by omega), Bool.and_eq_true, decide_eq_true_eq, decide_eq_true_eq]
  omega

theorem tailBits_ofNat {n : Nat} (h : n < 64) : tailBits (UInt8.ofNat (n + 0x80)) = n := by
  have hbyte : (UInt8.ofNat (n + 0x80)).toNat = n + 0x80 := toNat_ofNat (by omega)
  unfold tailBits
  omega

theorem charAt_one {n : Nat} (h : n < 0x80) (rest : Bytes) :
    charAt (UInt8.ofNat n :: rest) = some (Char.ofNat n, 1) := by
  simp only [charAt, toNat_ofNat (show n < 256 by omega)]
  rw [if_pos h]

theorem charAt_two {n n1 : Nat} (h : 2 ≤ n) (h' : n < 0x20) (h1 : n1 < 64) (rest : Bytes) :
    charAt (UInt8.ofNat (n + 0xC0) :: UInt8.ofNat (n1 + 0x80) :: rest) = some (Char.ofNat (n * 64 + n1), 2) := by
  have hone : ¬ n + 0xC0 < 0x80 := by omega
  have htwo : (decide (0xC2 ≤ n + 0xC0) && decide (n + 0xC0 < 0xE0)) = true := by
    rw [Bool.and_eq_true, decide_eq_true_eq, decide_eq_true_eq]
    omega
  simp only [charAt, toNat_ofNat (show n + 0xC0 < 256 by omega), isTail_ofNat h1, tailBits_ofNat h1]
  rw [if_neg hone, if_pos htwo, if_pos trivial, Nat.add_sub_cancel]

theorem charAt_three {n n1 n2 : Nat} (h : n < 0x10) (h1 : n1 < 64) (h2 : n2 < 64)
    (hlow : 0x800 ≤ (n * 64 + n1) * 64 + n2)
    (hvalid : (n * 64 + n1) * 64 + n2 < 0xD800 ∨ 0xE000 ≤ (n * 64 + n1) * 64 + n2) (rest : Bytes) :
    charAt (UInt8.ofNat (n + 0xE0) :: UInt8.ofNat (n1 + 0x80) :: UInt8.ofNat (n2 + 0x80) :: rest) =
      some (Char.ofNat ((n * 64 + n1) * 64 + n2), 3) := by
  have hone : ¬ n + 0xE0 < 0x80 := by omega
  have htwo : ¬ (decide (0xC2 ≤ n + 0xE0) && decide (n + 0xE0 < 0xE0)) = true := by
    rw [Bool.and_eq_true, decide_eq_true_eq, decide_eq_true_eq]
    omega
  have hthree : (decide (0xE0 ≤ n + 0xE0) && decide (n + 0xE0 < 0xF0)) = true := by
    rw [Bool.and_eq_true, decide_eq_true_eq, decide_eq_true_eq]
    omega
  simp only [charAt, toNat_ofNat (show n + 0xE0 < 256 by omega), isTail_ofNat h1, tailBits_ofNat h1,
    isTail_ofNat h2, tailBits_ofNat h2]
  rw [if_neg hone, if_neg htwo, if_pos hthree, Nat.add_sub_cancel, if_pos]
  simp only [Bool.and_self, Bool.true_and, Bool.and_eq_true, Bool.not_eq_true', Bool.and_eq_false_iff,
    decide_eq_true_eq, decide_eq_false_iff_not]
  omega

theorem charAt_four {n n1 n2 n3 : Nat} (h : n < 5) (h1 : n1 < 64) (h2 : n2 < 64) (h3 : n3 < 64)
    (hlow : 0x10000 ≤ ((n * 64 + n1) * 64 + n2) * 64 + n3)
    (hhigh : ((n * 64 + n1) * 64 + n2) * 64 + n3 < 0x110000) (rest : Bytes) :
    charAt (UInt8.ofNat (n + 0xF0) :: UInt8.ofNat (n1 + 0x80) :: UInt8.ofNat (n2 + 0x80) ::
        UInt8.ofNat (n3 + 0x80) :: rest) =
      some (Char.ofNat (((n * 64 + n1) * 64 + n2) * 64 + n3), 4) := by
  have hone : ¬ n + 0xF0 < 0x80 := by omega
  have htwo : ¬ (decide (0xC2 ≤ n + 0xF0) && decide (n + 0xF0 < 0xE0)) = true := by
    rw [Bool.and_eq_true, decide_eq_true_eq, decide_eq_true_eq]
    omega
  have hthree : ¬ (decide (0xE0 ≤ n + 0xF0) && decide (n + 0xF0 < 0xF0)) = true := by
    rw [Bool.and_eq_true, decide_eq_true_eq, decide_eq_true_eq]
    omega
  have hfour : (decide (0xF0 ≤ n + 0xF0) && decide (n + 0xF0 < 0xF5)) = true := by
    rw [Bool.and_eq_true, decide_eq_true_eq, decide_eq_true_eq]
    omega
  simp only [charAt, toNat_ofNat (show n + 0xF0 < 256 by omega), isTail_ofNat h1, tailBits_ofNat h1,
    isTail_ofNat h2, tailBits_ofNat h2, isTail_ofNat h3, tailBits_ofNat h3]
  rw [if_neg hone, if_neg htwo, if_neg hthree, if_pos hfour, Nat.add_sub_cancel, if_pos]
  simp only [Bool.and_self, Bool.true_and, Bool.and_eq_true, decide_eq_true_eq]
  omega

theorem charAt_encode (c : Char) (rest : Bytes) :
    charAt (String.utf8EncodeChar c ++ rest) = some (c, (String.utf8EncodeChar c).length) := by
  have hvalid : c.val.toNat < 0xD800 ∨ 0xDFFF < c.val.toNat ∧ c.val.toNat < 0x110000 := c.valid
  have hchar : ∀ n, n = c.val.toNat → Char.ofNat n = c := by
    rintro n rfl
    exact Char.ofNat_toNat c
  simp only [String.utf8EncodeChar]
  split_ifs with h1 h2 h3
  · exact (charAt_one (by omega) rest).trans (by rw [hchar _ rfl]; rfl)
  · refine (charAt_two (by omega) (by omega) (by omega) rest).trans ?_
    rw [hchar _ (by omega)]
    rfl
  · refine (charAt_three (by omega) (by omega) (by omega) (by omega) (by omega) rest).trans ?_
    rw [hchar _ (by omega)]
    rfl
  · refine (charAt_four (by omega) (by omega) (by omega) (by omega) (by omega) (by omega) rest).trans ?_
    rw [hchar _ (by omega)]
    rfl

theorem decodeFrom_skip (skipped rest : Bytes) : decodeFrom skipped.length (skipped ++ rest) = decodeFrom 0 rest := by
  induction skipped with
  | nil => rfl
  | cons b skipped ih => exact ih

theorem decode_encode (s : Str) : decode (encode s) = s := by
  induction s with
  | nil => rfl
  | cons c s ih =>
    obtain ⟨b, tail, hc⟩ := List.exists_cons_of_ne_nil (String.utf8EncodeChar_ne_nil (c := c))
    have hchar := charAt_encode c (encode s)
    rw [hc] at hchar
    have hcons : encode (c :: s) = b :: (tail ++ encode s) := by
      rw [encode, List.flatMap_cons, hc]
      rfl
    rw [hcons, decode, decodeFrom]
    rw [List.cons_append] at hchar
    rw [hchar]
    exact congrArg (List.cons c) ((decodeFrom_skip tail (encode s)).trans ih)

def Bare (s : Str) : Prop := ∀ c ∈ s, c ≠ '\n' ∧ c ≠ '\r'

theorem isLineEnd_ofNat {n : Nat} (h : n < 256) (hn : n ≠ 10) (hr : n ≠ 13) : isLineEnd (UInt8.ofNat n) = false := by
  have hne : ∀ m : Nat, m < 256 → n ≠ m → UInt8.ofNat n ≠ UInt8.ofNat m := by
    intro m hm hnm heq
    have hnat := congrArg UInt8.toNat heq
    rw [toNat_ofNat h, toNat_ofNat hm] at hnat
    exact hnm hnat
  rw [isLineEnd, Bool.or_eq_false_iff, beq_eq_false_iff_ne, beq_eq_false_iff_ne]
  exact ⟨hne 10 (by omega) hn, hne 13 (by omega) hr⟩

theorem isLineEnd_char {c : Char} (h : c ≠ '\n' ∧ c ≠ '\r') :
    ∀ b ∈ String.utf8EncodeChar c, isLineEnd b = false := by
  have hne : ∀ d : Char, c ≠ d → c.val.toNat ≠ d.val.toNat := by
    intro d hd heq
    exact hd (Char.ext (UInt32.toNat.inj heq))
  have hn : c.val.toNat ≠ 10 := hne '\n' h.1
  have hr : c.val.toNat ≠ 13 := hne '\r' h.2
  simp only [String.utf8EncodeChar]
  split_ifs <;> simp only [List.forall_mem_cons, List.not_mem_nil, false_imp_iff, implies_true, and_true]
  · exact isLineEnd_ofNat (by omega) hn hr
  · exact ⟨isLineEnd_ofNat (by omega) (by omega) (by omega), isLineEnd_ofNat (by omega) (by omega) (by omega)⟩
  · exact ⟨isLineEnd_ofNat (by omega) (by omega) (by omega), isLineEnd_ofNat (by omega) (by omega) (by omega),
      isLineEnd_ofNat (by omega) (by omega) (by omega)⟩
  · exact ⟨isLineEnd_ofNat (by omega) (by omega) (by omega), isLineEnd_ofNat (by omega) (by omega) (by omega),
      isLineEnd_ofNat (by omega) (by omega) (by omega), isLineEnd_ofNat (by omega) (by omega) (by omega)⟩

theorem isLineEnd_encode {s : Str} (h : Bare s) : ∀ b ∈ encode s, isLineEnd b = false := by
  intro b hb
  obtain ⟨c, hc, hb⟩ := List.mem_flatMap.mp hb
  exact isLineEnd_char (h c hc) b hb

theorem encode_line (s : Str) : encode (s ++ ['\n']) = encode s ++ [10] := encode_append s ['\n']

theorem takeLine_open {bs : Bytes} (h : ∀ b ∈ bs, isLineEnd b = false) (rest : Bytes) :
    takeLine (bs ++ 10 :: rest) = bs ++ [10] := by
  induction bs with
  | nil => rfl
  | cons b bs ih =>
    have hb := h b (by simp)
    rw [isLineEnd, Bool.or_eq_false_iff, beq_eq_false_iff_ne, beq_eq_false_iff_ne] at hb
    rw [List.cons_append, takeLine, if_neg hb.1, if_neg hb.2, ih fun b' hb' => h b' (List.mem_cons_of_mem b hb')]
    rfl

theorem takeLine_encode {s : Str} (h : Bare s) (rest : Bytes) :
    takeLine (encode (s ++ ['\n']) ++ rest) = encode (s ++ ['\n']) := by
  rw [encode_line, List.append_assoc]
  exact takeLine_open (isLineEnd_encode h) rest

theorem textLine_encode {s : Str} (h : Bare s) : textLine (encode (s ++ ['\n'])) = s ++ ['\n'] := by
  have hany : (encode s ++ [10]).any isLineEnd = true := by
    rw [List.any_append]
    exact Bool.or_eq_true_iff.mpr (.inr rfl)
  have hcut : (encode s ++ [10]).takeWhile (fun b => !isLineEnd b) = encode s := by
    rw [List.takeWhile_append_of_pos]
    · exact List.append_nil _
    · intro b hb
      rw [isLineEnd_encode h b hb]
      rfl
  rw [encode_line, textLine, if_pos hany, hcut, decode_encode]

def fileOf (ls : List Str) : Bytes := encode (ls.map (· ++ ['\n'])).flatten

theorem fileOf_cons (l : Str) (ls : List Str) : fileOf (l :: ls) = encode (l ++ ['\n']) ++ fileOf ls :=
  encode_append _ _

theorem fileOf_append (ls ls' : List Str) : fileOf (ls ++ ls') = fileOf ls ++ fileOf ls' := by
  rw [fileOf, List.map_append, List.flatten_append, encode_append]
  rfl

theorem length_line (l : Str) : 0 < (encode (l ++ ['\n'])).length := by
  rw [encode_line, List.length_append]
  exact Nat.succ_pos _

theorem length_le_fileOf (ls : List Str) : ls.length ≤ (fileOf ls).length := by
  induction ls with
  | nil => exact Nat.zero_le _
  | cons l ls ih =>
    have hline := length_line l
    rw [fileOf_cons, List.length_append, List.length_cons]
    omega

theorem readLoop_lines {maxBytes : Nat} {ls : List Str} (h : ∀ l ∈ ls, Bare l) {n fuel : Nat}
    (hcap : n + (fileOf ls).length ≤ maxBytes) (hfuel : ls.length ≤ fuel) :
    readLoop maxBytes fuel n (fileOf ls) [] = (ls.map (· ++ ['\n']), (fileOf ls).length) := by
  induction ls generalizing n fuel with
  | nil =>
    cases fuel with
    | zero => rfl
    | succ fuel =>
      rw [readLoop]
      split_ifs <;> rfl
  | cons l ls ih =>
    obtain ⟨hl, hls⟩ := List.forall_mem_cons.mp h
    obtain ⟨fuel, rfl⟩ := Nat.exists_eq_add_of_lt hfuel
    have hlength := length_line l
    rw [fileOf_cons, List.length_append] at hcap ⊢
    have hbelow : n < maxBytes := by omega
    have hnext : readLoop maxBytes (ls.length + fuel) (n + encodedLength (l ++ ['\n'])) (fileOf ls) [] =
        (ls.map (· ++ ['\n']), (fileOf ls).length) :=
      ih hls (by rw [← length_encode]; omega) (Nat.le_add_right ..)
    have hrest : (encode (l ++ ['\n']) ++ fileOf ls).drop (encode (l ++ ['\n'])).length = fileOf ls :=
      List.drop_left
    have hlast : ((fileOf ls).isEmpty && (encode (l ++ ['\n'])).getLast? != some 10) = false := by
      rw [encode_line, List.getLast?_concat]
      exact Bool.and_false _
    have hline : (l ++ ['\n']).isEmpty = false := by
      rw [List.isEmpty_eq_false_iff]
      exact List.concat_ne_nil _ _
    have hsteps : (l :: ls).length + fuel = (ls.length + fuel) + 1 := by
      rw [List.length_cons]
      omega
    simp only [readLoop, takeLine_encode hl, textLine_encode hl, hrest, hlast, hline, hbelow, hnext,
      if_true, if_false, Bool.false_eq_true, List.map_cons]

theorem readAppendedLines_lines {maxBytes : Nat} {ls : List Str} (h : ∀ l ∈ ls, Bare l) (before : Bytes)
    {attempts : List ReadAttempt}
    (hread : attempts.head? = some ⟨some (before ++ fileOf ls).length, some (before ++ fileOf ls), []⟩)
    (hcap : (fileOf ls).length ≤ maxBytes) :
    readAppendedLines maxBytes true attempts before.length =
      (ls.map (· ++ ['\n']), before.length + (fileOf ls).length, (before ++ fileOf ls).length) := by
  obtain ⟨a, rest, rfl⟩ : ∃ a rest, attempts = a :: rest :=
    List.exists_cons_of_ne_nil fun hnil => by rw [hnil] at hread; cases hread
  rw [List.head?_cons, Option.some.injEq] at hread
  subst hread
  have hsize : ¬ (before ++ fileOf ls).length < before.length := by
    rw [List.length_append]
    omega
  have hloop : readLoop maxBytes ((fileOf ls).length + ([] : List Bytes).flatten.length) 0 (fileOf ls) [] =
      (ls.map (· ++ ['\n']), (fileOf ls).length) :=
    readLoop_lines h (by rwa [Nat.zero_add]) (Nat.le_add_right_of_le (length_le_fileOf ls))
  rw [readAppendedLines, if_pos rfl]
  show readAttempts maxBytes (_ :: rest.take 4) _ = _
  simp only [readAttempts, if_neg hsize, readFrom, List.drop_left, hloop]

end AtmMonitor.EncodedLines
