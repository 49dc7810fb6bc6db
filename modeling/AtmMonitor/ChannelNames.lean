import AtmMonitor.Decimal
import AtmMonitor.Library.Matching

namespace AtmMonitor.ChannelNames

open PyText Decimal Library.Regex

/-- `str.lower` of one character. Outside ASCII only the characters whose lower case contains an
ASCII letter are mapped: the one use compares the end of the result with an ASCII suffix. -/
def lowerChar (c : Char) : Str :=
  let n := c.toNat
  if n < 128 then [c.toLower]
  else if n == 0x130 then ['i', Char.ofNat 0x307]
  else if n == 0x212A then ['k']
  else [c]

def lower (s : Str) : Str := s.flatMap lowerChar

/-- `str.zfill`, where the zeros follow a sign. -/
def zfill (width : Nat) (s : Str) : Str :=
  let zeros := List.replicate (width - s.length) '0'
  match s with
  | '+' :: rest => '+' :: (zeros ++ rest)
  | '-' :: rest => '-' :: (zeros ++ rest)
  | _ => zeros ++ s

/-- `$` without `re.MULTILINE`: the end of the text, or the newline that ends it. Nothing follows it
in the patterns, so that it may consume the newline. -/
def dollar : Pattern Char :=
  .alt (.ahead Option.isNone) (.seq (.cls (· == '\n')) (.ahead Option.isNone))

/-- A name that ends in `cam` and digits, of any case. -/
def channelPattern (cam : Str) : Pattern Char :=
  seqs [lit sameFold cam, .group "1" (many1 isDigit), dollar]

def channelDigits (cam name : Str) : Option Str :=
  (search (channelPattern cam) name).bind fun m => m.group "1"

/-- The digits that one of the two `-CAM` patterns takes. -/
def camDigits (name : Str) : Option Str :=
  channelDigits "-CAM-".toList name <|> channelDigits "-CAM".toList name

def extractChannelId (name : Str) : Nat :=
  match camDigits name with
  | some digits => int digits
  | none =>
    match channelDigits [] name with
    | some digits => int digits
    | none => 1

/-- The name test of `check_single_nvr_async`, for the text of a channel id. -/
def namesChannel (name channelId : Str) : Bool :=
  let paddedId := zfill 2 channelId
  ("-cam-".toList ++ paddedId).isSuffixOf (lower name) ||
    ("-cam".toList ++ paddedId).isSuffixOf (lower name)

/-- The test accepts the channel and no other. -/
def Agrees (name : Str) (channel : Nat) : Prop :=
  namesChannel name (decimal channel) = true ∧
    ∀ other, other ≠ channel → namesChannel name (decimal other) = false

/-- Exactly two digits of ASCII, or more of them without a leading zero. -/
structure Padded (digits : Str) : Prop where
  ascii : AsciiDigits digits
  long : 2 ≤ digits.length
  zero : 2 < digits.length → digits.head? ≠ some '0'

theorem lower_append (s t : Str) : lower (s ++ t) = lower s ++ lower t := List.flatMap_append

theorem lowerChar_digit {c : Char} (h : isDigit c = true) : lowerChar c = [c] := by
  by_cases hascii : c.toNat < 128
  · have hlower : ∀ n < 128, isDigit (Char.ofNat n) = true → (Char.ofNat n).toLower = Char.ofNat n := by
      decide
    have hc := hlower c.toNat hascii
    rw [Char.ofNat_toNat] at hc
    simp only [lowerChar, hascii, if_true, hc h]
  · have hmapped : ∀ n, n = 0x130 ∨ n = 0x212A → c.toNat ≠ n := by
      rintro n (rfl | rfl) heq
      · simp [isDigit, digit?, heq, zeros] at h
      · simp [isDigit, digit?, heq, zeros] at h
    simp [lowerChar, hascii, hmapped 0x130 (.inl rfl), hmapped 0x212A (.inr rfl)]

theorem lower_digits {digits : Str} (h : ∀ c ∈ digits, isDigit c = true) : lower digits = digits := by
  induction digits with
  | nil => rfl
  | cons c digits ih =>
    rw [lower, List.flatMap_cons, lowerChar_digit (h c (by simp))]
    exact congrArg _ (ih fun d hd => h d (by simp [hd]))

theorem lowerChar_of_sameFold {x c : Char} (hx : x ∈ "-CAM".toList) (h : sameFold x c = true) :
    lowerChar c = lowerChar x := by
  rw [sameFold, beq_iff_eq] at h
  have hfold : fold x ≠ 'i' ∧ fold x ≠ 's' ∧ fold x ≠ 'k' ∧ (fold x).toNat < 128 ∧
      lowerChar x = [fold x] := by
    have hletter : x = '-' ∨ x = 'C' ∨ x = 'A' ∨ x = 'M' := by simpa using hx
    obtain rfl | rfl | rfl | rfl := hletter <;> decide
  obtain ⟨hi, hs, hk, hascii, hlower⟩ := hfold
  rw [hlower]
  rw [h] at hi hs hk hascii ⊢
  unfold fold at hi hs hk hascii ⊢
  split_ifs at hi hs hk hascii ⊢ with hc
  · simp [lowerChar, hc]
  all_goals trivial

theorem lower_cam {cam u : Str} (hcam : ∀ x ∈ cam, x ∈ "-CAM".toList)
    (h : List.Forall₂ (fun x c => sameFold x c = true) cam u) : lower u = lower cam := by
  induction h with
  | nil => rfl
  | cons hxc _ ih =>
    rw [lower, lower, List.flatMap_cons, List.flatMap_cons,
      lowerChar_of_sameFold (hcam _ (by simp)) hxc]
    exact congrArg _ (ih fun x hx => hcam x (by simp [hx]))

theorem mem_run_dollar {c d : Cursor Char} (h : d ∈ run dollar c) :
    (c.right = [] ∨ c.right = ['\n']) ∧ d.groups = c.groups := by
  obtain h | h := List.mem_append.mp h
  · cases hright : c.right with
    | nil =>
      simp only [run, hright, List.head?_nil, Option.isNone_none, if_true, List.mem_singleton] at h
      exact ⟨.inl rfl, congrArg _ h⟩
    | cons x xs => simp [run, hright] at h
  · obtain ⟨e, he, hd⟩ := mem_run_seq_iff.mp h
    obtain ⟨x, rest, hx, hright, rfl⟩ := mem_run_cls_iff.mp he
    cases rest with
    | nil =>
      simp only [run, Cursor.skip_right, List.head?_nil, Option.isNone_none, if_true,
        List.mem_singleton] at hd
      exact ⟨.inr (hright.trans (by rw [beq_iff_eq.mp hx])), by rw [hd]; rfl⟩
    | cons y ys => simp [run] at hd

theorem channelDigits_eq_some {cam name digits : Str} (h : channelDigits cam name = some digits) :
    ∃ front u tail, name = front ++ (u ++ (digits ++ tail)) ∧
      List.Forall₂ (fun x c => sameFold x c = true) cam u ∧
      digits ≠ [] ∧ (∀ c ∈ digits, isDigit c = true) ∧ (tail = [] ∨ tail = ['\n']) := by
  obtain ⟨m, hm, hgroup⟩ := Option.bind_eq_some_iff.mp h
  obtain ⟨front, rest, rfl, hrun⟩ := mem_search hm
  rw [channelPattern, mem_run_seqs_cons] at hrun
  obtain ⟨c₁, h₁, hrun⟩ := hrun
  obtain ⟨u, rest₁, hu, hright, rfl⟩ := mem_run_lit.mp h₁
  obtain ⟨c₂, h₂, hrun⟩ := mem_run_seqs_cons.mp hrun
  obtain ⟨_, h₃, rfl⟩ := mem_run_group.mp h₂
  obtain ⟨w, tail, hne, hw, hright', rfl⟩ := mem_run_many1.mp h₃
  obtain ⟨htail, hgroups⟩ := mem_run_dollar hrun
  have hdigits : w = digits := by
    rw [Cursor.group, hgroups, captured_skip hright'] at hgroup
    simpa using hgroup
  subst hdigits
  refine ⟨front, u, tail, ?_, hu, hne, hw, htail⟩
  rw [← hright']
  exact congrArg _ hright

theorem digits_at_end {a b digits numeral : Str} {x y : Char} (hx : isDigit x = false)
    (hy : isDigit y = false) (hdigits : ∀ c ∈ digits, isDigit c = true)
    (hnumeral : ∀ c ∈ numeral, isDigit c = true)
    (h : a ++ x :: digits = b ++ y :: numeral) : a = b ∧ x = y ∧ digits = numeral := by
  have hcases := List.append_eq_append_iff.mp h
  obtain ⟨w, rfl, hw⟩ | ⟨w, rfl, hw⟩ := hcases
  · cases w with
    | nil =>
      obtain ⟨rfl, rfl⟩ := List.cons.inj hw
      exact ⟨(List.append_nil a).symm, rfl, rfl⟩
    | cons z w =>
      obtain ⟨-, rfl⟩ := List.cons.inj hw
      exact absurd (hdigits y (by simp)) (by simp [hy])
  · cases w with
    | nil =>
      obtain ⟨rfl, rfl⟩ := List.cons.inj hw
      exact ⟨List.append_nil b, rfl, rfl⟩
    | cons z w =>
      obtain ⟨-, rfl⟩ := List.cons.inj hw
      exact absurd (hnumeral x (by simp)) (by simp [hx])

theorem isSuffixOf_iff {a w digits numeral : Str} {x y : Char} (hx : isDigit x = false)
    (hy : isDigit y = false) (hdigits : ∀ c ∈ digits, isDigit c = true)
    (hnumeral : ∀ c ∈ numeral, isDigit c = true) :
    (w ++ y :: numeral).isSuffixOf (a ++ x :: digits) = true ↔ w <:+ a ∧ y = x ∧ numeral = digits := by
  rw [List.isSuffixOf_iff_suffix]
  constructor
  · rintro ⟨b, hb⟩
    rw [← List.append_assoc] at hb
    obtain ⟨rfl, rfl, rfl⟩ := digits_at_end hy hx hnumeral hdigits hb
    exact ⟨List.suffix_append b w, rfl, rfl⟩
  · rintro ⟨⟨b, rfl⟩, rfl, rfl⟩
    exact ⟨b, by rw [List.append_assoc]⟩

theorem length_decimal_le_one {n : Nat} : (decimal n).length ≤ 1 ↔ n < 10 :=
  Nat.length_toDigits_le_iff (by decide) (by decide)

theorem zfill_decimal (n : Nat) :
    zfill 2 (decimal n) = if n < 10 then '0' :: decimal n else decimal n := by
  have hpos : 0 < (decimal n).length := List.length_pos_iff.mpr (decimal_ne_nil n)
  have hplain : zfill 2 (decimal n) = List.replicate (2 - (decimal n).length) '0' ++ decimal n := by
    cases h : decimal n with
    | nil => exact absurd h (decimal_ne_nil n)
    | cons c rest =>
      have hc : c.isDigit = true := decimal_digits n c (by simp [h])
      unfold zfill
      split <;> first | rfl | simp_all
  rw [hplain]
  split_ifs with hn
  · have hone : 2 - (decimal n).length = 1 := by
      have := length_decimal_le_one.mpr hn
      omega
    rw [hone]
    rfl
  · have hzero : 2 - (decimal n).length = 0 := by
      have := mt length_decimal_le_one.mp hn
      omega
    rw [hzero]
    rfl

theorem zfill_digits (n : Nat) : AsciiDigits (zfill 2 (decimal n)) ∧ zfill 2 (decimal n) ≠ [] := by
  rw [zfill_decimal]
  split_ifs
  · refine ⟨fun c hc => ?_, List.cons_ne_nil _ _⟩
    obtain rfl | hc := List.mem_cons.mp hc
    · decide
    · exact decimal_digits n c hc
  · exact ⟨decimal_digits n, decimal_ne_nil n⟩

theorem int_zfill (n : Nat) : int (zfill 2 (decimal n)) = n := by
  rw [zfill_decimal]
  split_ifs
  · exact int_decimal n
  · exact int_decimal n

theorem padded_iff {digits : Str} (hne : digits ≠ []) :
    zfill 2 (decimal (int digits)) = digits ↔ Padded digits := by
  constructor
  · intro h
    have hdigits := zfill_digits (int digits)
    rw [h] at hdigits
    rw [zfill_decimal] at h
    split_ifs at h with hsmall
    · have hone : (decimal (int digits)).length = 1 := by
        have := length_decimal_le_one.mpr hsmall
        have := List.length_pos_iff.mpr (decimal_ne_nil (int digits))
        omega
      have hlength := congrArg List.length h
      rw [List.length_cons, hone] at hlength
      exact ⟨hdigits.1, by omega, fun hlong => by omega⟩
    · have hlength := congrArg List.length h
      have hlong := mt length_decimal_le_one.mp hsmall
      refine ⟨hdigits.1, by omega, fun _ hzero => hsmall ?_⟩
      rw [← h] at hzero
      rw [decimal_head? _ hzero]
      decide
  · rintro ⟨hascii, hlong, hzero⟩
    rw [zfill_decimal]
    by_cases hhead : digits.head? = some '0'
    · obtain ⟨rest, rfl⟩ : ∃ rest, digits = '0' :: rest := by
        cases digits with
        | nil => exact absurd rfl hne
        | cons c rest => exact ⟨rest, by rw [Option.some.inj hhead]⟩
      obtain ⟨c, rfl⟩ : ∃ c, rest = [c] := by
        rw [← List.length_eq_one_iff]
        have : ¬ 2 < ('0' :: rest).length := fun h => hzero h rfl
        simp only [List.length_cons] at this hlong
        omega
      have hc : c.isDigit = true := hascii c (by simp)
      have hrange := toNat_range hc
      have hint : int ['0', c] = c.toNat - 48 := by
        rw [show ['0', c] = ['0'] ++ [c] from rfl, int_concat, digit?_of_isDigit hc]
        exact Nat.zero_add _
      have hlt : c.toNat - 48 < 10 := by omega
      rw [hint, if_pos hlt, decimal_digit hlt, digitChar_of_isDigit hc]
    · have hvalue := decimal_int hascii hne hhead
      rw [hvalue, if_neg]
      rw [← length_decimal_le_one, hvalue]
      omega

/-- Of a name that ends in `-CAM-` or `-CAM`, digits and perhaps a newline. -/
theorem namesChannel_iff (front : Str) {cam u digits tail channelId : Str}
    (hcam : cam = "-CAM-".toList ∨ cam = "-CAM".toList)
    (hu : List.Forall₂ (fun x c => sameFold x c = true) cam u)
    (hdigits : ∀ c ∈ digits, isDigit c = true) (htail : tail = [] ∨ tail = ['\n'])
    (hid : AsciiDigits (zfill 2 channelId) ∧ zfill 2 channelId ≠ []) :
    namesChannel (front ++ (u ++ (digits ++ tail))) channelId = true ↔
      tail = [] ∧ zfill 2 channelId = digits := by
  have hnumeral : ∀ c ∈ zfill 2 channelId, isDigit c = true := fun c hc => isDigit_of_ascii (hid.1 c hc)
  have hlower : lower u = lower cam := by
    apply lower_cam _ hu
    obtain rfl | rfl := hcam <;> simp
  rw [namesChannel, lower_append, lower_append, lower_append, hlower, lower_digits hdigits,
    Bool.or_eq_true]
  generalize zfill 2 channelId = numeral at hid hnumeral
  obtain rfl | rfl := htail
  · have hdash : "-cam-".toList ++ numeral = "-cam".toList ++ '-' :: numeral := rfl
    have hplain : "-cam".toList ++ numeral = "-ca".toList ++ 'm' :: numeral := rfl
    have hdash' : isDigit '-' = false := by decide
    have hm : isDigit 'm' = false := by decide
    rw [hdash, hplain]
    obtain rfl | rfl := hcam
    · have hname : lower front ++ (lower "-CAM-".toList ++ (digits ++ lower [])) =
          (lower front ++ "-cam".toList) ++ '-' :: digits := by
        have : lower [] = [] := rfl
        rw [this, List.append_nil, List.append_assoc]
        rfl
      rw [hname, isSuffixOf_iff hdash' hdash' hdigits hnumeral, isSuffixOf_iff hdash' hm hdigits hnumeral]
      simp
    · have hname : lower front ++ (lower "-CAM".toList ++ (digits ++ lower [])) =
          (lower front ++ "-ca".toList) ++ 'm' :: digits := by
        have : lower [] = [] := rfl
        rw [this, List.append_nil, List.append_assoc]
        rfl
      rw [hname, isSuffixOf_iff hm hdash' hdigits hnumeral, isSuffixOf_iff hm hm hdigits hnumeral]
      simp
  · have hnewline : ∀ w a : Str, ¬ (w ++ numeral) <:+ a ++ ['\n'] := by
      rintro w a ⟨b, hb⟩
      obtain ⟨init, last, rfl⟩ := (List.eq_nil_or_concat numeral).resolve_left hid.2
      rw [List.concat_eq_append, ← List.append_assoc, ← List.append_assoc] at hb
      have hlast := (List.append_inj' hb rfl).2
      have := hnumeral last (by simp)
      rw [List.singleton_inj.mp hlast] at this
      exact absurd this (by decide)
    have hname : lower front ++ (lower cam ++ (digits ++ lower ['\n'])) =
        (lower front ++ (lower cam ++ digits)) ++ ['\n'] := by
      simp only [List.append_assoc]
      rfl
    rw [hname, List.isSuffixOf_iff_suffix, List.isSuffixOf_iff_suffix]
    simp only [hnewline, or_self, List.cons_ne_nil, false_and]

theorem extractChannelId_of_camDigits {name digits : Str} (h : camDigits name = some digits) :
    extractChannelId name = int digits := by
  rw [extractChannelId, h]

/-- The two readings of a camera's channel agree just when the test finds the digits as it pads
them. -/
theorem channel_agrees_iff {name digits : Str} (h : camDigits name = some digits) :
    Agrees name (extractChannelId name) ↔ name.getLast? ≠ some '\n' ∧ Padded digits := by
  rw [extractChannelId_of_camDigits h]
  obtain ⟨cam, hcam, htaken⟩ : ∃ cam, (cam = "-CAM-".toList ∨ cam = "-CAM".toList) ∧
      channelDigits cam name = some digits := by
    obtain h | ⟨-, h⟩ := (Option.orElse_eq_some _ _ _).mp h
    · exact ⟨_, .inl rfl, h⟩
    · exact ⟨_, .inr rfl, h⟩
  obtain ⟨front, u, tail, rfl, hu, hne, hdigits, htail⟩ := channelDigits_eq_some htaken
  have htest := fun n => namesChannel_iff front hcam hu hdigits htail (zfill_digits n)
  have hlast : (front ++ (u ++ (digits ++ tail))).getLast? ≠ some '\n' ↔ tail = [] := by
    obtain rfl | rfl := htail
    · simp only [List.append_nil, iff_true]
      rw [← List.append_assoc, List.getLast?_append_of_ne_nil _ hne]
      intro hnewline
      exact absurd (hdigits '\n' (List.mem_of_getLast? hnewline)) (by decide)
    · simp only [← List.append_assoc, List.getLast?_concat]
      simp
  rw [hlast, ← padded_iff hne, Agrees, htest]
  constructor
  · exact fun hagrees => hagrees.1
  · refine fun hagrees => ⟨hagrees, fun other hother => ?_⟩
    rw [← Bool.not_eq_true, htest]
    rintro ⟨-, heq⟩
    exact hother (by rw [← heq, int_zfill])

theorem channel_agrees_two_digits :
    Agrees "ATM7-CAM-12".toList (extractChannelId "ATM7-CAM-12".toList) := by
  have hpadded : Padded "12".toList := ⟨decimal_digits 12, by decide, by decide⟩
  exact (channel_agrees_iff (by decide)).mpr ⟨by decide, hpadded⟩

/-- The id of channel 5 is looked for as "05". -/
theorem unpadded_channel_missed :
    camDigits "ATM7-CAM-5".toList = some "5".toList ∧
      ¬ Agrees "ATM7-CAM-5".toList (extractChannelId "ATM7-CAM-5".toList) := by
  refine ⟨by decide, fun h => ?_⟩
  exact absurd h.1 (by decide)

end AtmMonitor.ChannelNames
