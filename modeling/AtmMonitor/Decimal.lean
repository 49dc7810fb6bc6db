import AtmMonitor.PyText

namespace AtmMonitor.Decimal

open PyText

/-- `str(n)`. -/
def decimal (n : Nat) : Str := Nat.toDigits 10 n

def AsciiDigits (s : Str) : Prop := ∀ c ∈ s, c.isDigit = true

theorem decimal_digits (n : Nat) : AsciiDigits (decimal n) := fun _ hc =>
  Nat.isDigit_of_mem_toDigits (by decide) (by decide) hc

theorem decimal_ne_nil (n : Nat) : decimal n ≠ [] := Nat.toDigits_ne_nil

theorem toNat_range {c : Char} (h : c.isDigit = true) : 48 ≤ c.toNat ∧ c.toNat ≤ 57 := by
  simpa [Char.isDigit, UInt32.le_iff_toNat_le] using h

theorem digit?_of_isDigit {c : Char} (h : c.isDigit = true) : digit? c = some (c.toNat - 48) := by
  have hrange := toNat_range h
  have hascii : c.toNat < 128 := by omega
  simp [digit?, hascii, hrange]

theorem isDigit_of_ascii {c : Char} (h : c.isDigit = true) : isDigit c = true := by
  rw [isDigit, digit?_of_isDigit h]
  rfl

theorem int_concat (s : Str) (c : Char) : int (s ++ [c]) = 10 * int s + (digit? c).getD 0 := by
  rw [int, List.foldl_append]
  rfl

theorem int_eq_ofDigitChars {s : Str} (h : AsciiDigits s) : int s = Nat.ofDigitChars 10 s 0 := by
  induction s using List.reverseRecOn with
  | nil => rfl
  | append_singleton s c ih =>
    have hc := digit?_of_isDigit (h c (by simp))
    rw [int_concat, ih fun d hd => h d (by simp [hd]), hc, Nat.ofDigitChars_append,
      Nat.ofDigitChars_cons, Nat.ofDigitChars_nil]
    rfl

theorem int_decimal (n : Nat) : int (decimal n) = n := by
  rw [int_eq_ofDigitChars (decimal_digits n), decimal, Nat.ofDigitChars_ten_toDigits]

theorem decimal_injective : Function.Injective decimal := fun m n h => by
  rw [← int_decimal m, h, int_decimal]

theorem decimal_concat {n k : Nat} (hn : 0 < n) (hk : k < 10) :
    decimal (10 * n + k) = decimal n ++ decimal k :=
  (Nat.toDigits_append_toDigits (by decide) hn hk).symm

theorem decimal_digit {k : Nat} (hk : k < 10) : decimal k = [k.digitChar] :=
  Nat.toDigits_of_lt_base hk

theorem decimal_head? (n : Nat) (h : (decimal n).head? = some '0') : n = 0 := by
  induction n using Nat.strongRecOn with
  | ind n ih =>
    obtain hlt | hge := Nat.lt_or_ge n 10
    · rw [decimal_digit hlt, List.head?_cons, Option.some.injEq] at h
      have hvalue := Nat.toNat_digitChar_sub_48_of_lt_ten hlt
      rw [h] at hvalue
      exact hvalue.symm
    · have hsplit : n = 10 * (n / 10) + n % 10 := (Nat.div_add_mod n 10).symm
      have hpos : 0 < n / 10 := Nat.div_pos hge (by decide)
      rw [hsplit, decimal_concat hpos (Nat.mod_lt _ (by decide)),
        List.head?_append_of_ne_nil _ (decimal_ne_nil _)] at h
      exact absurd (ih (n / 10) (by omega) h) hpos.ne'

theorem digitChar_of_isDigit {c : Char} (h : c.isDigit = true) : (c.toNat - 48).digitChar = c := by
  have hrange := toNat_range h
  have hchars : ∀ k < 10, Nat.digitChar k = Char.ofNat (48 + k) := by decide
  rw [hchars _ (by omega), Nat.add_sub_cancel' hrange.1, Char.ofNat_toNat]

theorem decimal_int {s : Str} (hs : AsciiDigits s) (hne : s ≠ []) (hzero : s.head? ≠ some '0') :
    decimal (int s) = s := by
  induction s using List.reverseRecOn with
  | nil => exact absurd rfl hne
  | append_singleton s c ih =>
    have hc : c.isDigit = true := hs c (by simp)
    have hlt : c.toNat - 48 < 10 := by
      have hrange := toNat_range hc
      omega
    have hdigit : decimal (c.toNat - 48) = [c] := by
      rw [decimal_digit hlt, digitChar_of_isDigit hc]
    rw [int_concat, digit?_of_isDigit hc, Option.getD_some]
    obtain rfl | hs' := eq_or_ne s []
    · rw [int, List.foldl_nil, Nat.mul_zero, Nat.zero_add]
      exact hdigit
    · have hhead : s.head? ≠ some '0' := by rwa [List.head?_append_of_ne_nil _ hs'] at hzero
      have hvalue := ih (fun d hd => hs d (by simp [hd])) hs' hhead
      have hpos : 0 < int s := by
        apply Nat.pos_of_ne_zero
        intro hint
        rw [hint] at hvalue
        exact hhead (hvalue ▸ rfl)
      rw [decimal_concat hpos hlt, hvalue, hdigit]

end AtmMonitor.Decimal
