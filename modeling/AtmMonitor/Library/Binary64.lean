import Mathlib.Data.Nat.Log
import Mathlib.Tactic.Ring

namespace AtmMonitor.Library.Binary64

/-- The integer nearest to `a / b`, of two the even one. -/
def nearest (a b : Nat) : Nat :=
  if 2 * (a % b) < b ∨ 2 * (a % b) = b ∧ a / b % 2 = 0 then a / b else a / b + 1

/-- A number of the format, `significand * 2 ^ exponent`. -/
structure Double where
  significand : Nat
  exponent : Int

def overflow : Nat := 2 ^ 1024

/-- The quotient of two integers, which is at least one, rounded to 53 significant bits. -/
def divide (a b : Nat) : Option Double :=
  let bits := Nat.log 2 (a / b)
  if bits ≤ 52 then some ⟨nearest (a * 2 ^ (52 - bits)) b, -((52 - bits : Nat) : Int)⟩
  else
    let significand := nearest a (b * 2 ^ (bits - 52))
    if significand * 2 ^ (bits - 52) < overflow then some ⟨significand, (bits - 52 : Nat)⟩ else none

def Double.round (x : Double) : Nat :=
  if 0 ≤ x.exponent then x.significand * 2 ^ x.exponent.toNat
  else nearest x.significand (2 ^ (-x.exponent).toNat)

def Exact (n : Nat) : Prop := ∃ significand exponent, significand < 2 ^ 53 ∧
  n = significand * 2 ^ exponent ∧ n < overflow

theorem nearest_mul {b : Nat} (hb : 0 < b) (n : Nat) : nearest (n * b) b = n := by
  rw [nearest, Nat.mul_mod_left, Nat.mul_div_cancel _ hb, if_pos (.inl (by omega))]

theorem nearest_mul_mul {c : Nat} (hc : 0 < c) (a b : Nat) : nearest (a * c) (b * c) = nearest a b := by
  have hmod : a * c % (b * c) = a % b * c := Nat.mul_mod_mul_right c a b
  have hdiv : a * c / (b * c) = a / b := Nat.mul_div_mul_right a b hc
  have hlt : 2 * (a % b * c) < b * c ↔ 2 * (a % b) < b := by
    rw [← Nat.mul_assoc]
    exact Nat.mul_lt_mul_right hc
  have heq : 2 * (a % b * c) = b * c ↔ 2 * (a % b) = b := by
    rw [← Nat.mul_assoc]
    exact Nat.mul_left_inj hc.ne'
  simp only [nearest, hmod, hdiv, hlt, heq]

theorem nearest_mul_self {a b : Nat} : nearest a b * b = a ↔ b ∣ a := by
  constructor
  · exact fun h => ⟨nearest a b, (h.symm.trans (Nat.mul_comm _ _))⟩
  · rintro ⟨n, rfl⟩
    obtain rfl | hb := Nat.eq_zero_or_pos b
    · simp
    · rw [Nat.mul_comm b n, nearest_mul hb]

theorem round_neg (significand k : Nat) :
    Double.round ⟨significand, -(k : Int)⟩ = nearest significand (2 ^ k) := by
  obtain rfl | hk := Nat.eq_zero_or_pos k
  · have hone := nearest_mul (b := 1) (by decide) significand
    rw [Nat.mul_one] at hone
    simp [Double.round, hone]
  · have hneg : ¬ (0 : Int) ≤ -(k : Int) := by omega
    rw [Double.round, if_neg hneg, Int.neg_neg, Int.toNat_natCast]

theorem exact_of_lt {n : Nat} (h : n < 2 ^ 53) : Exact n := by
  have hpow : ∀ k, 53 ≤ k → 2 ^ 53 ≤ 2 ^ k := fun k => Nat.pow_le_pow_right (by decide)
  exact ⟨n, 0, h, (Nat.mul_one n).symm, h.trans_le (hpow 1024 (by decide))⟩

theorem exact_iff {n : Nat} (hbits : 52 < Nat.log 2 n) :
    Exact n ↔ 2 ^ (Nat.log 2 n - 52) ∣ n ∧ n < overflow := by
  have hn : n ≠ 0 := by
    rintro rfl
    simp at hbits
  have hlow : 2 ^ Nat.log 2 n ≤ n := Nat.pow_log_le_self 2 hn
  have hhigh : n < 2 ^ (Nat.log 2 n + 1) := Nat.lt_pow_succ_log_self (by decide) n
  generalize Nat.log 2 n = bits at *
  constructor
  · rintro ⟨significand, exponent, hsignificand, rfl, hlimit⟩
    refine ⟨Dvd.dvd.mul_left (Nat.pow_dvd_pow 2 ?_) significand, hlimit⟩
    by_contra hsmall
    have hlt : significand * 2 ^ exponent < 2 ^ 53 * 2 ^ exponent :=
      Nat.mul_lt_mul_of_pos_right hsignificand (Nat.two_pow_pos _)
    have hle : 2 ^ 53 * 2 ^ exponent ≤ 2 ^ bits := by
      rw [← Nat.pow_add]
      exact Nat.pow_le_pow_right (by decide) (by omega)
    exact absurd (hlt.trans_le hle) hlow.not_gt
  · rintro ⟨⟨significand, rfl⟩, hlimit⟩
    refine ⟨significand, bits - 52, ?_, Nat.mul_comm _ _, hlimit⟩
    have hsplit : 2 ^ (bits + 1) = 2 ^ (bits - 52) * 2 ^ 53 := by
      rw [← Nat.pow_add]
      congr 1
      omega
    rw [hsplit] at hhigh
    exact Nat.lt_of_mul_lt_mul_left hhigh

/-- A multiple divided by its factor. -/
theorem round_divide_iff {b : Nat} (hb : 0 < b) (n : Nat) :
    (divide (n * b) b).map Double.round = some n ↔ Exact n := by
  have hquotient : n * b / b = n := Nat.mul_div_cancel n hb
  rw [divide, hquotient]
  by_cases hbits : Nat.log 2 n ≤ 52
  · have hexact : Exact n := by
      apply exact_of_lt
      have hhigh : n < 2 ^ (Nat.log 2 n + 1) := Nat.lt_pow_succ_log_self (by decide) n
      exact hhigh.trans_le (Nat.pow_le_pow_right (by decide) (by omega))
    have hsignificand : nearest (n * b * 2 ^ (52 - Nat.log 2 n)) b = n * 2 ^ (52 - Nat.log 2 n) := by
      rw [Nat.mul_right_comm, nearest_mul hb]
    simp only [hbits, if_true, Option.map_some, hsignificand, round_neg,
      nearest_mul (Nat.two_pow_pos _), hexact]
  · have hshift : nearest (n * b) (b * 2 ^ (Nat.log 2 n - 52)) = nearest n (2 ^ (Nat.log 2 n - 52)) := by
      rw [Nat.mul_comm b, nearest_mul_mul hb]
    have hround : ∀ s k : Nat, Double.round ⟨s, (k : Int)⟩ = s * 2 ^ k := fun s k => by
      simp [Double.round]
    simp only [hbits, if_false, hshift]
    rw [exact_iff (not_le.mp hbits), ← nearest_mul_self]
    generalize Nat.log 2 n - 52 = k
    split_ifs with hlimit
    · rw [Option.map_some, hround, Option.some.injEq]
      exact ⟨fun heq => ⟨heq, heq ▸ hlimit⟩, And.left⟩
    · refine iff_of_false (fun h => by cases h) ?_
      rintro ⟨heq, hlt⟩
      exact hlimit (heq.symm ▸ hlt)

end AtmMonitor.Library.Binary64
