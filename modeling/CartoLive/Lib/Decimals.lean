import Mathlib.Algebra.Order.Round
import Mathlib.Algebra.Order.Field.Rat
import Mathlib.Data.Rat.Floor

/-!
# Decimal fractions

Rounding to a number of decimals, with a tie away from zero, and the digits of a decimal
fraction: what zeros in front and behind do to the number they stand for.
-/

namespace CartoLive.Lib.Decimals

/-- The absolute value in units of the last decimal, rounded. -/
def units (decimals : Nat) (x : ℚ) : Nat := (round (|x| * 10 ^ decimals)).toNat

/-- The nearest number with so many decimals; of two, the one further from zero. -/
def roundTo (decimals : Nat) (x : ℚ) : ℚ :=
  (if x < 0 then -1 else 1) * (units decimals x / 10 ^ decimals)

theorem units_le {decimals : Nat} {x : ℚ} {b : Nat} (h : |x| ≤ b) :
    units decimals x ≤ b * 10 ^ decimals := by
  have hpow : (0 : ℚ) ≤ 10 ^ decimals := by positivity
  have hle : |x| * 10 ^ decimals ≤ ((b * 10 ^ decimals : Nat) : ℚ) := by
    push_cast
    exact mul_le_mul_of_nonneg_right h hpow
  have hround : round (|x| * 10 ^ decimals) ≤ ((b * 10 ^ decimals : Nat) : Int) := by
    rw [← round_natCast (α := ℚ), round_eq, round_eq]
    exact Int.floor_mono (by linarith)
  rw [units]
  omega

/-- A range between whole numbers of opposite sign keeps what is rounded in it. -/
theorem abs_roundTo_le {decimals : Nat} {x : ℚ} {b : Nat} (h : |x| ≤ b) :
    |roundTo decimals x| ≤ b := by
  have hpow : (0 : ℚ) < 10 ^ decimals := by positivity
  have hle : units decimals x ≤ b * 10 ^ decimals := units_le h
  have hunits : (units decimals x : ℚ) ≤ b * 10 ^ decimals := by exact_mod_cast hle
  have hquot : |((units decimals x : ℚ)) / 10 ^ decimals| ≤ b := by
    rw [abs_of_nonneg (by positivity)]
    exact (div_le_iff₀ hpow).mpr hunits
  rw [roundTo, abs_mul]
  split
  · rwa [abs_neg, abs_one, one_mul]
  · rwa [abs_one, one_mul]

theorem roundTo_nonneg {decimals : Nat} {x : ℚ} (h : 0 ≤ x) : 0 ≤ roundTo decimals x := by
  rw [roundTo, if_neg (not_lt.mpr h), one_mul]
  positivity

/-! ## Digits -/

/-- The number that digits stand for, with the point before the last of them. -/
def fraction (digits : List Char) (decimals : Nat) : ℚ :=
  Nat.ofDigitChars 10 digits 0 / 10 ^ decimals

theorem ofDigitChars_leftpad (n k : Nat) :
    Nat.ofDigitChars 10 ((Nat.toDigits 10 n).leftpad k '0') 0 = n := by
  rw [List.leftpad, Nat.ofDigitChars_append, Nat.ofDigitChars_replicate_zero, Nat.mul_zero,
    Nat.ofDigitChars_ten_toDigits]

/-- Zeros behind the point's digits. -/
theorem fraction_append_replicate (digits : List Char) (decimals zeros : Nat) :
    fraction (digits ++ List.replicate zeros '0') (decimals + zeros) =
      fraction digits decimals := by
  have hpow : (10 : ℚ) ^ zeros ≠ 0 := by positivity
  rw [fraction, Nat.ofDigitChars_append, Nat.ofDigitChars_replicate_zero, fraction, pow_add]
  push_cast
  rw [mul_comm ((10 : ℚ) ^ zeros), mul_div_mul_right _ _ hpow]

end CartoLive.Lib.Decimals
