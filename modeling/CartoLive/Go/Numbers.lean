import CartoLive.Go.Text
import Mathlib.Data.Int.Log
import Mathlib.Data.Nat.Notation
import Mathlib.Data.Rat.Floor
import Mathlib.Tactic.FieldSimp
import Mathlib.Tactic.Linarith
import Mathlib.Tactic.Ring

/-!
# Numbers of Go

Doubles, as they are rounded, and signed 64-bit integers.

The result of a division of doubles is the double next to the exact quotient, the
even one of two. Quotients here are zero or far from the limits of the exponent,
so that their precision is 53 bits. A sum of doubles that is small is exact.
-/

namespace CartoLive.Go

/-! ## The next integer -/

/-- The integer next to a rational, the even one of two. -/
def roundEven (q : ℚ) : ℤ :=
  if q - ⌊q⌋ < 1 / 2 then ⌊q⌋
  else if 1 / 2 < q - ⌊q⌋ then ⌊q⌋ + 1
  else if ⌊q⌋ % 2 = 0 then ⌊q⌋
  else ⌊q⌋ + 1

theorem roundEven_le {q : ℚ} {n : ℤ} (h : q ≤ n) : roundEven q ≤ n := by
  have hfloor : ⌊q⌋ ≤ n := Int.floor_le_iff.mpr (by linarith)
  rcases hfloor.eq_or_lt with heq | hlt
  · have hsame : (⌊q⌋ : ℚ) ≤ q := Int.floor_le q
    rw [roundEven, if_pos, heq]
    rw [heq]
    linarith
  · unfold roundEven
    split
    · omega
    split
    · omega
    split <;> omega

theorem le_roundEven {q : ℚ} {n : ℤ} (h : (n : ℚ) ≤ q) : n ≤ roundEven q := by
  have hfloor : n ≤ ⌊q⌋ := Int.le_floor.mpr h
  unfold roundEven
  split
  · omega
  split
  · omega
  split <;> omega

theorem abs_roundEven_sub_le (q : ℚ) : |(roundEven q : ℚ) - q| ≤ 1 / 2 := by
  have hle := Int.floor_le q
  have hlt := Int.lt_floor_add_one q
  rw [abs_le]
  unfold roundEven
  split
  · constructor <;> linarith
  split
  · push_cast
    constructor <;> linarith
  split
  · constructor <;> linarith
  · push_cast
    constructor <;> linarith

/-! ## The next double -/

/-- The distance of doubles of a magnitude. -/
def ulp (q : ℚ) : ℚ := 2 ^ (Int.log 2 |q| - 52)

/-- The double next to a rational. -/
def roundFloat64 (q : ℚ) : ℚ := roundEven (q / ulp q) * ulp q

theorem ulp_pos (q : ℚ) : 0 < ulp q := zpow_pos two_pos _

theorem log_le {q : ℚ} {k : ℕ} (h : |q| < 2 ^ (k + 1)) : Int.log 2 |q| ≤ k := by
  rcases (abs_nonneg q).eq_or_lt with hzero | hpos
  · rw [← hzero, Int.log_of_right_le_zero 2 le_rfl]
    exact Int.natCast_nonneg k
  · have hlt : |q| < ((2 : ℕ) : ℚ) ^ ((k : ℤ) + 1) := by
      rw [← Int.natCast_succ, zpow_natCast]
      exact_mod_cast h
    have := (Int.lt_zpow_iff_log_lt one_lt_two hpos).mp hlt
    omega

theorem ulp_le {q : ℚ} {k : ℕ} (h : |q| < 2 ^ (k + 1)) : ulp q ≤ 2 ^ ((k : ℤ) - 52) :=
  zpow_le_zpow_right₀ one_le_two (Int.sub_le_sub_right (log_le h) 52)

/-- An integer is a multiple of the distance of doubles that are not greater than it can be. -/
theorem exists_mul_ulp {q : ℚ} (h : |q| < 2 ^ (52 + 1)) (n : ℤ) : ∃ m : ℤ, (n : ℚ) = m * ulp q := by
  obtain ⟨j, hj⟩ := Int.eq_ofNat_of_zero_le (Int.sub_nonneg.mpr (log_le h))
  refine ⟨n * 2 ^ j, ?_⟩
  have hexp : Int.log 2 |q| - 52 = -(j : ℤ) := by
    rw [← hj]
    push_cast
    ring
  rw [ulp, hexp, zpow_neg, zpow_natCast]
  push_cast
  field_simp

theorem roundFloat64_le {q : ℚ} {n : ℤ} (hq : |q| < 2 ^ (52 + 1)) (h : q ≤ n) :
    roundFloat64 q ≤ n := by
  obtain ⟨m, hm⟩ := exists_mul_ulp hq n
  have hpos := ulp_pos q
  have hround : roundEven (q / ulp q) ≤ m := roundEven_le ((div_le_iff₀ hpos).mpr (hm ▸ h))
  rw [roundFloat64, hm]
  exact mul_le_mul_of_nonneg_right (by exact_mod_cast hround) hpos.le

theorem le_roundFloat64 {q : ℚ} {n : ℤ} (hq : |q| < 2 ^ (52 + 1)) (h : (n : ℚ) ≤ q) :
    (n : ℚ) ≤ roundFloat64 q := by
  obtain ⟨m, hm⟩ := exists_mul_ulp hq n
  have hpos := ulp_pos q
  have hround : m ≤ roundEven (q / ulp q) := le_roundEven ((le_div_iff₀ hpos).mpr (hm ▸ h))
  rw [roundFloat64, hm]
  exact mul_le_mul_of_nonneg_right (by exact_mod_cast hround) hpos.le

/-- A double is at most half of the distance away. -/
theorem abs_roundFloat64_sub_le (q : ℚ) : |roundFloat64 q - q| ≤ ulp q / 2 := by
  have hpos := ulp_pos q
  have hsplit : roundFloat64 q - q = (roundEven (q / ulp q) - q / ulp q) * ulp q := by
    rw [roundFloat64, sub_mul, div_mul_cancel₀ _ hpos.ne']
  rw [hsplit, abs_mul, abs_of_pos hpos]
  have := mul_le_mul_of_nonneg_right (abs_roundEven_sub_le (q / ulp q)) hpos.le
  linarith

/-! ## Sums -/

theorem roundFloat64_pos {q : ℚ} (h : 0 < q) : 0 < roundFloat64 q := by
  have hone : ((1 : ℤ) : ℚ) ≤ q / ulp q := by
    rw [le_div_iff₀ (ulp_pos q), Int.cast_one, one_mul]
    have hlog : (2 : ℚ) ^ Int.log 2 |q| ≤ |q| := Int.zpow_log_le_self one_lt_two (abs_pos.mpr h.ne')
    have hulp : ulp q ≤ 2 ^ Int.log 2 |q| := zpow_le_zpow_right₀ one_le_two (by omega)
    exact hulp.trans (hlog.trans (abs_of_pos h).le)
  have hround : (1 : ℤ) ≤ roundEven (q / ulp q) := le_roundEven hone
  exact mul_pos (by exact_mod_cast hround) (ulp_pos q)

namespace F64

/-- The double next to a rational; one that is too great is infinite. -/
def ofRat (q : ℚ) : F64 :=
  if 2 ^ 1024 ≤ |roundFloat64 q| then .inf (q < 0) else .fin (roundFloat64 q)

/-- IEEE `+`. -/
def add : F64 → F64 → F64
  | .nan, _ | _, .nan => .nan
  | .inf x, .inf y => if x = y then .inf x else .nan
  | .inf x, .fin _ | .fin _, .inf x => .inf x
  | .fin x, .fin y => ofRat (x + y)

theorem ofRat_pos {q : ℚ} (h : 0 < q) : (ofRat q).le (.fin 0) = false := by
  unfold ofRat
  split
  · rw [decide_eq_false (not_lt.mpr h.le)]
    rfl
  · exact decide_eq_false (not_le.mpr (roundFloat64_pos h))

/-- A sum of a number that is not negative and one that is positive, or is not a number. -/
theorem add_pos {x y : F64} (hx : x = .fin 0 ∨ x.le (.fin 0) = false)
    (hy : y.le (.fin 0) = false) : (x.add y).le (.fin 0) = false := by
  have hfin : ∀ {q : ℚ}, (F64.fin q).le (.fin 0) = false → 0 < q := fun hq =>
    not_le.mp (of_decide_eq_false hq)
  cases x with
  | nan => cases y <;> rfl
  | inf negative =>
    have hpos : negative = false := by
      rcases hx with hx | hx
      · cases hx
      · cases negative
        · rfl
        · cases hx
    cases y with
    | nan => rfl
    | fin b =>
      rw [hpos]
      rfl
    | inf other =>
      cases other
      · rw [hpos]
        rfl
      · cases hy
  | fin a =>
    cases y with
    | nan => rfl
    | inf other =>
      cases other
      · rfl
      · cases hy
    | fin b =>
      have hb := hfin hy
      have ha : 0 ≤ a := by
        rcases hx with hx | hx
        · cases hx
          exact le_refl _
        · exact (hfin hx).le
      exact ofRat_pos (by linarith)

end F64

end CartoLive.Go

/-!
## Signed 64-bit integers

An `int64` is an integer of its range. A sum, difference or product that leaves
the range is taken modulo `2^64`, back into it.
-/

namespace CartoLive.Go

/-- The values of an `int64`. -/
def FitsInt64 (x : Int) : Prop := -9223372036854775808 ≤ x ∧ x < 9223372036854775808

instance : DecidablePred FitsInt64 := fun x => by
  unfold FitsInt64
  infer_instance

/-- The `int64` that a result of arithmetic becomes. -/
def wrapInt64 (x : Int) : Int :=
  (x + 9223372036854775808) % 18446744073709551616 - 9223372036854775808

theorem wrapInt64_of_fits {x : Int} (h : FitsInt64 x) : wrapInt64 x = x := by
  obtain ⟨hlo, hhi⟩ := h
  unfold wrapInt64
  omega

theorem fits_wrapInt64 (x : Int) : FitsInt64 (wrapInt64 x) := by
  unfold FitsInt64 wrapInt64
  omega

theorem fits_toInt (x : Int64) : FitsInt64 x.toInt := by
  have hlo := x.le_toInt
  have hhi := x.toInt_lt
  unfold FitsInt64
  omega

end CartoLive.Go
