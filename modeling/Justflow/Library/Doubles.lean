import Mathlib.Data.Int.Log
import Mathlib.Data.Rat.Floor
import Mathlib.Tactic.FieldSimp
import Mathlib.Tactic.Linarith
import Mathlib.Tactic.NormNum
import Mathlib.Tactic.Positivity
import Mathlib.Tactic.Ring

/-!
# Rounding to a double

A quotient of two integers becomes the nearest number with a significand of 53 bits, the even one
of two that are as near.  The bounds of the exponent do not matter here.  A number is off by less
than the unit of its last place, and a small integer below it stays below it.
-/

namespace Doubles

def roundHalfEven (y : ℚ) : ℤ :=
  if y - ⌊y⌋ < 1 / 2 then ⌊y⌋
  else if 1 / 2 < y - ⌊y⌋ then ⌊y⌋ + 1
  else if ⌊y⌋ % 2 = 0 then ⌊y⌋
  else ⌊y⌋ + 1

/-- The unit in the last place of a positive number. -/
def ulp (x : ℚ) : ℚ :=
  2 ^ (Int.log 2 x - 52)

def roundPositive (x : ℚ) : ℚ :=
  roundHalfEven (x / ulp x) * ulp x

def round (x : ℚ) : ℚ :=
  if 0 < x then roundPositive x
  else if x < 0 then -roundPositive (-x)
  else 0

variable {x y : ℚ}

theorem floor_le_roundHalfEven (y : ℚ) : ⌊y⌋ ≤ roundHalfEven y := by
  rw [roundHalfEven]
  split_ifs <;> omega

theorem roundHalfEven_le (y : ℚ) : roundHalfEven y ≤ ⌊y⌋ + 1 := by
  rw [roundHalfEven]
  split_ifs <;> omega

theorem ulp_pos (x : ℚ) : 0 < ulp x :=
  zpow_pos (by norm_num) _

/-- A power of two up to the unit of the last place above its exponent. -/
theorem two_pow_mul_ulp (x : ℚ) : 2 ^ 52 * ulp x = 2 ^ Int.log 2 x := by
  rw [ulp, zpow_sub₀ (by norm_num)]
  norm_num
  ring

theorem two_pow_mul_ulp_le (hx : 0 < x) : 2 ^ 52 * ulp x ≤ x := by
  rw [two_pow_mul_ulp]
  exact_mod_cast Int.zpow_log_le_self one_lt_two hx

theorem ulp_le_self (hx : 0 < x) : ulp x ≤ x := by
  have below := two_pow_mul_ulp_le hx
  have positive := ulp_pos x
  linarith

theorem ulp_le_of_lt (hx : 0 < x) {k : ℤ} (h : x < 2 ^ k) : ulp x ≤ 2 ^ (k - 53) := by
  have exponent : Int.log 2 x < k := (Int.lt_zpow_iff_log_lt one_lt_two hx).mp (by exact_mod_cast h)
  exact zpow_le_zpow_right₀ (by norm_num) (by omega)

/-- What is a multiple of the unit and not above a number is not above the rounded number. -/
theorem le_roundPositive {multiple : ℕ} (h : multiple * ulp x ≤ x) :
    multiple * ulp x ≤ roundPositive x := by
  have below : (multiple : ℚ) ≤ x / ulp x := (le_div_iff₀ (ulp_pos x)).mpr h
  have floored : (multiple : ℤ) ≤ ⌊x / ulp x⌋ := Int.le_floor.mpr (by exact_mod_cast below)
  have rounded : (multiple : ℚ) ≤ roundHalfEven (x / ulp x) := by
    exact_mod_cast floored.trans (floor_le_roundHalfEven _)
  exact mul_le_mul_of_nonneg_right rounded (ulp_pos x).le

/-- An integer of at most 53 bits that is not above a number is not above the rounded number. -/
theorem natCast_le_round {n : ℕ} (hx : 0 < x) (small : n ≤ 2 ^ 53) (h : (n : ℚ) ≤ x) :
    (n : ℚ) ≤ round x := by
  rw [round, if_pos hx]
  by_cases exponent : Int.log 2 x ≤ 52
  · obtain ⟨k, hk⟩ := Int.eq_ofNat_of_zero_le (Int.sub_nonneg.mpr exponent)
    have multiple : ((n * 2 ^ k : ℕ) : ℚ) * ulp x = n := by
      have cancel : (2 : ℚ) ^ k * ulp x = 1 := by
        rw [ulp, ← zpow_natCast, ← zpow_add₀ (by norm_num)]
        have : (k : ℤ) + (Int.log 2 x - 52) = 0 := by omega
        rw [this, zpow_zero]
      push_cast
      rw [mul_assoc, cancel, mul_one]
    have := le_roundPositive (by rw [multiple]; exact h : ((n * 2 ^ k : ℕ) : ℚ) * ulp x ≤ x)
    rwa [multiple] at this
  · have large : (2 : ℚ) ^ 53 ≤ 2 ^ Int.log 2 x := by
      rw [← zpow_natCast]
      exact zpow_le_zpow_right₀ (by norm_num) (by push_cast; omega)
    have multiple : ((2 ^ 52 : ℕ) : ℚ) * ulp x = 2 ^ Int.log 2 x := by
      rw [← two_pow_mul_ulp]
      norm_num
    have below := le_roundPositive (by
      rw [multiple, ← two_pow_mul_ulp]
      exact two_pow_mul_ulp_le hx : ((2 ^ 52 : ℕ) : ℚ) * ulp x ≤ x)
    rw [multiple] at below
    have cast : (n : ℚ) ≤ 2 ^ 53 := by exact_mod_cast small
    exact cast.trans (large.trans below)

theorem sub_ulp_lt_round (hx : 0 < x) : x - ulp x < round x := by
  rw [round, if_pos hx, roundPositive]
  have below : x / ulp x - 1 < roundHalfEven (x / ulp x) :=
    (Int.sub_one_lt_floor _).trans_le (by exact_mod_cast floor_le_roundHalfEven _)
  calc x - ulp x = (x / ulp x - 1) * ulp x := by
        rw [sub_mul, div_mul_cancel₀ _ (ulp_pos x).ne', one_mul]
    _ < roundHalfEven (x / ulp x) * ulp x := mul_lt_mul_of_pos_right below (ulp_pos x)

theorem round_le_add_ulp (hx : 0 < x) : round x ≤ x + ulp x := by
  rw [round, if_pos hx, roundPositive]
  have above : (roundHalfEven (x / ulp x) : ℚ) ≤ x / ulp x + 1 := by
    have floored : (roundHalfEven (x / ulp x) : ℚ) ≤ ⌊x / ulp x⌋ + 1 := by
      exact_mod_cast roundHalfEven_le _
    exact floored.trans (by linarith [Int.floor_le (x / ulp x)])
  calc roundHalfEven (x / ulp x) * ulp x ≤ (x / ulp x + 1) * ulp x :=
        mul_le_mul_of_nonneg_right above (ulp_pos x).le
    _ = x + ulp x := by rw [add_mul, div_mul_cancel₀ _ (ulp_pos x).ne', one_mul]

theorem round_pos (hx : 0 < x) : 0 < round x := by
  rw [round, if_pos hx]
  have one : ((1 : ℕ) : ℚ) * ulp x ≤ x := by
    rw [Nat.cast_one, one_mul]
    exact ulp_le_self hx
  have below := le_roundPositive one
  rw [Nat.cast_one, one_mul] at below
  exact (ulp_pos x).trans_le below

theorem round_nonpos (hx : x ≤ 0) : round x ≤ 0 := by
  rw [round, if_neg hx.not_gt]
  split
  · next negative =>
      have positive := round_pos (neg_pos.mpr negative)
      rw [round, if_pos (neg_pos.mpr negative)] at positive
      exact (neg_neg_of_pos positive).le
  · exact le_refl 0

end Doubles
