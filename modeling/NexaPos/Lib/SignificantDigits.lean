import Mathlib.Data.Int.Log
import Mathlib.Data.Rat.Floor
import Mathlib.Tactic.FieldSimp
import Mathlib.Tactic.Linarith
import Mathlib.Tactic.Ring

/-!
# Rounding to a number of significant digits

A decimal context keeps the result of every operation to a fixed number of significant digits,
ties to even.  `significant digits x` is that result for an exact value `x`.  What a development
needs to know is when the context changes nothing: a value that is an integer of at most that
many digits, over a power of ten, is kept (`significant_div_pow`).
-/

namespace Rounding

/-- The integer nearest to `x`; a tie goes to the even one. -/
def roundHalfEven (x : ℚ) : ℤ :=
  if Int.fract x < 1 / 2 then ⌊x⌋
  else if 1 / 2 < Int.fract x then ⌊x⌋ + 1
  else if ⌊x⌋ % 2 = 0 then ⌊x⌋ else ⌊x⌋ + 1

@[simp] lemma roundHalfEven_intCast (n : ℤ) : roundHalfEven n = n := by
  unfold roundHalfEven
  rw [Int.fract_intCast, if_pos (by norm_num), Int.floor_intCast]

/-- `x` with the given number of significant decimal digits. -/
def significant (digits : ℕ) (x : ℚ) : ℚ :=
  let exponent := Int.log 10 |x| - (digits - 1)
  roundHalfEven (x / 10 ^ exponent) * 10 ^ exponent

@[simp] lemma significant_zero (digits : ℕ) : significant digits 0 = 0 := by
  have hzero : roundHalfEven 0 = 0 := by
    have h := roundHalfEven_intCast 0
    rwa [Int.cast_zero] at h
  simp [significant, hzero]

lemma abs_roundHalfEven_sub_le (x : ℚ) : |roundHalfEven x - x| ≤ 1 / 2 := by
  have hfloor := Int.floor_add_fract x
  have hnonneg := Int.fract_nonneg x
  have hlt := Int.fract_lt_one x
  have hdown : |(⌊x⌋ : ℚ) - x| = Int.fract x := by
    rw [abs_sub_comm, abs_of_nonneg (by linarith)]
    linarith
  have hup : |((⌊x⌋ + 1 : ℤ) : ℚ) - x| = 1 - Int.fract x := by
    push_cast
    rw [abs_of_nonneg (by linarith)]
    linarith
  unfold roundHalfEven
  split
  · rw [hdown]
    linarith
  · split
    · rw [hup]
      linarith
    · split
      · rw [hdown]
        linarith
      · rw [hup]
        linarith

/-- Keeping that many digits moves a value by at most half a unit of the last one. -/
lemma abs_significant_sub_le (digits : ℕ) (x : ℚ) :
    |significant digits x - x| ≤ |x| / (2 * 10 ^ ((digits : ℤ) - 1)) := by
  rcases eq_or_ne x 0 with rfl | hx
  · simp
  have hten : (10 : ℚ) ≠ 0 := by norm_num
  have habs : 0 < |x| := abs_pos.mpr hx
  have hpow : (10 : ℚ) ^ Int.log 10 |x| ≤ |x| := by
    have hlog := Int.zpow_log_le_self (b := 10) (by norm_num) habs
    exact_mod_cast hlog
  unfold significant
  set exponent := Int.log 10 |x| - ((digits : ℤ) - 1) with hexponent
  have hunit : (0 : ℚ) < 10 ^ exponent := zpow_pos (by norm_num) _
  have hkept : (0 : ℚ) < 10 ^ ((digits : ℤ) - 1) := zpow_pos (by norm_num) _
  have hsplit : roundHalfEven (x / 10 ^ exponent) * 10 ^ exponent - x =
      (roundHalfEven (x / 10 ^ exponent) - x / 10 ^ exponent) * 10 ^ exponent := by
    field_simp
  have hround := abs_roundHalfEven_sub_le (x / 10 ^ exponent)
  have hscale : (10 : ℚ) ^ exponent = 10 ^ Int.log 10 |x| / 10 ^ ((digits : ℤ) - 1) := by
    rw [hexponent, zpow_sub₀ hten]
  calc |(roundHalfEven (x / 10 ^ exponent) : ℚ) * 10 ^ exponent - x|
      = |(roundHalfEven (x / 10 ^ exponent) : ℚ) - x / 10 ^ exponent| * 10 ^ exponent := by
        rw [hsplit, abs_mul, abs_of_pos hunit]
    _ ≤ 1 / 2 * 10 ^ exponent := mul_le_mul_of_nonneg_right hround hunit.le
    _ ≤ 1 / 2 * (|x| / 10 ^ ((digits : ℤ) - 1)) := by
        rw [hscale]
        exact mul_le_mul_of_nonneg_left (div_le_div_of_nonneg_right hpow hkept.le) (by norm_num)
    _ = |x| / (2 * 10 ^ ((digits : ℤ) - 1)) := by
        field_simp

/-- An integer of at most that many digits over a power of ten is kept. -/
lemma significant_div_pow (digits places : ℕ) {m : ℤ} (h : |m| < 10 ^ digits) :
    significant digits (m / 10 ^ places) = m / 10 ^ places := by
  rcases eq_or_ne m 0 with rfl | hm
  · simp
  set x : ℚ := m / 10 ^ places with hx
  set exponent := Int.log 10 |x| - (digits - 1) with hexponent
  have hten : (10 : ℚ) ≠ 0 := by norm_num
  have hx0 : 0 < |x| := by
    rw [hx]
    have hm' : (m : ℚ) ≠ 0 := by exact_mod_cast hm
    positivity
  -- the last kept digit is not above the last digit of the value
  have hle : exponent ≤ -(places : ℤ) := by
    have hlog : (10 : ℚ) ^ Int.log 10 |x| ≤ |x| := by
      have hpow := Int.zpow_log_le_self (b := 10) (by norm_num) hx0
      exact_mod_cast hpow
    have hbound : |x| < 10 ^ ((digits : ℤ) - places) := by
      have hm' : |(m : ℚ)| < 10 ^ digits := by exact_mod_cast h
      rw [hx, abs_div, abs_of_pos (by positivity : (0 : ℚ) < 10 ^ places), zpow_sub₀ hten,
        zpow_natCast, zpow_natCast]
      gcongr
    have hlt := (zpow_lt_zpow_iff_right₀ (by norm_num : (1 : ℚ) < 10)).mp (hlog.trans_lt hbound)
    omega
  obtain ⟨k, hk⟩ := Int.eq_ofNat_of_zero_le (by omega : 0 ≤ -(places : ℤ) - exponent)
  have hscaled : x / 10 ^ exponent = ((m * 10 ^ k : ℤ) : ℚ) := by
    have hpow : (10 : ℚ) ^ k = 10 ^ (-(places : ℤ)) / 10 ^ exponent := by
      rw [← zpow_natCast, ← hk, zpow_sub₀ hten]
    push_cast
    rw [hpow, hx, zpow_neg, zpow_natCast]
    field_simp
  have hpos : (10 : ℚ) ^ exponent ≠ 0 := zpow_ne_zero _ hten
  show roundHalfEven (x / 10 ^ exponent) * 10 ^ exponent = x
  rw [hscaled, roundHalfEven_intCast, ← hscaled]
  field_simp

end Rounding
