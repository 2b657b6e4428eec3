import Mathlib.Algebra.Order.Round
import Mathlib.Data.Rat.Floor
import Mathlib.Tactic.Linarith

/-!
# Rounding to the nearest integer, ties away from zero

`roundHalfAway` is the rounding mode that decimal libraries call *half up* and that SQL calls
numeric rounding: a value half way between two integers goes to the one further from zero.
Mathlib's `round` breaks ties towards positive infinity, so the two agree on non-negative
values and `roundHalfAway` is the odd extension of that half.

Everything a fixed-point development needs from it is here: it fixes the integers, it is
monotone and odd, it commutes with adding an integer to a non-negative value, and it is at most
one half away from its argument.
-/

namespace Rounding

variable {α : Type*} [Field α] [LinearOrder α] [IsStrictOrderedRing α] [FloorRing α]

/-- The integer nearest to `x`; a tie goes to the integer further from zero. -/
def roundHalfAway (x : α) : ℤ :=
  if 0 ≤ x then round x else -round (-x)

omit [IsStrictOrderedRing α] in
lemma roundHalfAway_of_nonneg {x : α} (hx : 0 ≤ x) : roundHalfAway x = round x :=
  if_pos hx

omit [IsStrictOrderedRing α] in
lemma roundHalfAway_of_neg {x : α} (hx : x < 0) : roundHalfAway x = -round (-x) :=
  if_neg (not_le.mpr hx)

@[simp] lemma roundHalfAway_intCast (n : ℤ) : roundHalfAway (n : α) = n := by
  unfold roundHalfAway
  split
  · exact round_intCast n
  · rw [← Int.cast_neg, round_intCast, neg_neg]

@[simp] lemma roundHalfAway_zero : roundHalfAway (0 : α) = 0 := by
  simpa using roundHalfAway_intCast (α := α) 0

/-- The mode is odd: rounding a debit is the negation of rounding the credit. -/
@[simp] lemma roundHalfAway_neg (x : α) : roundHalfAway (-x) = -roundHalfAway x := by
  rcases lt_trichotomy x 0 with hx | rfl | hx
  · rw [roundHalfAway_of_neg hx, roundHalfAway_of_nonneg (by linarith), neg_neg]
  · simp
  · rw [roundHalfAway_of_neg (by linarith : -x < 0), roundHalfAway_of_nonneg hx.le, neg_neg]

/-- Mathlib's `round` is monotone; the tie rule is the same on both sides. -/
lemma round_mono' {x y : α} (h : x ≤ y) : round x ≤ round y := by
  rw [round_eq, round_eq]
  exact Int.floor_mono (by linarith)

lemma roundHalfAway_nonneg {x : α} (hx : 0 ≤ x) : 0 ≤ roundHalfAway x := by
  rw [roundHalfAway_of_nonneg hx, ← round_zero (α := α)]
  exact round_mono' hx

lemma roundHalfAway_nonpos {x : α} (hx : x ≤ 0) : roundHalfAway x ≤ 0 := by
  have h : 0 ≤ roundHalfAway (-x) := roundHalfAway_nonneg (by linarith)
  rw [roundHalfAway_neg] at h
  omega

lemma roundHalfAway_mono {x y : α} (h : x ≤ y) : roundHalfAway x ≤ roundHalfAway y := by
  rcases le_or_gt 0 x with hx | hx
  · rw [roundHalfAway_of_nonneg hx, roundHalfAway_of_nonneg (hx.trans h)]
    exact round_mono' h
  · rcases le_or_gt 0 y with hy | hy
    · exact (roundHalfAway_nonpos hx.le).trans (roundHalfAway_nonneg hy)
    · rw [roundHalfAway_of_neg hx, roundHalfAway_of_neg hy]
      have := round_mono' (neg_le_neg h)
      omega

/-- No value moves by more than half a unit. -/
lemma abs_sub_roundHalfAway (x : α) : |x - roundHalfAway x| ≤ 1 / 2 := by
  rcases le_or_gt 0 x with hx | hx
  · rw [roundHalfAway_of_nonneg hx]
    exact abs_sub_round x
  · rw [roundHalfAway_of_neg hx, Int.cast_neg, sub_neg_eq_add, ← abs_neg]
    have h := abs_sub_round (-x)
    rwa [show -(x + (round (-x) : α)) = -x - round (-x) by ring]

lemma roundHalfAway_le_add_half (x : α) : (roundHalfAway x : α) ≤ x + 1 / 2 := by
  have h := (abs_le.mp (abs_sub_roundHalfAway x)).1
  linarith

lemma sub_half_le_roundHalfAway (x : α) : x - 1 / 2 ≤ (roundHalfAway x : α) := by
  have h := (abs_le.mp (abs_sub_roundHalfAway x)).2
  linarith

/-- On the non-negative side an integer part can be split off before rounding. -/
lemma roundHalfAway_intCast_add {x : α} {n : ℤ} (hn : 0 ≤ n) (hx : 0 ≤ x) :
    roundHalfAway ((n : α) + x) = n + roundHalfAway x := by
  have hn' : (0 : α) ≤ n := by exact_mod_cast hn
  rw [roundHalfAway_of_nonneg hx, roundHalfAway_of_nonneg (by linarith), add_comm (n : α),
    round_add_intCast, add_comm]

/-! ## Moving by an integer -/

/-- Half way between two integers. -/
def IsTie (x : α) : Prop := Int.fract x = 1 / 2

instance (x : α) : Decidable (IsTie x) := inferInstanceAs (Decidable (_ = _))

/-- The mode rounds up from half way, except below zero at a tie. -/
lemma roundHalfAway_eq_floor (x : α) :
    roundHalfAway x = ⌊x + 1 / 2⌋ - if x < 0 ∧ IsTie x then 1 else 0 := by
  rcases le_or_gt 0 x with hx | hx
  · rw [roundHalfAway_of_nonneg hx, round_eq, if_neg fun h => absurd h.1 (not_lt.mpr hx), sub_zero]
  · have hceil : roundHalfAway x = ⌈x - 1 / 2⌉ := by
      rw [roundHalfAway_of_neg hx, round_eq, ← Int.ceil_neg]
      congr 1
      ring
    rw [hceil]
    have hfloor := Int.floor_add_fract x
    by_cases htie : IsTie x
    · rw [if_pos ⟨hx, htie⟩]
      unfold IsTie at htie
      rw [htie] at hfloor
      have hup : x + 1 / 2 = ((⌊x⌋ + 1 : ℤ) : α) := by
        push_cast
        linarith
      have hdown : x - 1 / 2 = (⌊x⌋ : α) := by linarith
      rw [hup, hdown, Int.floor_intCast, Int.ceil_intCast]
      omega
    · rw [if_neg fun h => htie h.2, sub_zero, Int.ceil_eq_iff]
      have hle := Int.floor_le (x + 1 / 2)
      have hlt := Int.lt_floor_add_one (x + 1 / 2)
      refine ⟨?_, by linarith⟩
      rcases lt_or_eq_of_le hle with hstrict | heq
      · linarith
      · refine absurd ?_ htie
        have hx' : x = ((⌊x + 1 / 2⌋ - 1 : ℤ) : α) + 1 / 2 := by
          push_cast
          linarith
        unfold IsTie
        rw [hx', Int.fract_intCast_add, Int.fract_eq_self]
        constructor <;> norm_num

/-- Subtracting an integer before rounding or after differ exactly at a tie that the subtraction
takes to the other side of zero. -/
lemma roundHalfAway_sub_intCast_iff (x : α) (n : ℤ) :
    roundHalfAway (x - n) = roundHalfAway x - n ↔ (IsTie x → (x < 0 ↔ x < n)) := by
  have htie : IsTie (x - n) ↔ IsTie x := by rw [IsTie, Int.fract_sub_intCast, IsTie]
  have hfloor : ⌊x - n + 1 / 2⌋ = ⌊x + 1 / 2⌋ - n := by
    rw [← Int.floor_sub_intCast]
    congr 1
    ring
  rw [roundHalfAway_eq_floor, roundHalfAway_eq_floor, hfloor]
  simp only [htie, sub_neg]
  generalize ⌊x + 1 / 2⌋ = m
  by_cases hx : IsTie x
  · by_cases h0 : x < 0 <;> by_cases hn : x < n <;> simp [hx, h0, hn] <;> omega
  · simp [hx]

end Rounding
