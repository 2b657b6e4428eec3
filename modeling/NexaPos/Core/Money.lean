import NexaPos.Lib.Rounding
import Mathlib.Tactic.FieldSimp
import Mathlib.Tactic.Ring
import Mathlib.Tactic.Abel

/-!
# Decimal money and quantities

Every amount and every quantity the application stores is a decimal column with three places.
A stored value is kept here as its number of thousandths, an integer: sums, differences and
comparisons of stored values are then exact integer facts, and `money` around such a sum is the
identity.  A value in flight (a price times a quantity, a quantity as it was typed) is a
rational number, `dec` reads a stored value back as one, and `money` and `qty` are the only ways
from a rational to a stored value.

The source quantizes with `ROUND_HALF_UP`, which for decimals means ties away from zero; the
column conversion of the production database rounds the same way, so a value saved into a
column without an explicit `qty` is modelled by `qty` too.
-/

namespace NexaPos

open Rounding

/-- A stored three-place decimal, kept in thousandths, read back into a computation. -/
def dec (m : ℤ) : ℚ := m / 1000

/-- `Decimal.quantize` to the given number of places, in units of the last place. -/
def quantize (places : ℕ) (x : ℚ) : ℤ := roundHalfAway (x * 10 ^ places)

/-- `money(value)`: three places, half up. -/
def money (x : ℚ) : ℤ := quantize 3 x

/-- `qty(value)`: three places, half up. -/
def qty (x : ℚ) : ℤ := quantize 3 x

/-- `round_to_precision(value, places)`: the display precision is clamped to 0..3. -/
def roundToPrecision (x : ℚ) (places : ℤ) : ℚ :=
  let p := (max 0 (min places 3)).toNat
  quantize p x / 10 ^ p

/-! ## Reading stored values -/

@[simp] lemma dec_zero : dec 0 = 0 := by simp [dec]

lemma dec_add (a b : ℤ) : dec (a + b) = dec a + dec b := by
  simp only [dec, Int.cast_add]
  ring

lemma dec_neg (a : ℤ) : dec (-a) = -dec a := by
  simp only [dec, Int.cast_neg]
  ring

lemma dec_sub (a b : ℤ) : dec (a - b) = dec a - dec b := by
  rw [sub_eq_add_neg, dec_add, dec_neg, ← sub_eq_add_neg]

lemma dec_sum_map {α : Type*} (f : α → ℤ) (rows : List α) :
    dec (rows.map f).sum = (rows.map fun a => dec (f a)).sum := by
  induction rows with
  | nil => simp
  | cons a rows ih => rw [List.map_cons, List.sum_cons, dec_add, ih, List.map_cons, List.sum_cons]

lemma sum_map_sub {α G : Type*} [AddCommGroup G] (f g : α → G) (rows : List α) :
    (rows.map fun a => f a - g a).sum = (rows.map f).sum - (rows.map g).sum := by
  induction rows with
  | nil => simp
  | cons a rows ih =>
    simp only [List.map_cons, List.sum_cons, ih]
    abel

lemma dec_le_dec {a b : ℤ} : dec a ≤ dec b ↔ a ≤ b := by
  unfold dec
  rw [div_le_div_iff_of_pos_right (by norm_num), Int.cast_le]

lemma dec_lt_dec {a b : ℤ} : dec a < dec b ↔ a < b := by
  rw [← not_le, dec_le_dec, not_le]

lemma dec_injective : Function.Injective dec := fun a b h => by
  have h₁ := dec_le_dec.mp h.le
  have h₂ := dec_le_dec.mp h.ge
  omega

lemma dec_nonneg {a : ℤ} : 0 ≤ dec a ↔ 0 ≤ a := by
  rw [← dec_zero, dec_le_dec]

lemma dec_pos {a : ℤ} : 0 < dec a ↔ 0 < a := by
  rw [← dec_zero, dec_lt_dec]

/-! ## Rounding to a stored value -/

lemma dec_mul_thousand (m : ℤ) : dec m * 10 ^ 3 = m := by
  unfold dec
  norm_num

@[simp] lemma money_dec (m : ℤ) : money (dec m) = m := by
  unfold money quantize
  rw [dec_mul_thousand, roundHalfAway_intCast]

@[simp] lemma qty_dec (m : ℤ) : qty (dec m) = m := money_dec m

@[simp] lemma money_zero : money 0 = 0 := by simpa using money_dec 0

@[simp] lemma qty_zero : qty 0 = 0 := money_zero

@[simp] lemma qty_one : qty 1 = 1000 := by
  have hone : dec 1000 = 1 := by
    unfold dec
    norm_num
  rw [← hone, qty_dec]

@[simp] lemma money_neg (x : ℚ) : money (-x) = -money x := by
  unfold money quantize
  rw [neg_mul, roundHalfAway_neg]

@[simp] lemma qty_neg (x : ℚ) : qty (-x) = -qty x := money_neg x

lemma money_mono {x y : ℚ} (h : x ≤ y) : money x ≤ money y := by
  unfold money quantize
  exact roundHalfAway_mono (by linarith)

lemma qty_mono {x y : ℚ} (h : x ≤ y) : qty x ≤ qty y := money_mono h

lemma money_nonneg {x : ℚ} (h : 0 ≤ x) : 0 ≤ money x := by
  simpa using money_mono h

lemma qty_nonneg {x : ℚ} (h : 0 ≤ x) : 0 ≤ qty x := money_nonneg h

lemma qty_le_of_le_dec {x : ℚ} {m : ℤ} (h : x ≤ dec m) : qty x ≤ m := by
  simpa using qty_mono h

lemma money_le_of_le_dec {x : ℚ} {m : ℤ} (h : x ≤ dec m) : money x ≤ m := by
  simpa using money_mono h

/-- A stored part can be split off before rounding. -/
lemma qty_dec_add {m : ℤ} {x : ℚ} (hm : 0 ≤ m) (hx : 0 ≤ x) : qty (dec m + x) = m + qty x := by
  have hsplit : (dec m + x) * 10 ^ 3 = (m : ℚ) + x * 10 ^ 3 := by
    rw [add_mul, dec_mul_thousand]
  unfold qty quantize
  rw [hsplit]
  exact roundHalfAway_intCast_add hm (by positivity)

/-- Rounding to the stored precision gains at most half a thousandth. -/
lemma money_le_add_half (x : ℚ) : (money x : ℚ) ≤ x * 1000 + 1 / 2 := by
  have h := roundHalfAway_le_add_half (x * 10 ^ 3)
  unfold money quantize
  linarith

lemma sub_half_le_money (x : ℚ) : x * 1000 - 1 / 2 ≤ (money x : ℚ) := by
  have h := sub_half_le_roundHalfAway (x * 10 ^ 3)
  unfold money quantize
  linarith

/-- A quantity that already has at most three decimals. -/
def Stored (x : ℚ) : Prop := dec (qty x) = x

instance (x : ℚ) : Decidable (Stored x) := inferInstanceAs (Decidable (_ = _))

end NexaPos
