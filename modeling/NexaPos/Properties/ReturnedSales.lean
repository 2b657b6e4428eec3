import NexaPos.Properties.Refunds
import NexaPos.Properties.Returns
import NexaPos.Properties.BookedProfit

/-!
# What is left of a sale that came back

A line that came back whole has no net figures where they are taken from `returned_quantity`:
nothing is left of it.  Where they are taken from the return rows, each row takes off its own
rounded part of the tax and of the cost and the refund that was recorded with it.  What is left
then is what the roundings of the rows leave, which is bounded by their number.
-/

namespace NexaPos

open Tx Rounding

/-! ## Rounded parts of a value -/

/-- Keeping 28 digits moves a value by less than one part in 10^27. -/
lemma abs_decimalContext_sub_le (x : ℚ) : |decimalContext x - x| ≤ |x| / 10 ^ 27 := by
  have h := abs_significant_sub_le 28 x
  have hpart : |x| / (2 * 10 ^ (((28 : ℕ) : ℤ) - 1)) ≤ |x| / 10 ^ 27 := by
    apply div_le_div_of_nonneg_left (abs_nonneg x) (by norm_num)
    norm_num
  unfold decimalContext
  linarith

lemma abs_money_sub_le (x : ℚ) : |(money x : ℚ) - 1000 * x| ≤ 1 / 2 := by
  have hupper := money_le_add_half x
  have hlower := sub_half_le_money x
  rw [abs_le]
  constructor <;> linarith

/-- The rounded part of a value in proportion to a quantity. -/
lemma abs_proportionOf_sub_le (value : ℚ) {quantity whole : ℤ} (hquantity : 0 ≤ quantity)
    (hpos : 0 < whole) :
    |(proportionOf value (quantityRatio quantity whole) : ℚ) -
        1000 * value * (quantity / whole)| ≤
      1 / 2 + 1000 * |value| * (quantity / whole) / 10 ^ 26 := by
  have hq : (0 : ℚ) ≤ quantity := by exact_mod_cast hquantity
  have hw : (0 : ℚ) < whole := by exact_mod_cast hpos
  set ratio : ℚ := quantity / whole with hratio
  have hratioNonneg : 0 ≤ ratio := by positivity
  have hdec : dec quantity / dec whole = ratio := by
    unfold dec
    rw [hratio]
    field_simp
  have hkept : |quantityRatio quantity whole - ratio| ≤ ratio / 10 ^ 27 := by
    have h := abs_decimalContext_sub_le ratio
    rw [abs_of_nonneg hratioNonneg] at h
    unfold quantityRatio
    rw [hdec]
    exact h
  set kept := quantityRatio quantity whole with hkeptEq
  have hproduct : |value * kept - value * ratio| ≤ |value| * (ratio / 10 ^ 27) := by
    rw [← mul_sub, abs_mul]
    exact mul_le_mul_of_nonneg_left hkept (abs_nonneg value)
  have hsize : |value * kept| ≤ 2 * (|value| * ratio) := by
    have htriangle := abs_add_le (value * kept - value * ratio) (value * ratio)
    rw [sub_add_cancel, abs_mul value ratio, abs_of_nonneg hratioNonneg] at htriangle
    have hsmall : |value| * (ratio / 10 ^ 27) ≤ |value| * ratio := by
      apply mul_le_mul_of_nonneg_left _ (abs_nonneg value)
      exact div_le_self hratioNonneg (by norm_num)
    linarith
  have hcontext := abs_decimalContext_sub_le (value * kept)
  have hmoney := abs_money_sub_le (decimalContext (value * kept))
  have hscale : |value * kept| / 10 ^ 27 ≤ 2 * (|value| * ratio) / 10 ^ 27 :=
    div_le_div_of_nonneg_right hsize (by norm_num)
  have hvalue : 0 ≤ |value| * ratio := by positivity
  have hfirst := abs_sub_le ((money (decimalContext (value * kept)) : ℚ))
    (1000 * decimalContext (value * kept)) (1000 * (value * ratio))
  have hsecond : |1000 * decimalContext (value * kept) - 1000 * (value * ratio)| ≤
      1000 * (2 * (|value| * ratio) / 10 ^ 27 + |value| * (ratio / 10 ^ 27)) := by
    rw [← mul_sub, abs_mul, abs_of_nonneg (by norm_num : (0 : ℚ) ≤ 1000)]
    have h := abs_sub_le (decimalContext (value * kept)) (value * kept) (value * ratio)
    linarith
  have hsum : 1000 * (2 * (|value| * ratio) / 10 ^ 27 + |value| * (ratio / 10 ^ 27)) ≤
      1000 * |value| * ratio / 10 ^ 26 := by
    have heq : 1000 * (2 * (|value| * ratio) / 10 ^ 27 + |value| * (ratio / 10 ^ 27)) =
        3 / 10 * (1000 * |value| * ratio / 10 ^ 26) := by ring
    rw [heq]
    have hnonneg : 0 ≤ 1000 * |value| * ratio / 10 ^ 26 := by positivity
    linarith
  unfold proportionOf
  rw [mul_assoc]
  linarith

/-- The rounded parts of a value miss it by half a thousandth for each part. -/
lemma abs_sum_proportionOf_sub_le (value : ℚ) {whole : ℤ} (hpos : 0 < whole)
    {quantities : List ℤ} (hparts : ∀ q ∈ quantities, 0 < q) :
    |(((quantities.map fun q => proportionOf value (quantityRatio q whole)).sum : ℤ) : ℚ) -
        1000 * value * (quantities.sum / whole)| ≤
      quantities.length / 2 + 1000 * |value| * (quantities.sum / whole) / 10 ^ 26 := by
  induction quantities with
  | nil => simp
  | cons q quantities ih =>
    obtain ⟨hq, hrest⟩ := List.forall_mem_cons.mp hparts
    have hone := abs_proportionOf_sub_le value hq.le hpos
    have hothers := ih hrest
    simp only [List.map_cons, List.sum_cons, List.length_cons, Int.cast_add, Nat.cast_add,
      Nat.cast_one]
    have htriangle := abs_add_le
      ((proportionOf value (quantityRatio q whole) : ℚ) - 1000 * value * (q / whole))
      ((((quantities.map fun q => proportionOf value (quantityRatio q whole)).sum : ℤ) : ℚ) -
        1000 * value * (quantities.sum / whole))
    have hsplit : (proportionOf value (quantityRatio q whole) : ℚ) +
        ((quantities.map fun q => proportionOf value (quantityRatio q whole)).sum : ℤ) -
          1000 * value * ((q + quantities.sum) / whole) =
        ((proportionOf value (quantityRatio q whole) : ℚ) - 1000 * value * (q / whole)) +
        ((((quantities.map fun q => proportionOf value (quantityRatio q whole)).sum : ℤ) : ℚ) -
          1000 * value * (quantities.sum / whole)) := by ring
    have hslack : 1000 * |value| * (((q : ℚ) + quantities.sum) / whole) / 10 ^ 26 =
        1000 * |value| * (q / whole) / 10 ^ 26 +
          1000 * |value| * (quantities.sum / whole) / 10 ^ 26 := by ring
    rw [hsplit, hslack]
    linarith

/-- The quantities a line came back in. -/
structure PartsOf (whole : ℤ) (quantities : List ℤ) : Prop where
  positive : ∀ q ∈ quantities, 0 < q
  sum : quantities.sum = whole

lemma PartsOf.whole_pos {whole : ℤ} {quantities : List ℤ} (h : PartsOf whole quantities)
    (hne : whole ≠ 0) : 0 < whole := by
  have hnonneg : 0 ≤ quantities.sum := List.sum_nonneg fun x hx => (h.positive x hx).le
  rw [h.sum] at hnonneg
  omega

/-- The parts of a value make it up, to half a thousandth for each. -/
lemma PartsOf.abs_sum_sub_le {whole : ℤ} {quantities : List ℤ} (h : PartsOf whole quantities)
    (hne : whole ≠ 0) (value : ℚ) :
    |(((quantities.map fun q => proportionOf value (quantityRatio q whole)).sum : ℤ) : ℚ) -
        1000 * value| ≤ quantities.length / 2 + 1000 * |value| / 10 ^ 26 := by
  have hpos := h.whole_pos hne
  have hbound := abs_sum_proportionOf_sub_le value hpos h.positive
  have hone : (quantities.sum : ℚ) / whole = 1 := by
    rw [h.sum]
    exact div_self (by exact_mod_cast hne)
  rwa [hone, mul_one, mul_one] at hbound

/-- The rounded parts of a stored amount. -/
lemma PartsOf.two_mul_abs_amount_sub_le {whole : ℤ} {quantities : List ℤ}
    (h : PartsOf whole quantities) (hne : whole ≠ 0) {amount : ℤ} (hamount : |amount| < 10 ^ 20) :
    2 * |amount - (quantities.map fun q =>
      proportionOf (dec amount) (quantityRatio q whole)).sum| ≤ quantities.length := by
  have hbound := h.abs_sum_sub_le hne (dec amount)
  set parts := (quantities.map fun q => proportionOf (dec amount) (quantityRatio q whole)).sum
  have hscale : 1000 * dec amount = amount := by
    unfold dec
    ring
  have hsize : 1000 * |dec amount| = |(amount : ℚ)| := by
    rw [← hscale, abs_mul, abs_of_pos (by norm_num : (0 : ℚ) < 1000)]
  have hcast : |(amount : ℚ)| < 10 ^ 20 := by exact_mod_cast hamount
  rw [hscale, hsize, abs_sub_comm] at hbound
  have hstrict : (2 * |amount - parts| : ℚ) < quantities.length + 1 := by
    have hslack : |(amount : ℚ)| / 10 ^ 26 < 1 / 2 := by
      rw [div_lt_iff₀ (by norm_num)]
      linarith
    push_cast
    linarith
  have hint : 2 * |amount - parts| < quantities.length + 1 := by exact_mod_cast hstrict
  omega

/-- The rounded parts of a product of stored amounts. -/
lemma PartsOf.two_mul_abs_money_sub_le {whole : ℤ} {quantities : List ℤ}
    (h : PartsOf whole quantities) (hne : whole ≠ 0) {value : ℚ} (hvalue : |value| ≤ 10 ^ 22) :
    2 * |money value - (quantities.map fun q =>
      proportionOf value (quantityRatio q whole)).sum| ≤ quantities.length + 1 := by
  have hbound := h.abs_sum_sub_le hne value
  set parts := (quantities.map fun q => proportionOf value (quantityRatio q whole)).sum
  have hmoney := abs_money_sub_le value
  have htriangle := abs_sub_le (money value : ℚ) (1000 * value) parts
  rw [abs_sub_comm (1000 * value)] at htriangle
  have hstrict : (2 * |money value - parts| : ℚ) < quantities.length + 2 := by
    have hslack : 1000 * |value| / 10 ^ 26 ≤ 1 / 10 := by
      rw [div_le_iff₀ (by norm_num)]
      linarith
    push_cast
    linarith
  have hint : 2 * |money value - parts| < quantities.length + 2 := by exact_mod_cast hstrict
  omega

/-! ## The figures of one line -/

/-- The return rows of a line, with the line. -/
def rowsOfLine (s : State) (e : ℕ × SaleItem) : List ReturnedLine :=
  (returnRows s e.1).map fun row => ⟨e.2, row⟩

/-- The rows of a line that came back whole. -/
structure WholeReturned (s : State) (e : ℕ × SaleItem) : Prop where
  parts : PartsOf e.2.quantity ((returnRows s e.1).map SaleReturnItem.quantity)
  returned : e.2.returnedQuantity = e.2.quantity
  refund : ∀ row ∈ returnRows s e.1,
    row.lineRefund = money (dec (refundPerUnit e.2) * dec row.quantity)

/-- Nothing of a quantity. -/
lemma proportionOf_none (value : ℚ) (whole : ℤ) :
    proportionOf value (quantityRatio 0 whole) = 0 := by
  simp [proportionOf, quantityRatio, decimalContext]

/-- Nothing of a line has no figures. -/
lemma itemAmounts_none (item : SaleItem) (share : ℤ) : itemAmounts item 0 share = {} := by
  unfold itemAmounts amountsFor lineCost
  split
  · rfl
  · simp only [proportionOf_none, sub_zero]

lemma sumItemAmounts_none {α : Type} (rows : List α) :
    sumItemAmounts (rows.map fun _ => {}) = {} := by
  simp [sumItemAmounts]

/-- The figures that the return rows leave of a line. -/
structure LeftOver (item : SaleItem) (rows : ℕ) (net : ItemFinancialAmounts) : Prop where
  quantity : net.quantity = 0
  revenue : 2000 * |net.revenue| ≤ item.quantity + 1000 * rows
  tax : 2 * |net.tax| ≤ rows
  cost : 2 * |net.cost| ≤ rows + 1
  discount : 2 * |net.discount| ≤ rows
  profit : net.profit = net.revenue - net.tax - net.cost
  whole : rows = 1 → net.tax = 0 ∧ net.cost = 0 ∧ net.discount = 0

lemma leftOver_none (item : SaleItem) (hitem : 0 ≤ item.quantity) (rows : ℕ) :
    LeftOver item rows {} where
  quantity := rfl
  revenue := by
    simp only [abs_zero, mul_zero]
    omega
  tax := by simp
  cost := by
    simp only [abs_zero, mul_zero]
    omega
  discount := by simp
  profit := rfl
  whole _ := ⟨rfl, rfl, rfl⟩

/-- The refunds of a line that came back whole make up its total, to half a thousandth for each
unit and each row. -/
lemma WholeReturned.abs_refunds_sub_le {s : State} {e : ℕ × SaleItem} (h : WholeReturned s e)
    (hne : e.2.quantity ≠ 0) :
    2000 * |e.2.lineTotal - lineRefunds s e.1| ≤
      e.2.quantity + 1000 * (returnRows s e.1).length := by
  have hpos : (0 : ℚ) < e.2.quantity := by exact_mod_cast h.parts.whole_pos hne
  have hunit : |(refundPerUnit e.2 : ℚ) * dec e.2.quantity - e.2.lineTotal| ≤
      e.2.quantity / 2000 := by
    have hround := abs_money_sub_le (dec e.2.lineTotal / dec e.2.quantity)
    have hshare : 1000 * (dec e.2.lineTotal / dec e.2.quantity) * dec e.2.quantity =
        e.2.lineTotal := by
      unfold dec
      field_simp
    have hdec : dec e.2.quantity = e.2.quantity / 1000 := rfl
    have hnonneg : 0 ≤ dec e.2.quantity := by
      rw [hdec]
      positivity
    unfold refundPerUnit
    rw [if_neg hne, ← hshare, ← sub_mul, abs_mul, abs_of_nonneg hnonneg]
    have hscaled := mul_le_mul_of_nonneg_right hround hnonneg
    rw [hdec] at hscaled ⊢
    linarith
  have hrows : |(lineRefunds s e.1 : ℚ) - refundPerUnit e.2 * dec e.2.quantity| ≤
      (returnRows s e.1).length / 2 := by
    unfold lineRefunds
    rw [← h.parts.sum]
    have hrefund := h.refund
    generalize returnRows s e.1 = rows at hrefund
    induction rows with
    | nil => simp
    | cons row rows ih =>
      have hrest := ih fun x hx => hrefund x (List.mem_cons_of_mem _ hx)
      have hone := abs_money_sub_le (dec (refundPerUnit e.2) * dec row.quantity)
      have hscale : 1000 * (dec (refundPerUnit e.2) * dec row.quantity) =
          refundPerUnit e.2 * dec row.quantity := by
        unfold dec
        ring
      rw [hscale, ← hrefund row List.mem_cons_self] at hone
      simp only [List.map_cons, List.sum_cons, List.length_cons, dec_add, Int.cast_add,
        Nat.cast_add, Nat.cast_one]
      have htriangle := abs_add_le
        ((row.lineRefund : ℚ) - refundPerUnit e.2 * dec row.quantity)
        (((rows.map SaleReturnItem.lineRefund).sum : ℤ) -
          refundPerUnit e.2 * dec (rows.map SaleReturnItem.quantity).sum)
      have hsplit : (row.lineRefund : ℚ) + ((rows.map SaleReturnItem.lineRefund).sum : ℤ) -
          refundPerUnit e.2 * (dec row.quantity + dec (rows.map SaleReturnItem.quantity).sum) =
          ((row.lineRefund : ℚ) - refundPerUnit e.2 * dec row.quantity) +
          (((rows.map SaleReturnItem.lineRefund).sum : ℤ) -
            refundPerUnit e.2 * dec (rows.map SaleReturnItem.quantity).sum) := by ring
      rw [hsplit]
      linarith
  have htriangle := abs_sub_le (e.2.lineTotal : ℚ) (refundPerUnit e.2 * dec e.2.quantity)
    (lineRefunds s e.1)
  have hflip := abs_sub_comm (e.2.lineTotal : ℚ) (refundPerUnit e.2 * dec e.2.quantity)
  have hflip' := abs_sub_comm (refundPerUnit e.2 * dec e.2.quantity) (lineRefunds s e.1 : ℚ)
  have hcast : ((2000 * |e.2.lineTotal - lineRefunds s e.1| : ℤ) : ℚ) ≤
      ((e.2.quantity + 1000 * (returnRows s e.1).length : ℤ) : ℚ) := by
    push_cast
    linarith
  exact_mod_cast hcast

/-- What the return rows take off a line. -/
lemma sum_returned {s : State} {e : ℕ × SaleItem} (hne : e.2.quantity ≠ 0) (share : ℤ) :
    sumItemAmounts ((rowsOfLine s e).map fun x => returnedItemAmounts x.item x.row share) = {
      quantity := ((returnRows s e.1).map SaleReturnItem.quantity).sum
      revenue := lineRefunds s e.1
      tax := (((returnRows s e.1).map SaleReturnItem.quantity).map fun q =>
        proportionOf (dec e.2.taxAmount) (quantityRatio q e.2.quantity)).sum
      discount := (((returnRows s e.1).map SaleReturnItem.quantity).map fun q =>
        proportionOf (dec (e.2.discountAmount + share)) (quantityRatio q e.2.quantity)).sum
      cost := (((returnRows s e.1).map SaleReturnItem.quantity).map fun q =>
        proportionOf (lineCost e.2) (quantityRatio q e.2.quantity)).sum
      profit := lineRefunds s e.1 -
        (((returnRows s e.1).map SaleReturnItem.quantity).map fun q =>
          proportionOf (dec e.2.taxAmount) (quantityRatio q e.2.quantity)).sum -
        (((returnRows s e.1).map SaleReturnItem.quantity).map fun q =>
          proportionOf (lineCost e.2) (quantityRatio q e.2.quantity)).sum } := by
  unfold rowsOfLine lineRefunds
  generalize returnRows s e.1 = rows
  induction rows with
  | nil => simp [sumItemAmounts]
  | cons row rows ih =>
    simp only [sumItemAmounts, List.map_cons, List.sum_cons, List.map_map,
      ItemFinancialAmounts.mk.injEq] at ih ⊢
    obtain ⟨hquantity, hrevenue, htax, hdiscount, hcost, hprofit⟩ := ih
    rw [hquantity, hrevenue, htax, hdiscount, hcost, hprofit]
    simp only [returnedItemAmounts, amountsFor, if_neg hne, true_and]
    ring

/-- The whole line less its return rows leaves what the roundings leave. -/
lemma WholeReturned.leftOver {s : State} {e : ℕ × SaleItem} (h : WholeReturned s e)
    (hfits : LineFits e.2) {share : ℤ} (hshare : |e.2.discountAmount + share| < 10 ^ 20) :
    LeftOver e.2 (returnRows s e.1).length (subtractItemAmounts
      (itemAmounts e.2 e.2.quantity share)
      (sumItemAmounts ((rowsOfLine s e).map fun x =>
        returnedItemAmounts x.item x.row share))) := by
  by_cases hne : e.2.quantity = 0
  · -- a line of no quantity came back in no rows
    have hrows : returnRows s e.1 = [] := by
      have hsum := h.parts.sum
      have hpos := h.parts.positive
      rw [hne] at hsum
      cases hrows : returnRows s e.1 with
      | nil => rfl
      | cons row rows =>
        rw [hrows] at hsum hpos
        have hfirst := hpos row.quantity List.mem_cons_self
        have hrest := List.sum_nonneg fun x hx => (hpos x (List.mem_cons_of_mem _ hx)).le
        rw [List.map_cons, List.sum_cons] at hsum
        omega
    have hzero : subtractItemAmounts (itemAmounts e.2 e.2.quantity share)
        (sumItemAmounts ((rowsOfLine s e).map fun x =>
          returnedItemAmounts x.item x.row share)) = {} := by
      rw [itemAmounts_vanished hne, rowsOfLine, hrows]
      rfl
    rw [hzero]
    exact leftOver_none e.2 hne.ge _
  · have hlarge : |e.2.discountAmount + share| < 10 ^ 28 := hshare.trans (by norm_num)
    have htax : |e.2.taxAmount| < 10 ^ 20 := hfits.taxAmount.trans (by norm_num)
    have hcost : lineCost e.2 = dec e.2.unitCost * dec e.2.inventoryQuantity :=
      decimalContext_dec_mul hfits.unitCost hfits.inventoryQuantity
    have hcostSize : |lineCost e.2| ≤ 10 ^ 22 := by
      have hsize {m : ℤ} (hm : |m| < 10 ^ 14) : |dec m| ≤ 10 ^ 11 := by
        have hcast : |(m : ℚ)| < 10 ^ 14 := by exact_mod_cast hm
        unfold dec
        rw [abs_div, abs_of_pos (by norm_num : (0 : ℚ) < 1000)]
        linarith
      rw [hcost, abs_mul]
      calc |dec e.2.unitCost| * |dec e.2.inventoryQuantity| ≤ 10 ^ 11 * 10 ^ 11 :=
            mul_le_mul (hsize hfits.unitCost) (hsize hfits.inventoryQuantity) (abs_nonneg _)
              (by norm_num)
        _ = 10 ^ 22 := by norm_num
    have htaxParts := h.parts.two_mul_abs_amount_sub_le hne htax
    have hdiscountParts := h.parts.two_mul_abs_amount_sub_le hne hshare
    have hcostParts := h.parts.two_mul_abs_money_sub_le hne hcostSize
    rw [List.length_map] at htaxParts hdiscountParts hcostParts
    rw [itemAmounts_eq hne hfits.toFitsColumns hlarge, sum_returned hne, ← hcost]
    refine {
      quantity := ?_
      revenue := h.abs_refunds_sub_le hne
      tax := htaxParts
      cost := hcostParts
      discount := hdiscountParts
      profit := ?_
      whole := fun hone => ?_ }
    · show e.2.quantity - ((returnRows s e.1).map SaleReturnItem.quantity).sum = 0
      rw [h.parts.sum, sub_self]
    · simp only [subtractItemAmounts]
      omega
    · -- the single row is the whole line
      obtain ⟨row, hrow⟩ := List.length_eq_one_iff.mp hone
      have hquantity := h.parts.sum
      rw [hrow] at hquantity
      simp only [List.map_cons, List.map_nil, List.sum_cons, List.sum_nil, add_zero] at hquantity
      have hwhole : proportionOf (lineCost e.2) 1 = money (lineCost e.2) := by
        unfold proportionOf
        rw [mul_one, hcost, decimalContext_dec_mul hfits.unitCost hfits.inventoryQuantity]
      simp only [subtractItemAmounts, hrow, List.map_cons, List.map_nil, List.sum_cons,
        List.sum_nil, add_zero, hquantity, quantityRatio_self hne, hwhole,
        proportionOf_dec_one (htax.trans (by norm_num)), proportionOf_dec_one hlarge, sub_self,
        and_self]

/-! ## The two branches -/

/-- The summary of one line from `returned_quantity`. -/
def netFromQuantity (sale : Sale) (e : ℕ × SaleItem) : ItemFinancialAmounts :=
  (itemFinancialSummaryForSale sale [e] none).net

/-- The summary of one line from its return rows. -/
def netFromRows (s : State) (sale : Sale) (e : ℕ × SaleItem) : ItemFinancialAmounts :=
  (itemFinancialSummaryForSale sale [e] (some (rowsOfLine s e))).net

lemma sumItemAmounts_singleton (x : ItemFinancialAmounts) : sumItemAmounts [x] = x := by
  simp [sumItemAmounts]

/-- Nothing is left of lines that came back whole, by their quantities. -/
lemma net_none_of_returned {sale : Sale} {items : List (ℕ × SaleItem)}
    (h : ∀ e ∈ items, e.2.returnedQuantity = e.2.quantity) :
    (itemFinancialSummaryForSale sale items none).net = {} := by
  unfold itemFinancialSummaryForSale
  dsimp only
  split
  · rfl
  · dsimp only
    rw [← sumItemAmounts_none items]
    refine congrArg sumItemAmounts (List.map_congr_left fun e he => ?_)
    rw [h e he, sub_self, itemAmounts_none]

/-- What the return rows leave of a line that came back whole. -/
lemma WholeReturned.netFromRows {s : State} {sale : Sale} {e : ℕ × SaleItem}
    (h : WholeReturned s e) (hfits : LineFits e.2) (hdiscount : |sale.discountAmount| < 10 ^ 14)
    (hquantity : 0 ≤ e.2.quantity) :
    LeftOver e.2 (returnRows s e.1).length (netFromRows s sale e) := by
  unfold NexaPos.netFromRows itemFinancialSummaryForSale
  dsimp only
  split
  · exact leftOver_none e.2 hquantity _
  · have hshare : |e.2.discountAmount + shareFor (invoiceDiscountShares sale [e]) e.1| <
        10 ^ 20 := by
      have hrecomputed : recomputedDiscount sale [e] ≤ 2 * 10 ^ 14 := by
        have hsale := abs_lt.mp hdiscount
        have hline := abs_lt.mp hfits.discountAmount
        simp only [recomputedDiscount, List.map_cons, List.map_nil, List.sum_cons, List.sum_nil,
          add_zero]
        apply max_le _ (by norm_num)
        linarith
      have hbound : 0 ≤ 5 * recomputedDiscount sale [e] + ([e] : List (ℕ × SaleItem)).length := by
        have hnonneg : 0 ≤ recomputedDiscount sale [e] := le_max_right _ _
        omega
      have hshare := abs_shareFor_le hbound (abs_invoiceDiscountShares_le sale [e]) e.1
      have htriangle := abs_add_le e.2.discountAmount
        (shareFor (invoiceDiscountShares sale [e]) e.1)
      have hline := hfits.discountAmount
      simp only [List.length_singleton, Nat.cast_one] at hshare
      norm_num at hrecomputed hline ⊢
      linarith
    have hrows : (rowsOfLine s e).map (fun x => returnedItemAmounts x.item x.row
          (shareFor (invoiceDiscountShares sale [e]) x.row.saleItem)) =
        (rowsOfLine s e).map fun x => returnedItemAmounts x.item x.row
          (shareFor (invoiceDiscountShares sale [e]) e.1) := by
      refine List.map_congr_left fun x hx => ?_
      obtain ⟨row, hrow, rfl⟩ := List.mem_map.mp hx
      have hline : row.saleItem = e.1 := of_decide_eq_true (List.mem_filter.mp hrow).2
      rw [hline]
    dsimp only
    rw [List.map_singleton, sumItemAmounts_singleton, hrows]
    exact h.leftOver hfits hshare

/-! ## The rows of a history -/

/-- The row an entry is recorded as. -/
structure RowOfEntry (s : State) (e : ReturnEntry) (row : SaleReturnItem) : Prop where
  saleItem : row.saleItem = e.saleItem
  quantity : row.quantity = qty e.quantity
  refund : row.lineRefund = money (dec (unitRefund s e.saleItem) * e.quantity)

/-- The return rows after some entries of a request. -/
structure RowsAppended (s₀ : State) (done : List ReturnEntry) (s : State) : Prop where
  core : s.sales.items.map SaleItem.core = s₀.sales.items.map SaleItem.core
  rows : ∃ rows, s.sales.returnItems = s₀.sales.returnItems ++ rows ∧
    List.Forall₂ (RowOfEntry s₀) (done.filter fun e => 0 < e.quantity) rows

lemma RowsAppended.line {c : Call} {r : ReturnRequest} {sale : Sale} {saleReturn number : ℕ}
    {s₀ s t : State} {done : List ReturnEntry} {p p' : ReturnProgress} {e : ReturnEntry}
    {item : SaleItem} (h : RowsAppended s₀ done s)
    (hline : LineReturned c r sale saleReturn number e item p p' s t) :
    RowsAppended s₀ (done ++ [e]) t := by
  have hsales := sales_of_rest hline.rest
  obtain ⟨rows, hrows, hentries⟩ := h.rows
  obtain ⟨item₀, hitem₀, hcore₀⟩ := item_of_core h.core hline.line
  have hunit : refundPerUnit item = unitRefund s₀ e.saleItem := by
    rw [unitRefund, hitem₀, Option.map_some, Option.getD_some, refundPerUnit_of_core hcore₀]
  constructor
  · rw [hsales, ← h.core]
    apply map_modify_of_eq
    intro a
    rfl
  · have hpos := hline.positive
    refine ⟨rows ++ [_], by rw [hsales, recordReturnLine, hrows, List.append_assoc], ?_⟩
    rw [List.filter_append]
    refine List.rel_append hentries ?_
    simp only [List.filter_cons, hpos, decide_true, if_true, List.filter_nil]
    exact .cons ⟨rfl, rfl, by rw [hunit]⟩ .nil

/-- The rows of a whole request. -/
lemma rowsAppended_of_runs {c : Call} {r : ReturnRequest} {s t : State} {x : Unit}
    (h : Runs (processReturn c r) s x t) : RowsAppended s r.items t := by
  obtain ⟨sale, p, u, -, hloop, -, hsales⟩ := processReturn_sales h
  have hopen : RowsAppended s [] (openReturn c r sale s) :=
    ⟨rfl, [], (List.append_nil _).symm, .nil⟩
  have hall : RowsAppended s r.items u := by
    refine runs_foldlM_induct (I := fun done _ s' => RowsAppended s done s') ?_ hloop hopen
    intro done e p s' p' t' _ hrun hdone
    rcases runs_returnLine hrun with ⟨hle, rfl, rfl⟩ | ⟨item, hline⟩
    · refine ⟨hdone.core, ?_⟩
      have hskip : [e].filter (fun e => decide (0 < e.quantity)) = [] :=
        List.filter_cons_of_neg (by simpa using hle)
      rw [List.filter_append, hskip, List.append_nil]
      exact hdone.rows
    · exact hdone.line hline
  exact ⟨by rw [hsales]; exact hall.core, by rw [hsales]; exact hall.rows⟩

/-- The return rows that one request adds to a line. -/
lemma RowsAppended.returnRows_eq {s t : State} {entries : List ReturnEntry}
    (h : RowsAppended s entries t) (line : ℕ) :
    ∃ rows, returnRows t line = returnRows s line ++ rows ∧
      List.Forall₂ (RowOfEntry s) (entriesOf entries line) rows := by
  obtain ⟨rows, hrows, hentries⟩ := h.rows
  refine ⟨rows.filter fun x => x.saleItem = line, ?_, ?_⟩
  · unfold returnRows
    rw [hrows, List.filter_append]
  · have hfilter : entriesOf entries line =
        (entries.filter fun e => 0 < e.quantity).filter fun e => e.saleItem = line := by
      unfold entriesOf
      rw [List.filter_filter]
      refine List.filter_congr fun e _ => ?_
      simp
    rw [hfilter]
    clear hrows
    generalize entries.filter (fun e => 0 < e.quantity) = kept at hentries
    induction hentries with
    | nil => exact .nil
    | cons hrow hrest ih =>
      have hline := hrow.saleItem
      rename_i e row _ _
      by_cases hsame : e.saleItem = line
      · rw [List.filter_cons_of_pos (by simpa using hsame),
          List.filter_cons_of_pos (by simpa [hline] using hsame)]
        exact .cons hrow ih
      · rw [List.filter_cons_of_neg (by simpa using hsame),
          List.filter_cons_of_neg (by simpa [hline] using hsame)]
        exact ih

/-- What is taken back of the sale has at most three decimals. -/
def ExactReturns (id : ℕ) (s : State) (op : Op) : Prop :=
  ∀ r ∈ op.returnRequest, r.sale = id → op.Accepted s → ∀ e ∈ r.items, Stored e.quantity

instance decidableExactReturns (id : ℕ) (s : State) (op : Op) :
    Decidable (ExactReturns id s op) :=
  inferInstanceAs (Decidable (∀ r ∈ op.returnRequest, _))

/-- The return rows of a line say what came back of it. -/
structure RowsExact (s : State) (line : ℕ) (item : SaleItem) : Prop where
  quantity : ((returnRows s line).map SaleReturnItem.quantity).sum = item.returnedQuantity
  positive : ∀ row ∈ returnRows s line, 0 < row.quantity
  refund : ∀ row ∈ returnRows s line,
    row.lineRefund = money (dec (refundPerUnit item) * dec row.quantity)

/-- The return rows of a sale say what came back of its lines. -/
def SaleRowsExact (id : ℕ) (s : State) : Prop :=
  ∀ (line : ℕ) item, s.sales.items[line]? = some item → item.sale = id → RowsExact s line item

/-- The rows of stored quantities add up to what was asked for. -/
lemma sum_rows_of_stored {s : State} {entries : List ReturnEntry} {rows : List SaleReturnItem}
    (h : List.Forall₂ (RowOfEntry s) entries rows)
    (hstored : ∀ e ∈ entries, Stored e.quantity) :
    dec (rows.map SaleReturnItem.quantity).sum = (entries.map ReturnEntry.quantity).sum := by
  induction h with
  | nil => simp
  | cons hrow _ ih =>
    obtain ⟨hfirst, hrest⟩ := List.forall_mem_cons.mp hstored
    rw [List.map_cons, List.sum_cons, List.map_cons, List.sum_cons, dec_add, ih hrest,
      hrow.quantity]
    congr 1

lemma ReturnMade.saleRowsExact {r : ReturnRequest} {s t u : State} {p : ReturnProgress}
    {id : ℕ} (h : ReturnMade r s t p u) (happended : RowsAppended s r.items t)
    (hexact : r.sale = id → ∀ e ∈ r.items, Stored e.quantity) (hs : SaleRowsExact id s) :
    SaleRowsExact id t := by
  intro line item hitem hsale
  obtain ⟨old, hold, hcore, hreturned, -⟩ := h.item hitem
  have hsame : old.core.sale = item.core.sale := by rw [hcore]
  change old.sale = item.sale at hsame
  have hbefore := hs line old hold (hsame.trans hsale)
  have hunit : refundPerUnit item = refundPerUnit old := refundPerUnit_of_core hcore.symm
  obtain ⟨rows, hrows, hentries⟩ := happended.returnRows_eq line
  have hkept : ∀ e ∈ entriesOf r.items line, Stored e.quantity := by
    intro e he
    by_cases hid : r.sale = id
    · exact hexact hid e (List.mem_filter.mp he).1
    · rw [h.entriesOf_other hold fun hr => hid (hr.symm.trans (hsame.trans hsale))] at he
      exact nomatch he
  have hnew : ∀ row ∈ rows, 0 < row.quantity ∧
      row.lineRefund = money (dec (refundPerUnit old) * dec row.quantity) := by
    intro row hrow
    obtain ⟨e, he, hrowOf⟩ := exists_of_forall₂_mem hentries hrow
    obtain ⟨hline, hpos⟩ := of_decide_eq_true (List.mem_filter.mp he).2
    have hquantity : dec row.quantity = e.quantity := by
      rw [hrowOf.quantity]
      exact hkept e he
    refine ⟨dec_pos.mp (hquantity ▸ hpos), ?_⟩
    rw [hrowOf.refund, hquantity, hline, unitRefund, hold, Option.map_some, Option.getD_some]
  refine ⟨?_, fun row hrow => ?_, fun row hrow => ?_⟩
  · have hsum := sum_rows_of_stored hentries hkept
    rw [hreturned, requested, ← hsum, ← dec_add, qty_dec, hrows, List.map_append, List.sum_append,
      hbefore.quantity]
  · rw [hrows] at hrow
    rcases List.mem_append.mp hrow with hrow | hrow
    · exact hbefore.positive row hrow
    · exact (hnew row hrow).1
  · rw [hrows] at hrow
    rw [hunit]
    rcases List.mem_append.mp hrow with hrow | hrow
    · exact hbefore.refund row hrow
    · exact (hnew row hrow).2

lemma saleRowsExact_step {id : ℕ} (s : State) (op : Op) (hlinked : Linked s)
    (hreturns : ReturnsRecorded s) (hexact : ExactReturns id s op) (hs : SaleRowsExact id s) :
    SaleRowsExact id (step s op) := by
  by_cases haccepted : op.Accepted s
  · cases returnStep s op with
    | same h =>
      intro line item hitem hsale
      rw [h.items] at hitem
      obtain ⟨hquantity, hpositive, hrefund⟩ := hs line item hitem hsale
      have hrows : returnRows (step s op) line = returnRows s line := by
        rw [returnRows, returnRows, h.returnItems]
      exact ⟨by rw [hrows]; exact hquantity, by rw [hrows]; exact hpositive,
        by rw [hrows]; exact hrefund⟩
    | @made c r sid p number items h =>
      obtain ⟨totalCost, sequences, hsales⟩ := h.sales
      intro line item hitem hsale
      have hrows : returnRows (step s (.completeSale c r)) line = returnRows s line := by
        rw [returnRows, returnRows, hsales]
      rw [hsales] at hitem
      rcases getElem?_append_eq_some.mp hitem with hitem | ⟨hnew, hitem⟩
      · obtain ⟨hquantity, hpositive, hrefund⟩ := hs line item hitem hsale
        exact ⟨by rw [hrows]; exact hquantity, by rw [hrows]; exact hpositive,
          by rw [hrows]; exact hrefund⟩
      · have hnone : returnRows s line = [] := lineRefunds_eq_zero hlinked hnew
        refine ⟨?_, ?_, ?_⟩
        · rw [hrows, hnone, h.returnedQuantity_eq (List.mem_of_getElem? hitem)]
          rfl
        · rw [hrows, hnone]
          exact fun row hrow => by cases hrow
        · rw [hrows, hnone]
          exact fun row hrow => by cases hrow
    | returned h =>
      obtain ⟨p, u, hmade⟩ := returnMade_of_runs hreturns.within h
      exact hmade.saleRowsExact (rowsAppended_of_runs h)
        (fun hid => hexact _ rfl hid haccepted) hs
  · rw [step_of_not_accepted haccepted]
    exact hs

/-- **Fully returned sales.**  When every line of a sale came back whole, in any number of
returns of at most three decimals, the summary from `returned_quantity` has no net figures, for
every line and for the sale.  The summary from the return rows has no net quantity; its net tax
and discount are at most half a thousandth for each row, its net cost half a thousandth more,
its net revenue half a thousandth for each row and each unit, and a line that came back in one
row has no net tax, cost or discount. -/
theorem returned_sales_net {ops : List Op} {id : ℕ} {sale : Sale}
    (hexact : Trace.All step (ExactReturns id) State.empty ops)
    (hreturned : FullyReturned (history ops) id)
    (hfits : ∀ e ∈ itemsOfSale (history ops) id, LineFits e.2)
    (hdiscount : |sale.discountAmount| < 10 ^ 14) :
    (itemFinancialSummaryForSale sale (itemsOfSale (history ops) id) none).net = {} ∧
    ∀ e ∈ itemsOfSale (history ops) id,
      netFromQuantity sale e = {} ∧
      netItemValues e.2 none = { returned := e.2.quantity } ∧
      LeftOver e.2 (returnRows (history ops) e.1).length (netFromRows (history ops) sale e) := by
  have hrows : SaleRowsExact id (history ops) := by
    let kept : State → Prop := fun s =>
      ((salesView s).Recorded ∧ Linked s ∧ ReturnsRecorded s) ∧ SaleRowsExact id s
    have hstep : ∀ s op, ExactReturns id s op → kept s → kept (step s op) := by
      rintro s op hop ⟨⟨hrecorded, hlinked, hreturns⟩, hs⟩
      exact ⟨⟨recorded_step s op hrecorded, linked_step s op hlinked,
        returnsRecorded_step s op hlinked hreturns⟩,
        saleRowsExact_step s op hlinked hreturns hop hs⟩
    have hempty : kept State.empty :=
      ⟨⟨recorded_history [], linked_history [], returnsRecorded_history []⟩,
        fun line item hitem => nomatch hitem⟩
    exact (Trace.invariant_of_all hstep hempty hexact).2
  have hwhole : ∀ e ∈ itemsOfSale (history ops) id, e.2.returnedQuantity = e.2.quantity :=
    fun e he => hreturned e.1 e.2 (mem_childrenOf.mp he)
  refine ⟨net_none_of_returned hwhole, fun e he => ?_⟩
  obtain ⟨hitem, hof⟩ := mem_childrenOf.mp he
  have hline := hrows e.1 e.2 hitem hof
  have hof : WholeReturned (history ops) e := {
    parts := ⟨fun q hq => by
      obtain ⟨row, hrow, rfl⟩ := List.mem_map.mp hq
      exact hline.positive row hrow, hline.quantity.trans (hwhole e he)⟩
    returned := hwhole e he
    refund := hline.refund }
  refine ⟨net_none_of_returned fun x hx => ?_, ?_, ?_⟩
  · rw [List.mem_singleton.mp hx]
    exact hwhole e he
  · unfold netItemValues
    dsimp only
    rw [hwhole e he, sub_self, itemAmounts_none]
  · have hquantity := ((recorded_history ops).lineRecorded hitem).quantity_nonneg
    exact hof.netFromRows (hfits e he) hdiscount hquantity

/-- Three pieces at 0.016 with five percent tax, given back one by one. -/
def returnedOneByOne : List Op := Shop.stocked 16 ++ [
  .saveMasterData (.settings { vatEnabled := true, vatPercentage := 5000 }),
  Shop.sell 3 [⟨0, 1 / 20⟩],
  .processReturn Shop.call { sale := 0, items := [⟨0, 1, true⟩], refundMethod := .cash },
  .processReturn Shop.call { sale := 0, items := [⟨0, 1, true⟩], refundMethod := .cash },
  .processReturn Shop.call { sale := 0, items := [⟨0, 1, true⟩], refundMethod := .cash }]

theorem returned_sales_one_by_one : ∃ sale,
    (history returnedOneByOne).sales.sales[0]? = some sale ∧
      ∀ e ∈ itemsOfSale (history returnedOneByOne) 0,
        LeftOver e.2 (returnRows (history returnedOneByOne) e.1).length
          (netFromRows (history returnedOneByOne) sale e) := by
  have hsome : ((history returnedOneByOne).sales.sales[0]?).isSome = true := by decide +kernel
  obtain ⟨sale, hsale⟩ := Option.isSome_iff_exists.mp hsome
  have hexact : Trace.All step (ExactReturns 0) State.empty returnedOneByOne := by
    decide +kernel
  have hreturned : ∀ e ∈ itemsOfSale (history returnedOneByOne) 0,
      e.2.returnedQuantity = e.2.quantity := by decide +kernel
  have hdiscount : ∀ sale ∈ (history returnedOneByOne).sales.sales[0]?,
      |sale.discountAmount| < 10 ^ 14 := by decide +kernel
  obtain ⟨-, hlines⟩ := returned_sales_net hexact
    (fun line item hline => hreturned (line, item) (mem_childrenOf.mpr hline))
    (by decide +kernel) (hdiscount sale hsale)
  exact ⟨sale, hsale, fun e he => (hlines e he).2.2⟩

/-- All requests are accepted.  The line has a total of 0.050 and a tax of 0.002; the three
refunds of 0.017 and the three taxes of 0.001 leave a net revenue and a net tax of -0.001. -/
theorem returned_sales_left_over :
    Trace.All step (fun s op => op.Accepted s) State.empty returnedOneByOne ∧
      ((history returnedOneByOne).sales.sales.map fun sale =>
        (itemsOfSale (history returnedOneByOne) 0).map fun e =>
          (e.2.quantity, e.2.returnedQuantity, netFromQuantity sale e,
            (netFromRows (history returnedOneByOne) sale e).revenue,
            (netFromRows (history returnedOneByOne) sale e).tax)) =
        [[(3000, 3000, {}, -1, -1)]] := by
  constructor <;> decide +kernel

end NexaPos
