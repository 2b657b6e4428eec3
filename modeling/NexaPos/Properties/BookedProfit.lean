import NexaPos.Properties.SaleTotals
import NexaPos.Properties.ProfitReports
import NexaPos.Properties.SaleRecords

/-!
# The gross profit of a sale, stored and recomputed

`complete_sale` stores a gross profit with every line and with the sale.  The reports recompute
it from the rows, and with it the shares of the invoice discount.  The profits that are stored
agree with each other in every sale.  The recomputed ones agree with them where the rows say what
the checkout calculated with: it multiplies with the quantity as it was entered, which is rounded
only when the line is saved.
-/

namespace NexaPos

open Tx Rounding

/-! ## The recomputed shares of the invoice discount -/

section Shares

variable {discount : ℤ} {total : ℚ}

/-- The share of one line but the last. -/
lemma abs_weightedShare_le {weight : ℚ} (hdiscount : 0 ≤ discount) (htotal : 0 < total)
    (hweight : 0 ≤ weight) :
    |(money (decimalContext (decimalContext (dec discount * weight) / total)) : ℚ)| ≤
      4 * discount * (weight / total) + 1 := by
  have hkeep (x : ℚ) : |decimalContext x| ≤ 2 * |x| := by
    have h := abs_significant_sub_le 28 x
    have hpart : |x| / (2 * 10 ^ (((28 : ℕ) : ℤ) - 1)) ≤ |x| := by
      apply div_le_self (abs_nonneg x)
      norm_num
    have htriangle := abs_add_le (significant 28 x - x) x
    rw [sub_add_cancel] at htriangle
    unfold decimalContext
    linarith
  have hmoney (x : ℚ) : |(money x : ℚ)| ≤ 1000 * |x| + 1 := by
    have hupper := money_le_add_half x
    have hlower := sub_half_le_money x
    have hle := le_abs_self x
    have hge := neg_abs_le x
    rw [abs_le]
    constructor <;> linarith
  have hd : 0 ≤ dec discount := dec_nonneg.mpr hdiscount
  have hproduct : |dec discount * weight| = dec discount * weight := abs_of_nonneg (by positivity)
  have hquotient : |decimalContext (dec discount * weight) / total| ≤
      2 * (dec discount * weight) / total := by
    rw [abs_div, abs_of_pos htotal]
    have h := hkeep (dec discount * weight)
    rw [hproduct] at h
    exact div_le_div_of_nonneg_right h htotal.le
  have hlast := hkeep (decimalContext (dec discount * weight) / total)
  have hround := hmoney (decimalContext (decimalContext (dec discount * weight) / total))
  have hscale : 1000 * (2 * (2 * (dec discount * weight) / total)) =
      4 * discount * (weight / total) := by
    unfold dec
    ring
  linarith

/-- What a share can be after some of the discount was allocated. -/
lemma abs_weightedShares_le (hdiscount : 0 ≤ discount) (htotal : 0 < total)
    {weights : List (ℕ × ℚ)} (hweights : ∀ w ∈ weights, 0 ≤ w.2) (allocated : ℤ) :
    ∀ x ∈ weightedShares discount total allocated weights,
      |(x.2 : ℚ)| ≤ discount + |(allocated : ℚ)| +
        4 * discount * ((weights.map Prod.snd).sum / total) + weights.length := by
  have hd : (0 : ℚ) ≤ discount := by exact_mod_cast hdiscount
  induction weights generalizing allocated with
  | nil => exact fun x hx => nomatch hx
  | cons w weights ih =>
    obtain ⟨hw, hrest⟩ := List.forall_mem_cons.mp hweights
    have hsum : 0 ≤ (weights.map Prod.snd).sum := by
      apply List.sum_nonneg
      intro x hx
      obtain ⟨y, hy, rfl⟩ := List.mem_map.mp hx
      exact hrest y hy
    have hrestShare : 0 ≤ 4 * discount * ((weights.map Prod.snd).sum / total) := by positivity
    have hownShare : 0 ≤ 4 * discount * (w.2 / total) := by positivity
    have hsplit : 4 * discount * (((w :: weights).map Prod.snd).sum / total) =
        4 * discount * (w.2 / total) + 4 * discount * ((weights.map Prod.snd).sum / total) := by
      rw [List.map_cons, List.sum_cons]
      ring
    intro x hx
    rw [hsplit, List.length_cons, Nat.cast_add, Nat.cast_one]
    have habs := abs_nonneg (allocated : ℚ)
    cases weights with
    | nil =>
      obtain ⟨pk, weight⟩ := w
      simp only [weightedShares, List.mem_singleton] at hx
      subst hx
      have htriangle := abs_sub (discount : ℚ) (allocated : ℚ)
      rw [abs_of_nonneg hd] at htriangle
      push_cast
      linarith
    | cons w' weights =>
      obtain ⟨pk, weight⟩ := w
      simp only [weightedShares, List.mem_cons] at hx
      have hshare := abs_weightedShare_le hdiscount htotal hw
      have hlength : (0 : ℚ) ≤ (w' :: weights).length := by positivity
      rcases hx with rfl | hx
      · linarith
      · have h := ih hrest
          (allocated + money (decimalContext (decimalContext (dec discount * weight) / total))) x
            (by simpa [weightedShares] using hx)
        have htriangle := abs_add_le (allocated : ℚ)
          (money (decimalContext (decimalContext (dec discount * weight) / total)))
        push_cast at h
        linarith

lemma sum_weightedShares {weights : List (ℕ × ℚ)} (hne : weights ≠ []) (allocated : ℤ) :
    ((weightedShares discount total allocated weights).map Prod.snd).sum =
      discount - allocated := by
  induction weights generalizing allocated with
  | nil => exact absurd rfl hne
  | cons w weights ih =>
    obtain ⟨pk, weight⟩ := w
    cases weights with
    | nil => simp [weightedShares]
    | cons w' weights =>
      rw [weightedShares, List.map_cons, List.sum_cons, ih (List.cons_ne_nil _ _)]
      · ring
      · exact List.cons_ne_nil _ _

lemma keys_weightedShares (weights : List (ℕ × ℚ)) (allocated : ℤ) :
    (weightedShares discount total allocated weights).map Prod.fst = weights.map Prod.fst := by
  induction weights generalizing allocated with
  | nil => rfl
  | cons w weights ih =>
    obtain ⟨pk, weight⟩ := w
    cases weights with
    | nil => simp [weightedShares]
    | cons w' weights =>
      rw [weightedShares, List.map_cons, List.map_cons, ih]
      exact List.cons_ne_nil _ _

end Shares

section Invoice

variable (sale : Sale) (items : List (ℕ × SaleItem))

/-- The invoice discount, as it is recomputed. -/
def recomputedDiscount : ℤ :=
  max (sale.discountAmount - (items.map fun e => e.2.discountAmount).sum) 0

/-- The weights of the lines: their taxable bases. -/
def baseWeights : List (ℕ × ℚ) :=
  items.map fun e => (e.1, dec (max (e.2.lineTotal - e.2.taxAmount) 0))

/-- The weights of a fully discounted sale: the line amounts. -/
def grossWeights : List (ℕ × ℚ) :=
  items.map fun e =>
    (e.1, max (decimalContext (dec e.2.unitPrice * dec e.2.quantity) - dec e.2.discountAmount) 0)

/-- Some line has a weight. -/
def Weighted : Prop :=
  0 < ((baseWeights items).map Prod.snd).sum ∨ 0 < ((grossWeights items).map Prod.snd).sum

instance decidableWeighted : Decidable (Weighted items) := inferInstanceAs (Decidable (_ ∨ _))

lemma baseWeights_nonneg : ∀ w ∈ baseWeights items, 0 ≤ w.2 := by
  intro w hw
  obtain ⟨e, -, rfl⟩ := List.mem_map.mp hw
  exact dec_nonneg.mpr (le_max_right _ _)

lemma grossWeights_nonneg : ∀ w ∈ grossWeights items, 0 ≤ w.2 := by
  intro w hw
  obtain ⟨e, -, rfl⟩ := List.mem_map.mp hw
  exact le_max_right _ _

/-- The shares are none, or they are proportional to weights that are not all zero. -/
lemma invoiceDiscountShares_cases :
    (invoiceDiscountShares sale items = (items.map fun e => (e.1, 0)) ∧
      (recomputedDiscount sale items = 0 ∨ ¬ Weighted items)) ∨
    ∃ weights : List (ℕ × ℚ), weights.map Prod.fst = items.map Prod.fst ∧ weights ≠ [] ∧
      (∀ w ∈ weights, 0 ≤ w.2) ∧ 0 < (weights.map Prod.snd).sum ∧ Weighted items ∧
      invoiceDiscountShares sale items = weightedShares (recomputedDiscount sale items)
        (weights.map Prod.snd).sum 0 weights := by
  have hkeys (f : ℕ × SaleItem → ℚ) :
      (items.map fun e => (e.1, f e)).map Prod.fst = items.map Prod.fst := by
    rw [List.map_map]
    rfl
  have hne {weights : List (ℕ × ℚ)} (h : 0 < (weights.map Prod.snd).sum) : weights ≠ [] := by
    rintro rfl
    simp at h
  have hdiscount : 0 ≤ recomputedDiscount sale items := le_max_right _ _
  have hunfold : invoiceDiscountShares sale items =
      if items.isEmpty = true ∨ recomputedDiscount sale items ≤ 0 then
        items.map fun e => (e.1, 0)
      else if 0 < ((baseWeights items).map Prod.snd).sum then
        weightedShares (recomputedDiscount sale items) ((baseWeights items).map Prod.snd).sum 0
          (baseWeights items)
      else if 0 < ((grossWeights items).map Prod.snd).sum then
        weightedShares (recomputedDiscount sale items) ((grossWeights items).map Prod.snd).sum 0
          (grossWeights items)
      else
        items.map fun e => (e.1, 0) := rfl
  rw [hunfold]
  by_cases hnone : items.isEmpty = true ∨ recomputedDiscount sale items ≤ 0
  · rw [if_pos hnone]
    refine .inl ⟨rfl, ?_⟩
    rcases hnone with hempty | hzero
    · rw [List.isEmpty_iff] at hempty
      subst hempty
      exact .inr (by simp [Weighted, baseWeights, grossWeights])
    · exact .inl (by omega)
  · rw [if_neg hnone]
    by_cases hbase : 0 < ((baseWeights items).map Prod.snd).sum
    · rw [if_pos hbase]
      exact .inr ⟨_, hkeys _, hne hbase, baseWeights_nonneg items, hbase, .inl hbase, rfl⟩
    · rw [if_neg hbase]
      by_cases hgross : 0 < ((grossWeights items).map Prod.snd).sum
      · rw [if_pos hgross]
        exact .inr ⟨_, hkeys _, hne hgross, grossWeights_nonneg items, hgross, .inr hgross, rfl⟩
      · rw [if_neg hgross]
        exact .inl ⟨rfl, .inr fun h => h.elim hbase hgross⟩

/-- The part of the invoice discount that no line is given a share of. -/
def unallocatedDiscount : ℤ :=
  if Weighted items then 0 else recomputedDiscount sale items

lemma keys_invoiceDiscountShares :
    (invoiceDiscountShares sale items).map Prod.fst = items.map Prod.fst := by
  rcases invoiceDiscountShares_cases sale items with ⟨hshares, -⟩ | ⟨weights, hkeys, -, -, -, -,
    hshares⟩
  · rw [hshares, List.map_map]
    rfl
  · rw [hshares, keys_weightedShares, hkeys]

lemma sum_invoiceDiscountShares :
    ((invoiceDiscountShares sale items).map Prod.snd).sum =
      recomputedDiscount sale items - unallocatedDiscount sale items := by
  unfold unallocatedDiscount
  rcases invoiceDiscountShares_cases sale items with ⟨hshares, hnone⟩ | ⟨weights, -, hne, -, -,
    hweighted, hshares⟩
  · have hzero : ((items.map fun e => (e.1, (0 : ℤ))).map Prod.snd).sum = 0 := by
      apply List.sum_eq_zero
      intro x hx
      obtain ⟨y, hy, rfl⟩ := List.mem_map.mp hx
      obtain ⟨e, -, rfl⟩ := List.mem_map.mp hy
      rfl
    rw [hshares, hzero]
    rcases hnone with hzero | hnot
    · rw [hzero, ite_self, sub_zero]
    · rw [if_neg hnot, sub_self]
  · rw [hshares, sum_weightedShares hne, if_pos hweighted]

lemma abs_invoiceDiscountShares_le :
    ∀ x ∈ invoiceDiscountShares sale items,
      |x.2| ≤ 5 * recomputedDiscount sale items + items.length := by
  have hdiscount : 0 ≤ recomputedDiscount sale items := le_max_right _ _
  intro x hx
  rcases invoiceDiscountShares_cases sale items with ⟨hshares, -⟩ | ⟨weights, hkeys, -, hnonneg,
    htotal, -, hshares⟩
  · rw [hshares] at hx
    obtain ⟨e, -, rfl⟩ := List.mem_map.mp hx
    rw [abs_zero]
    omega
  · rw [hshares] at hx
    have hlength : weights.length = items.length := by
      have h := congrArg List.length hkeys
      rwa [List.length_map, List.length_map] at h
    have h := abs_weightedShares_le hdiscount htotal hnonneg 0 x hx
    rw [div_self htotal.ne', hlength] at h
    simp only [Int.cast_zero, abs_zero] at h
    have hcast : (|x.2| : ℚ) ≤ ((5 * recomputedDiscount sale items + items.length : ℤ) : ℚ) := by
      push_cast
      linarith
    exact_mod_cast hcast

end Invoice

/-- Looking the keys up gives the values back. -/
lemma map_shareFor {shares : List (ℕ × ℤ)} (hnodup : (shares.map Prod.fst).Nodup) :
    (shares.map Prod.fst).map (shareFor shares) = shares.map Prod.snd := by
  rw [List.map_map]
  apply List.map_congr_left
  rintro ⟨pk, share⟩ hmem
  have hlookup : shares.lookup pk = some share := by
    induction shares with
    | nil => exact nomatch hmem
    | cons x shares ih =>
      obtain ⟨pk', share'⟩ := x
      rw [List.map_cons, List.nodup_cons] at hnodup
      rw [List.lookup_cons]
      rcases List.mem_cons.mp hmem with heq | hrest
      · cases heq
        simp
      · have hne : pk ≠ pk' := by
          rintro rfl
          exact hnodup.1 (List.mem_map.mpr ⟨_, hrest, rfl⟩)
        have hbeq : (pk == pk') = false := by simpa using hne
        rw [hbeq]
        exact ih hnodup.2 hrest
  simp [shareFor, hlookup]

/-- A share is one of the list, or zero. -/
lemma abs_shareFor_le {shares : List (ℕ × ℤ)} {bound : ℤ} (hbound : 0 ≤ bound)
    (h : ∀ x ∈ shares, |x.2| ≤ bound) (pk : ℕ) : |shareFor shares pk| ≤ bound := by
  unfold shareFor
  cases hlookup : shares.lookup pk with
  | none => simpa using hbound
  | some share =>
    obtain ⟨pk', hmem⟩ : ∃ pk', (pk', share) ∈ shares := by
      obtain ⟨l₁, l₂, heq, -⟩ := List.lookup_eq_some_iff.mp hlookup
      exact ⟨pk, heq ▸ List.mem_append_right _ List.mem_cons_self⟩
    exact h _ hmem

/-! ## What a line is booked with -/

/-- The columns of a line hold fourteen digits. -/
structure LineFits (item : SaleItem) : Prop extends FitsColumns item where
  unitPrice : |item.unitPrice| < 10 ^ 14
  quantity : |item.quantity| < 10 ^ 14
  discountAmount : |item.discountAmount| < 10 ^ 14

/-- A line whose quantity was stored is booked with its stored amounts. -/
lemma itemAmounts_eq {item : SaleItem} {share : ℤ} (hquantity : item.quantity ≠ 0)
    (hfits : FitsColumns item) (hshare : |item.discountAmount + share| < 10 ^ 28) :
    itemAmounts item item.quantity share = {
      quantity := item.quantity
      revenue := item.lineTotal
      tax := item.taxAmount
      discount := item.discountAmount + share
      cost := money (dec item.unitCost * dec item.inventoryQuantity)
      profit := item.lineTotal - item.taxAmount -
        money (dec item.unitCost * dec item.inventoryQuantity) } := by
  have hlarge : (10 : ℤ) ^ 14 < 10 ^ 28 := by norm_num
  have hcost : proportionOf (lineCost item) 1 =
      money (dec item.unitCost * dec item.inventoryQuantity) := by
    unfold proportionOf lineCost
    rw [mul_one, decimalContext_dec_mul hfits.unitCost hfits.inventoryQuantity,
      decimalContext_dec_mul hfits.unitCost hfits.inventoryQuantity]
  unfold itemAmounts amountsFor
  rw [if_neg hquantity, quantityRatio_self hquantity]
  dsimp only
  rw [proportionOf_dec_one (hfits.lineTotal.trans hlarge),
    proportionOf_dec_one (hfits.taxAmount.trans hlarge), proportionOf_dec_one hshare, hcost]

/-- A line stored with quantity zero is skipped. -/
lemma itemAmounts_vanished {item : SaleItem} (hquantity : item.quantity = 0) (share : ℤ) :
    itemAmounts item item.quantity share = {} := by
  unfold itemAmounts amountsFor
  rw [if_pos hquantity]

/-! ## A line and its row -/

/-- A computed line with the row it was stored as. -/
abbrev Booking := (NormalizedLine × LineParts) × (ℕ × SaleItem)

/-- The quantity the cost of a line is calculated with. -/
def stockQuantity (entry : NormalizedLine × LineParts) : ℚ :=
  if entry.1.customerSuppliedFabric then 0
  else (entry.1.fabricMeterUsed.map dec).getD entry.2.quantity

/-- The row of a line, with the cost its gross profit was calculated from. -/
def CostedItem (sale : ℕ) (entry : NormalizedLine × LineParts) (item : SaleItem) : Prop :=
  ∃ warehouse unitCost, item = saleItemRow sale entry.1 entry.2 warehouse unitCost
    (money (dec unitCost * stockQuantity entry))

/-- The cost of a line at the checkout. -/
def checkoutCost (entry : NormalizedLine × LineParts) (item : SaleItem) : ℤ :=
  money (dec item.unitCost * stockQuantity entry)

/-- A computed line of a sale with its row. -/
structure IsBooking (sale : ℕ) (x : Booking) : Prop where
  row : CostedItem sale x.1 x.2.2
  total : x.1.2.total = x.1.2.base + x.1.2.tax
  base_nonneg : 0 ≤ x.1.2.base
  discount : x.1.2.discountAmount = x.1.1.discountAmount
  price : x.1.2.unitPrice = x.1.1.unitPrice
  quantity : x.1.2.quantity = x.1.1.quantity
  meter : x.1.1.fabricMeterUsed.isSome = true → x.1.1.quantity = 1

/-- What the rounding of the quantity does to the cost of a line. -/
def costDrift (x : Booking) : ℤ :=
  money (dec x.2.2.unitCost * dec x.2.2.inventoryQuantity) - checkoutCost x.1 x.2.2

/-- The taxable base of a line that is stored with quantity zero. -/
def vanishedBase (x : Booking) : ℤ := if x.2.2.quantity = 0 then x.1.2.base else 0

/-- The discounts of a line that is stored with quantity zero. -/
def vanishedDiscount (shares : List (ℕ × ℤ)) (e : ℕ × SaleItem) : ℤ :=
  if e.2.quantity = 0 then e.2.discountAmount + shareFor shares e.1 else 0

section Line

variable {sale : ℕ} {x : Booking} (h : IsBooking sale x)

include h

lemma IsBooking.grossProfit : x.2.2.grossProfit = x.1.2.base - checkoutCost x.1 x.2.2 := by
  obtain ⟨warehouse, unitCost, hrow⟩ := h.row
  unfold checkoutCost
  rw [hrow]
  rfl

lemma IsBooking.lineTotal_sub_taxAmount : x.2.2.lineTotal - x.2.2.taxAmount = x.1.2.base := by
  obtain ⟨warehouse, unitCost, hrow⟩ := h.row
  have htotal := h.total
  rw [hrow]
  show x.1.2.total - x.1.2.tax = _
  omega

lemma IsBooking.quantity_eq : x.2.2.quantity = qty x.1.1.quantity := by
  obtain ⟨warehouse, unitCost, hrow⟩ := h.row
  rw [hrow, ← h.quantity]
  rfl

lemma IsBooking.inventoryQuantity_eq : x.2.2.inventoryQuantity =
    if x.1.1.customerSuppliedFabric = true then 0
    else x.1.1.fabricMeterUsed.getD (qty x.1.1.quantity) := by
  obtain ⟨warehouse, unitCost, hrow⟩ := h.row
  rw [hrow, ← h.quantity]
  rfl

/-- The stored profit of a line and the one that is booked. -/
lemma IsBooking.profit_eq {share : ℤ} (hfits : FitsColumns x.2.2)
    (hshare : |x.2.2.discountAmount + share| < 10 ^ 28) :
    x.2.2.grossProfit = (itemAmounts x.2.2 x.2.2.quantity share).profit +
      (costDrift x + vanishedBase x) := by
  have hgross := h.grossProfit
  unfold costDrift vanishedBase
  by_cases hquantity : x.2.2.quantity = 0
  · -- nothing is taken from stock for a line of no quantity
    have hinventory : x.2.2.inventoryQuantity = 0 := by
      rw [h.inventoryQuantity_eq]
      split
      · rfl
      · cases hmeter : x.1.1.fabricMeterUsed with
        | none =>
          rw [Option.getD_none, ← h.quantity_eq, hquantity]
        | some m =>
          have hone := h.meter (by rw [hmeter]; rfl)
          rw [h.quantity_eq, hone, qty_one] at hquantity
          omega
    rw [itemAmounts_vanished hquantity, hinventory, if_pos hquantity, dec_zero, mul_zero,
      money_zero]
    dsimp only
    omega
  · rw [itemAmounts_eq hquantity hfits hshare, h.lineTotal_sub_taxAmount, if_neg hquantity]
    dsimp only
    omega

/-- A quantity of at most three decimals loses nothing. -/
lemma IsBooking.of_stored (hstored : Stored x.1.1.quantity) :
    costDrift x = 0 ∧ x.2.2.quantity ≠ 0 ∧ dec x.2.2.quantity = x.1.1.quantity := by
  have hquantity : dec x.2.2.quantity = x.1.1.quantity := by
    rw [h.quantity_eq]
    exact hstored
  have hstock : stockQuantity x.1 = dec x.2.2.inventoryQuantity := by
    rw [h.inventoryQuantity_eq, ← h.quantity_eq]
    unfold stockQuantity
    split
    · exact dec_zero.symm
    · cases x.1.1.fabricMeterUsed with
      | none =>
        rw [Option.map_none, Option.getD_none, Option.getD_none, h.quantity, hquantity]
      | some m => rfl
  refine ⟨?_, ?_, hquantity⟩
  · unfold costDrift checkoutCost
    rw [hstock, sub_self]
  · intro hzero
    have hpos := x.1.1.quantity_pos
    rw [← hquantity, hzero, dec_zero] at hpos
    exact lt_irrefl _ hpos

end Line

/-! ## A sale and its rows -/

/-- The rows of a sale fit their columns, and its lines have keys of sixty-four bits. -/
structure SaleFits (sale : Sale) (items : List (ℕ × SaleItem)) : Prop where
  lines : ∀ e ∈ items, LineFits e.2
  subtotal : |sale.subtotal| < 10 ^ 14
  count : items.length < 2 ^ 63

instance decidableLineFits (item : SaleItem) : Decidable (LineFits item) :=
  decidable_of_iff (((|item.lineTotal| < 10 ^ 14 ∧ |item.taxAmount| < 10 ^ 14) ∧
      |item.unitCost| < 10 ^ 14 ∧ |item.inventoryQuantity| < 10 ^ 14) ∧
        |item.unitPrice| < 10 ^ 14 ∧ |item.quantity| < 10 ^ 14 ∧ |item.discountAmount| < 10 ^ 14)
    ⟨fun h => ⟨⟨h.1.1.1, h.1.1.2, h.1.2.1, h.1.2.2⟩, h.2.1, h.2.2.1, h.2.2.2⟩,
      fun h => ⟨⟨⟨h.lineTotal, h.taxAmount⟩, h.unitCost, h.inventoryQuantity⟩, h.unitPrice,
        h.quantity, h.discountAmount⟩⟩

instance decidableSaleFits (sale : Sale) (items : List (ℕ × SaleItem)) :
    Decidable (SaleFits sale items) :=
  decidable_of_iff ((∀ e ∈ items, LineFits e.2) ∧ |sale.subtotal| < 10 ^ 14 ∧
      items.length < 2 ^ 63)
    ⟨fun h => ⟨h.1, h.2.1, h.2.2⟩, fun h => ⟨h.lines, h.subtotal, h.count⟩⟩

/-- A sale and the lines it was computed from. -/
structure BooksSale (id : ℕ) (sale : Sale) (discount : ℤ) (bookings : List Booking) : Prop where
  isBooking : ∀ x ∈ bookings, IsBooking id x
  nodup : ((bookings.map Prod.snd).map Prod.fst).Nodup
  discount_nonneg : 0 ≤ discount
  discount_le : discount ≤ sale.subtotal
  discountAmount : sale.discountAmount =
    ((bookings.map Prod.snd).map fun e => e.2.discountAmount).sum + discount
  grossProfit : sale.grossProfit = (bookings.map fun x => x.1.2.base).sum -
    (bookings.map fun x => checkoutCost x.1 x.2.2).sum

section Booked

variable {id : ℕ} {sale : Sale} {discount : ℤ} {bookings : List Booking}

lemma booked_eq (sale : Sale) (items : List (ℕ × SaleItem))
    (rows : Option (List ReturnedLine)) :
    (itemFinancialSummaryForSale sale items rows).booked = sumItemAmounts (items.map fun e =>
      itemAmounts e.2 e.2.quantity (shareFor (invoiceDiscountShares sale items) e.1)) := by
  unfold itemFinancialSummaryForSale
  split
  · rfl
  · cases rows <;> rfl

variable (h : BooksSale id sale discount bookings)

include h

lemma BooksSale.recomputedDiscount_eq :
    recomputedDiscount sale (bookings.map Prod.snd) = discount := by
  have hnonneg := h.discount_nonneg
  unfold recomputedDiscount
  rw [h.discountAmount]
  omega

lemma BooksSale.abs_discount_lt (hfits : SaleFits sale (bookings.map Prod.snd))
    {e : ℕ × SaleItem} (he : e ∈ bookings.map Prod.snd) :
    |e.2.discountAmount + shareFor (invoiceDiscountShares sale (bookings.map Prod.snd)) e.1| <
      10 ^ 28 := by
  have hitem := (hfits.lines e he).discountAmount
  have hnonneg := h.discount_nonneg
  have hle := h.discount_le
  have hsubtotal := (abs_lt.mp hfits.subtotal).2
  have hcount := hfits.count
  have hbound : 0 ≤ 5 * recomputedDiscount sale (bookings.map Prod.snd) +
      (bookings.map Prod.snd).length := by
    rw [h.recomputedDiscount_eq]
    omega
  have hshare := abs_shareFor_le hbound (abs_invoiceDiscountShares_le sale
    (bookings.map Prod.snd)) e.1
  have htriangle := abs_add_le e.2.discountAmount
    (shareFor (invoiceDiscountShares sale (bookings.map Prod.snd)) e.1)
  rw [h.recomputedDiscount_eq] at hshare
  have hlength : ((bookings.map Prod.snd).length : ℤ) < 2 ^ 63 := by exact_mod_cast hcount
  norm_num at hitem hsubtotal hlength ⊢
  linarith

/-- The stored profit is the booked one and what the quantities lost. -/
lemma BooksSale.profit_eq (hfits : SaleFits sale (bookings.map Prod.snd))
    (rows : Option (List ReturnedLine)) :
    ((bookings.map Prod.snd).map fun e => e.2.grossProfit).sum =
      (itemFinancialSummaryForSale sale (bookings.map Prod.snd) rows).booked.profit +
        ((bookings.map costDrift).sum + (bookings.map vanishedBase).sum) := by
  rw [booked_eq]
  simp only [sumItemAmounts, List.map_map]
  rw [← List.sum_map_add, ← List.sum_map_add]
  refine congrArg List.sum (List.map_congr_left fun x hx => ?_)
  have hmem : x.2 ∈ bookings.map Prod.snd := List.mem_map.mpr ⟨x, hx, rfl⟩
  exact (h.isBooking x hx).profit_eq (hfits.lines _ hmem).toFitsColumns
    (h.abs_discount_lt hfits hmem)

/-- The booked discounts are the stored ones without those that no line is booked with. -/
lemma BooksSale.discount_eq (hfits : SaleFits sale (bookings.map Prod.snd))
    (rows : Option (List ReturnedLine)) :
    (itemFinancialSummaryForSale sale (bookings.map Prod.snd) rows).booked.discount +
        (((bookings.map Prod.snd).map (vanishedDiscount
          (invoiceDiscountShares sale (bookings.map Prod.snd)))).sum +
        unallocatedDiscount sale (bookings.map Prod.snd)) =
      sale.discountAmount := by
  set items := bookings.map Prod.snd with hitems
  set shares := invoiceDiscountShares sale items with hshares
  have hkeys : shares.map Prod.fst = items.map Prod.fst := keys_invoiceDiscountShares sale items
  have hallocated : (items.map fun e => shareFor shares e.1).sum =
      discount - unallocatedDiscount sale items := by
    have hvalues := map_shareFor (hkeys ▸ h.nodup : (shares.map Prod.fst).Nodup)
    rw [hkeys, List.map_map] at hvalues
    have hsum := sum_invoiceDiscountShares sale items
    rw [h.recomputedDiscount_eq, ← hshares, ← hvalues] at hsum
    exact hsum
  have hlines : (items.map fun e =>
      (itemAmounts e.2 e.2.quantity (shareFor shares e.1)).discount).sum +
        (items.map (vanishedDiscount shares)).sum =
      (items.map fun e => e.2.discountAmount).sum + (items.map fun e => shareFor shares e.1).sum := by
    rw [← List.sum_map_add, ← List.sum_map_add]
    refine congrArg List.sum (List.map_congr_left fun e he => ?_)
    unfold vanishedDiscount
    by_cases hquantity : e.2.quantity = 0
    · rw [itemAmounts_vanished hquantity, if_pos hquantity, zero_add]
    · rw [itemAmounts_eq hquantity (hfits.lines e he).toFitsColumns (h.abs_discount_lt hfits he),
        if_neg hquantity, add_zero]
  have hdiscount (f : ℕ × SaleItem → ItemFinancialAmounts) :
      (sumItemAmounts (items.map f)).discount = (items.map fun e => (f e).discount).sum := by
    simp only [sumItemAmounts, List.map_map, Function.comp_def]
  rw [booked_eq, hdiscount, h.discountAmount, ← hshares, ← hitems]
  omega

/-- The stored profits of the lines add up to that of the sale. -/
lemma BooksSale.stored :
    sale.grossProfit = ((bookings.map Prod.snd).map fun e => e.2.grossProfit).sum := by
  rw [h.grossProfit, List.map_map, ← sum_map_sub]
  refine congrArg List.sum (List.map_congr_left fun x hx => ?_)
  exact ((h.isBooking x hx).grossProfit).symm

end Booked

/-! ## What a checkout writes -/

lemma lineStock_quantity {s : State} {r : CheckoutRequest} {entry : NormalizedLine × LineParts}
    {warehouse : Option ℕ} {unitCost : ℤ} {quantity : ℚ}
    (h : lineStock s r entry.1 entry.2 = .ok (warehouse, unitCost, quantity)) :
    quantity = stockQuantity entry := by
  unfold lineStock at h
  unfold stockQuantity
  split at h
  · rename_i hfabric
    cases h
    rw [if_pos hfabric]
  · rename_i hfabric
    simp only [except_bind_eq_ok, pure, Except.pure, Except.ok.injEq, Prod.mk.injEq] at h
    obtain ⟨-, -, -, -, rfl⟩ := h
    rw [if_neg hfabric]

/-- One line of the loop: its row, and what it adds to the cost of the sale. -/
lemma runs_writeLine_cost {c : Call} {r : CheckoutRequest} {sale : ℕ} {number : Text}
    {cost cost' : ℤ} {entry : NormalizedLine × LineParts} {s t : State}
    (h : Runs (writeLine c r sale number cost entry) s cost' t) :
    ∃ item, t.sales.items = s.sales.items ++ [item] ∧ CostedItem sale entry item ∧
      cost' = cost + checkoutCost entry item := by
  unfold writeLine at h
  simp only [runs_bind, runs_reads, runs_get, runs_modify, runs_pure] at h
  obtain ⟨⟨warehouse, unitCost, quantity⟩, _, ⟨hstock, rfl⟩, u, _, ⟨rfl, rfl⟩, _, _, rfl, _, _,
    hrecord, rfl, rfl⟩ := h
  obtain rfl := lineStock_quantity hstock
  have hsales := within_recordOptional (fun m _ => within_rest_recordMovement m) hrecord
  refine ⟨_, congrArg SalesTables.items (sales_of_rest hsales), ⟨warehouse, unitCost, rfl⟩, rfl⟩

lemma runs_writeLines_cost {c : Call} {r : CheckoutRequest} {sale : ℕ} {number : Text}
    {entries : List (NormalizedLine × LineParts)} {cost cost' : ℤ} {s t : State}
    (h : Runs (entries.foldlM (writeLine c r sale number) cost) s cost' t) :
    ∃ items, t.sales.items = s.sales.items ++ items ∧
      List.Forall₂ (CostedItem sale) entries items ∧
      cost' = cost + (List.zipWith checkoutCost entries items).sum := by
  induction entries generalizing cost s with
  | nil =>
    obtain ⟨rfl, rfl⟩ := runs_foldlM_nil.mp h
    exact ⟨[], by simp, .nil, by simp⟩
  | cons entry entries ih =>
    obtain ⟨cost₁, u, h₁, h₂⟩ := runs_foldlM_cons.mp h
    obtain ⟨item, hitem, hcosted, rfl⟩ := runs_writeLine_cost h₁
    obtain ⟨items, hitems, hrest, rfl⟩ := ih h₂
    refine ⟨item :: items, ?_, .cons hcosted hrest, ?_⟩
    · rw [hitems, hitem, List.append_assoc, List.singleton_append]
    · rw [List.zipWith_cons_cons, List.sum_cons, add_assoc]

/-- A call that stores a new sale, with the cost it adds up. -/
lemma saleMade_costed {c : Call} {r : CheckoutRequest} {s t : State} {id : ℕ}
    (h : Runs (completeSale c r) s id t) (hnew : s.sales.sales[id]? = none) :
    ∃ p number items, SaleMade c r s t id p number items ∧
      List.Forall₂ (CostedItem id) p.totals.lines items ∧
      ∃ row, row = saleRow c r p row.invoiceNumber ∧ t.sales.sales[id]? = some (settledSale r p
        (List.zipWith checkoutCost p.totals.lines items).sum row) := by
  rcases runs_completeSale_cases h with hreplayed | ⟨customer, p, u, hcontext, htoken, hprepared,
    hcreate, hfinish⟩
  · obtain ⟨-, sale, -, -, hsale, -⟩ := hreplayed.found
    rw [hnew] at hsale
    exact nomatch hsale
  · obtain ⟨number, items, hmade⟩ :=
      saleMade_of_runs hcontext htoken hprepared hcreate hfinish
    obtain ⟨hcredit, hstore⟩ := accountTenders_nonneg hprepared
    obtain ⟨number', v, hnumber, hid, -, hu⟩ := runs_createSale hcreate
    obtain ⟨branch, last, -, -, -, -, hv⟩ := runs_nextInvoiceNumber hnumber
    unfold finishSale at hfinish
    simp only [runs_bind, runs_reads, runs_modify, found_eq_ok] at hfinish
    obtain ⟨row, u', ⟨hrow, hsame⟩, totalCost, w, hlines, ht⟩ := hfinish
    subst u'
    obtain ⟨items', hitems, hcosted, rfl⟩ := runs_writeLines_cost hlines
    obtain ⟨written, hwritten⟩ := runs_writeLines hlines
    have hsales : w.sales = { u.sales with items := u.sales.items ++ written } :=
      sales_of_rest hwritten.rest
    rw [settleSale_eq _ _ _ hcredit hstore] at ht
    have hrow' : row = saleRow c r p row.invoiceNumber := by
      rw [hu, hid] at hrow
      have heq : saleRow c r p number' = row := by simpa using hrow
      rw [← heq]
      rfl
    obtain ⟨totalCost, sequences, hmadeSales⟩ := hmade.sales
    have hsame : items' = items := by
      have hbefore : u.sales.items = s.sales.items := by rw [hu, hv]
      have hafter : t.sales.items = w.sales.items := by rw [ht]
      have happend := congrArg SalesTables.items hmadeSales
      rw [hafter, hitems, hbefore] at happend
      exact List.append_cancel_left happend
    subst hsame
    refine ⟨p, number, items', hmade, hcosted, row, hrow', ?_⟩
    have hstored : t.sales.sales = u.sales.sales.modify id (settledSale r p
        (0 + (List.zipWith checkoutCost p.totals.lines items').sum)) := by
      rw [ht, hsales]
    rw [hstored, List.getElem?_modify_eq, hrow, zero_add]
    rfl

/-! ## The sale of a checkout -/

/-- What `calculate_sale_totals` says about its lines. -/
structure TotalsOfLines (totals : SaleTotals) : Prop where
  line : ∀ e ∈ totals.lines, e.2.total = e.2.base + e.2.tax ∧ 0 ≤ e.2.base ∧
    e.2.discountAmount = e.1.discountAmount ∧ e.2.unitPrice = e.1.unitPrice
  base : (totals.lines.map fun e => e.2.base).sum = totals.subtotal - totals.invoiceDiscount
  discount : totals.discountTotal =
    (totals.lines.map fun e => e.2.discountAmount).sum + totals.invoiceDiscount
  nonneg : 0 ≤ totals.invoiceDiscount
  le_subtotal : totals.invoiceDiscount ≤ totals.subtotal
  charged : 0 < totals.subtotal → ∃ e ∈ totals.lines, 0 < grossAfterItemDiscount e.1

lemma totalsOfLines {settings : BusinessSettings} {items : List NormalizedLine} {discount : ℤ}
    {totals : SaleTotals} (h : calculateSaleTotals settings items discount = .ok totals) :
    totals.invoiceDiscount = discount ∧ TotalsOfLines totals := by
  obtain ⟨hvalid, shares, hshares, hcarries, rfl⟩ := calculateSaleTotals_eq_ok.mp h
  have hlength := hcarries.length_eq.symm
  have hallocate := hshares
  unfold allocateDiscount at hallocate
  simp only [except_bind_eq_ok, require_eq_ok, decide_eq_true_eq] at hallocate
  obtain ⟨-, hnonneg, -, hle, -⟩ := hallocate
  have hsnd : (totalsWith settings items shares discount).lines.map Prod.snd =
      List.zipWith (fun line share => partsAt settings line (firstRate settings line) share)
        items shares := map_snd_lines hlength
  have hsum (f : LineParts → ℤ) :
      ((totalsWith settings items shares discount).lines.map fun e => f e.2).sum =
        ((List.zipWith (fun line share => partsAt settings line (firstRate settings line) share)
          items shares).map f).sum := by
    rw [← hsnd, List.map_map]
    rfl
  have hline : ∀ e ∈ (totalsWith settings items shares discount).lines,
      e.2.total = e.2.base + e.2.tax ∧ 0 ≤ e.2.base ∧
        e.2.discountAmount = e.1.discountAmount ∧ e.2.unitPrice = e.1.unitPrice := by
    intro e he
    obtain ⟨share, -, ⟨-, hcarry⟩, hparts⟩ := mem_lines hcarries he
    rw [hparts]
    exact ⟨rfl, sub_nonneg.mpr hcarry, rfl, rfl⟩
  have hfst : (totalsWith settings items shares discount).lines.map Prod.fst = items := by
    apply List.map_fst_zip
    rw [List.length_zipWith]
    omega
  refine ⟨rfl, {
    line := hline
    base := ?_
    discount := ?_
    nonneg := hnonneg
    le_subtotal := hle
    charged := ?_ }⟩
  · have htotal := hsum LineParts.total
    rw [sum_total_zipWith hlength, sum_allocateDiscount hshares, ← hsum LineParts.tax,
      List.map_congr_left fun e he => (hline e he).1, List.sum_map_add] at htotal
    simp only [totalsWith] at htotal ⊢
    omega
  · rw [List.map_congr_left fun e he => (hline e he).2.2.1]
    have hdiscounts : (totalsWith settings items shares discount).lines.map
        (fun e => e.1.discountAmount) = items.map NormalizedLine.discountAmount := by
      rw [← hfst, List.map_map, hfst]
      rfl
    rw [hdiscounts]
    rfl
  · intro hpos
    by_contra hnone
    push Not at hnone
    have hzero : (lineBases settings items).sum = 0 := by
      apply List.sum_eq_zero
      intro x hx
      obtain ⟨line, hmem, rfl⟩ := List.mem_map.mp hx
      rw [← hfst] at hmem
      obtain ⟨e, he, rfl⟩ := List.mem_map.mp hmem
      have hgross : grossAfterItemDiscount e.1 = 0 := by
        have hvalidLine := hvalid e.1 (hfst ▸ List.mem_map.mpr ⟨e, he, rfl⟩)
        have hle := hnone e he
        omega
      unfold lineBase
      rw [hgross]
      simp
    have hsubtotal : (totalsWith settings items shares discount).subtotal =
        (lineBases settings items).sum := rfl
    omega

/-- The stored lines of a new sale are the lines of the sale. -/
lemma SaleMade.itemsOfSale_eq {c : Call} {r : CheckoutRequest} {s t : State} {id : ℕ}
    {p : PreparedSale} {number : Text} {items : List SaleItem}
    (h : SaleMade c r s t id p number items) (hs : (salesView s).Recorded) :
    (itemsOfSale t id).map Prod.snd = items := by
  obtain ⟨totalCost, sequences, hsales⟩ := h.sales
  have hitems : t.sales.items = s.sales.items ++ items := by rw [hsales]
  have hold : s.sales.items.filter (fun i => i.sale = id) = [] := by
    refine List.filter_eq_nil_iff.mpr fun item hitem => ?_
    obtain ⟨line, hline⟩ := List.mem_iff_getElem?.mp hitem
    have hlt := hs.item_sale_lt hline
    have hid := h.id_eq
    simp only [decide_eq_true_eq]
    omega
  have hnew : items.filter (fun i => i.sale = id) = items := by
    refine List.filter_eq_self.mpr fun item hitem => ?_
    simpa using (h.lineRecorded hitem).1
  unfold itemsOfSale
  rw [map_snd_childrenOf, hitems, List.filter_append, hold, hnew, List.nil_append]

/-- The computed lines of a new sale with their rows. -/
def bookingsOf (p : PreparedSale) (t : State) (id : ℕ) : List Booking :=
  p.totals.lines.zip (itemsOfSale t id)

/-- A new sale is booked from its computed lines. -/
lemma SaleMade.booksSale {c : Call} {r : CheckoutRequest} {s t : State} {id : ℕ}
    {p : PreparedSale} {number : Text} {items : List SaleItem} {row : Sale}
    (h : SaleMade c r s t id p number items) (hs : (salesView s).Recorded)
    (hcosted : List.Forall₂ (CostedItem id) p.totals.lines items)
    (hrow : row = saleRow c r p row.invoiceNumber) :
    (bookingsOf p t id).map Prod.snd = itemsOfSale t id ∧
      (bookingsOf p t id).map Prod.fst = p.totals.lines ∧ TotalsOfLines p.totals ∧
      BooksSale id (settledSale r p (List.zipWith checkoutCost p.totals.lines items).sum row)
        p.totals.invoiceDiscount (bookingsOf p t id) := by
  have hitems := h.itemsOfSale_eq hs
  have hlength : (itemsOfSale t id).length = p.totals.lines.length := by
    rw [hcosted.length_eq, ← hitems, List.length_map]
  have hsnd : (bookingsOf p t id).map Prod.snd = itemsOfSale t id :=
    List.map_snd_zip hlength.le
  have hfst : (bookingsOf p t id).map Prod.fst = p.totals.lines :=
    List.map_fst_zip hlength.ge
  obtain ⟨customer, -, hprepared⟩ := h.prepared
  obtain ⟨lines, -, -, htotals, -⟩ := prepareSale_ok hprepared
  obtain ⟨hdiscount, htotals⟩ := totalsOfLines htotals
  have hrows : List.Forall₂ (CostedItem id) p.totals.lines ((itemsOfSale t id).map Prod.snd) := by
    rw [hitems]
    exact hcosted
  have hbooking : ∀ x ∈ bookingsOf p t id, IsBooking id x := by
    intro x hx
    obtain ⟨hentry, -⟩ := List.of_mem_zip hx
    obtain ⟨hquantity, -, hmeter⟩ := h.lines_ok.2 x.1 hentry
    obtain ⟨htotal, hbase, hdiscount, hprice⟩ := htotals.line x.1 hentry
    refine ⟨?_, htotal, hbase, hdiscount, hprice, hquantity, fun hsome => (hmeter hsome).2⟩
    rw [List.forall₂_map_right_iff] at hrows
    exact (List.forall₂_iff_zip.mp hrows).2 hx
  refine ⟨hsnd, hfst, htotals, {
    isBooking := hbooking
    nodup := ?_
    discount_nonneg := htotals.nonneg
    discount_le := ?_
    discountAmount := ?_
    grossProfit := ?_ }⟩
  · rw [hsnd]
    exact nodup_keys_childrenOf _ _ _
  · rw [hrow]
    exact htotals.le_subtotal
  · have hstored : (settledSale r p (List.zipWith checkoutCost p.totals.lines items).sum
        row).discountAmount = p.totals.discountTotal := by
      rw [hrow]
      rfl
    have hparts : p.totals.lines.map (fun e => e.2.discountAmount) =
        ((bookingsOf p t id).map Prod.snd).map fun e => e.2.discountAmount := by
      rw [← hfst, List.map_map, List.map_map]
      refine List.map_congr_left fun x hx => ?_
      obtain ⟨warehouse, unitCost, hitem⟩ := (hbooking x hx).row
      show x.1.2.discountAmount = x.2.2.discountAmount
      rw [hitem]
      rfl
    rw [hstored, htotals.discount, hparts]
  · have hcosts : (bookingsOf p t id).map (fun x => checkoutCost x.1 x.2.2) =
        List.zipWith checkoutCost p.totals.lines items := by
      unfold bookingsOf
      rw [← hitems, List.zipWith_map_right, List.zip, List.map_zipWith]
    have hbases : ((bookingsOf p t id).map fun x => x.1.2.base) =
        p.totals.lines.map fun e => e.2.base := by
      rw [← hfst, List.map_map]
      rfl
    rw [hcosts, hbases, htotals.base, hdiscount]
    rfl

/-- A line is computed with the quantity of its cart entry. -/
lemma normalizeLine_quantity {c : Call} {s : State} {branch customer : ℕ}
    {entry : (CartLine × Option ℕ) × ℕ} {line : NormalizedLine}
    (h : normalizeLine c s branch customer entry = .ok line) :
    line.quantity = entry.1.1.quantity := by
  unfold normalizeLine at h
  simp only [except_bind_eq_ok, pure, Except.pure] at h
  obtain ⟨product, -, -, -, variant, -, -, -, customerFabric, -, -, -, -, -, -, -, hquantity, -,
    price, -, -, -, details, -, hgarment⟩ := h
  split at hgarment
  · rw [except_bind_eq_ok] at hgarment
    obtain ⟨garment, -, hline⟩ := hgarment
    cases hline
    rfl
  · split at hgarment
    all_goals
      rw [except_bind_eq_ok] at hgarment
      obtain ⟨garment, -, hline⟩ := hgarment
      cases hline
      rfl

lemma stored_of_cart {c : Call} {r : CheckoutRequest} {customer : Customer} {s : State}
    {p : PreparedSale} (h : prepareSale c r customer p.token s = .ok p)
    (hstored : ∀ item ∈ r.items, Stored item.quantity) :
    ∀ e ∈ p.totals.lines, Stored e.1.quantity := by
  intro e he
  obtain ⟨lines, -, hlines, htotals, -⟩ := prepareSale_ok h
  have hmem := ((calculateSaleTotals_ok htotals).2 e he).1
  unfold normalizeItems at hlines
  simp only [except_bind_eq_ok, mapM_eq_ok] at hlines
  obtain ⟨members, -, hlines⟩ := hlines
  obtain ⟨entry, hentry, hline⟩ := exists_of_forall₂_mem hlines hmem
  have hzip := List.fst_mem_of_mem_zipIdx hentry
  have hitem : entry.1.1 ∈ r.items := (List.of_mem_zip (b := entry.1.2) hzip).1
  rw [normalizeLine_quantity hline]
  exact hstored _ hitem

/-! ## The two computations -/

/-- The stored gross profit of a sale is that of its lines and the one that is recomputed from
them, and the recomputed discounts are the stored one. -/
structure ProfitAgrees (sale : Sale) (items : List (ℕ × SaleItem)) : Prop where
  stored : sale.grossProfit = (items.map fun e => e.2.grossProfit).sum
  booked : ∀ rows,
    (itemFinancialSummaryForSale sale items rows).booked.profit = sale.grossProfit
  discount : ∀ rows,
    (itemFinancialSummaryForSale sale items rows).booked.discount = sale.discountAmount

/-- What the rounding of the quantities does to a sale does not show: what it adds to the costs
and takes away with the lines that are stored with quantity zero cancels, and so do the discounts
that no line is booked with. -/
structure QuantitiesCancel (sale : Sale) (bookings : List Booking) : Prop where
  profit : (bookings.map costDrift).sum + (bookings.map vanishedBase).sum = 0
  discount : ((bookings.map Prod.snd).map (vanishedDiscount
      (invoiceDiscountShares sale (bookings.map Prod.snd)))).sum +
    unallocatedDiscount sale (bookings.map Prod.snd) = 0

/-- The two computations agree exactly when the roundings of the quantities cancel. -/
lemma BooksSale.agrees_iff {id : ℕ} {sale : Sale} {discount : ℤ} {bookings : List Booking}
    (h : BooksSale id sale discount bookings) (hfits : SaleFits sale (bookings.map Prod.snd)) :
    ProfitAgrees sale (bookings.map Prod.snd) ↔ QuantitiesCancel sale bookings := by
  have hstored := h.stored
  constructor
  · intro hagrees
    have hprofit := h.profit_eq hfits none
    have hdiscount := h.discount_eq hfits none
    rw [hagrees.booked none] at hprofit
    rw [hagrees.discount none] at hdiscount
    exact ⟨by omega, by omega⟩
  · intro hcancel
    have hprofitZero := hcancel.profit
    have hdiscountZero := hcancel.discount
    refine ⟨hstored, fun rows => ?_, fun rows => ?_⟩
    · have hprofit := h.profit_eq hfits rows
      omega
    · have hdiscount := h.discount_eq hfits rows
      omega

/-- Quantities of at most three decimals lose nothing. -/
lemma BooksSale.cancel_of_stored {id : ℕ} {sale : Sale} {discount : ℤ} {bookings : List Booking}
    (h : BooksSale id sale discount bookings) (hfits : SaleFits sale (bookings.map Prod.snd))
    (hcharged : 0 < discount → ∃ x ∈ bookings, 0 < grossAfterItemDiscount x.1.1)
    (hstored : ∀ x ∈ bookings, Stored x.1.1.quantity) : QuantitiesCancel sale bookings := by
  have hline := fun x hx => (h.isBooking x hx).of_stored (hstored x hx)
  have hzero (f : Booking → ℤ) (hf : ∀ x ∈ bookings, f x = 0) : (bookings.map f).sum = 0 := by
    apply List.sum_eq_zero
    intro y hy
    obtain ⟨x, hx, rfl⟩ := List.mem_map.mp hy
    exact hf x hx
  constructor
  · rw [hzero costDrift fun x hx => (hline x hx).1,
      hzero vanishedBase fun x hx => if_neg (hline x hx).2.1, add_zero]
  · rw [List.map_map, hzero (vanishedDiscount _ ∘ Prod.snd) fun x hx => if_neg (hline x hx).2.1,
      zero_add]
    unfold unallocatedDiscount
    split
    · rfl
    · rename_i hnone
      rw [h.recomputedDiscount_eq]
      by_contra hne
      have hnonneg := h.discount_nonneg
      obtain ⟨x, hx, hgross⟩ := hcharged (by omega)
      refine hnone (.inr ?_)
      -- the line that was charged weighs its amount
      have hmem : x.2 ∈ bookings.map Prod.snd := List.mem_map.mpr ⟨x, hx, rfl⟩
      have hlineFits := hfits.lines _ hmem
      have hweight : 0 < max (decimalContext (dec x.2.2.unitPrice * dec x.2.2.quantity) -
          dec x.2.2.discountAmount) 0 := by
        have hisBooking := h.isBooking x hx
        obtain ⟨warehouse, unitCost, hitem⟩ := hisBooking.row
        have hprice : x.2.2.unitPrice = x.1.1.unitPrice := by
          rw [← hisBooking.price, hitem]
          rfl
        have hdiscount : x.2.2.discountAmount = x.1.1.discountAmount := by
          rw [← hisBooking.discount, hitem]
          rfl
        rw [decimalContext_dec_mul hlineFits.unitPrice hlineFits.quantity, (hline x hx).2.2,
          hprice, hdiscount]
        apply lt_max_of_lt_left
        by_contra hle
        have hmoney := money_mono (not_lt.mp hle)
        rw [money_zero] at hmoney
        unfold grossAfterItemDiscount at hgross
        omega
      have hsingle := List.single_le_sum (l := (grossWeights (bookings.map Prod.snd)).map Prod.snd)
        (by
          intro y hy
          obtain ⟨w, hw, rfl⟩ := List.mem_map.mp hy
          exact grossWeights_nonneg _ w hw)
        _ (List.mem_map.mpr ⟨_, List.mem_map.mpr ⟨x.2, hmem, rfl⟩, rfl⟩)
      exact hweight.trans_le hsingle

/-- **Gross profit.**  The gross profit that `complete_sale` stores with a new sale is the sum of
those of its lines.  It is the one that `item_financial_summary_for_sale` books, and the booked
discounts are the stored one, exactly when the roundings of the quantities cancel, as they do
when every quantity of the cart has at most three decimals. -/
theorem gross_profit_agrees_iff {ops : List Op} {c : Call} {r : CheckoutRequest} {id : ℕ}
    {t : State} (h : Runs (completeSale c r) (history ops) id t)
    (hnew : (history ops).sales.sales[id]? = none)
    (hfits : ∀ sale ∈ t.sales.sales[id]?, SaleFits sale (itemsOfSale t id)) :
    ∃ p sale customer, checkoutContext c r (history ops) = .ok customer ∧
      prepareSale c r customer p.token (history ops) = .ok p ∧
      t.sales.sales[id]? = some sale ∧
      (bookingsOf p t id).map Prod.fst = p.totals.lines ∧
      sale.grossProfit = ((itemsOfSale t id).map fun e => e.2.grossProfit).sum ∧
      (ProfitAgrees sale (itemsOfSale t id) ↔ QuantitiesCancel sale (bookingsOf p t id)) ∧
      ((∀ item ∈ r.items, Stored item.quantity) →
        QuantitiesCancel sale (bookingsOf p t id)) := by
  obtain ⟨p, number, items, hmade, hcosted, row, hrow, hsale⟩ := saleMade_costed h hnew
  obtain ⟨hsnd, hfst, htotals, hbooks⟩ := hmade.booksSale (recorded_history ops) hcosted hrow
  have hfits' := hfits _ hsale
  have hstored := hbooks.stored
  rw [← hsnd] at hfits'
  rw [hsnd] at hstored
  obtain ⟨customer, hcontext, hprepared⟩ := hmade.prepared
  refine ⟨p, _, customer, hcontext, hprepared, hsale, hfst, hstored, ?_, fun hquantities => ?_⟩
  · rw [← hsnd]
    exact hbooks.agrees_iff hfits'
  · refine hbooks.cancel_of_stored hfits' (fun hpos => ?_) fun x hx => ?_
    · obtain ⟨e, he, hgross⟩ := htotals.charged (hpos.trans_le htotals.le_subtotal)
      rw [← hfst] at he
      obtain ⟨x, hx, rfl⟩ := List.mem_map.mp he
      exact ⟨x, hx, hgross⟩
    · have hmem : x.1 ∈ p.totals.lines := hfst ▸ List.mem_map.mpr ⟨x, hx, rfl⟩
      exact stored_of_cart hprepared hquantities x.1 hmem

/-- A shop with a cloth that costs 1000.000 and sells at 2000.000. -/
def clothShop : List Op := Shop.setup ++ [
  .saveMasterData (.product none { name := "cloth", salePrice := 2000000 }),
  .ensureBranchOpeningStock Shop.call ⟨0, 0, none⟩ 10 1000]

/-- Two and a half of the cloth are booked with the profit that is stored. -/
theorem gross_profit_agrees_cloth : ∃ t sale,
    Runs (completeSale Shop.call (Shop.cart (5 / 2) [⟨0, 5000⟩])) (history clothShop) 0 t ∧
      t.sales.sales[0]? = some sale ∧ ProfitAgrees sale (itemsOfSale t 0) := by
  obtain ⟨id, hruns⟩ := runs_commit
    (m := completeSale Shop.call (Shop.cart (5 / 2) [⟨0, 5000⟩])) (s := history clothShop)
    (by decide +kernel)
  have hid : ((completeSale Shop.call (Shop.cart (5 / 2) [⟨0, 5000⟩])).run
      (history clothShop)).toOption.map Prod.fst = some 0 := by decide +kernel
  have hrun := hruns
  unfold Runs at hrun
  rw [hrun] at hid
  obtain rfl : id = 0 := Option.some.inj hid
  obtain ⟨p, sale, customer, hcontext, hprepared, hsale, -, -, hagrees, hstored⟩ :=
    gross_profit_agrees_iff hruns (by decide +kernel) (by decide +kernel)
  exact ⟨_, sale, hruns, hsale, hagrees.mpr (hstored (by decide +kernel))⟩

/-- A cart of 0.5004 of the cloth is accepted.  Its cost is 500.400 at the checkout and 500.000
from the row, whose quantity is 0.500. -/
theorem gross_profit_disagrees : ∃ t sale,
    Runs (completeSale Shop.call (Shop.cart (1251 / 2500) [⟨0, 5004 / 5⟩])) (history clothShop)
        0 t ∧
      t.sales.sales[0]? = some sale ∧ sale.grossProfit = 500400 ∧
      (itemFinancialSummaryForSale sale (itemsOfSale t 0) none).booked.profit = 500800 ∧
      ¬ ProfitAgrees sale (itemsOfSale t 0) := by
  obtain ⟨id, hruns⟩ := runs_commit
    (m := completeSale Shop.call (Shop.cart (1251 / 2500) [⟨0, 5004 / 5⟩]))
    (s := history clothShop) (by decide +kernel)
  have hid : ((completeSale Shop.call (Shop.cart (1251 / 2500) [⟨0, 5004 / 5⟩])).run
      (history clothShop)).toOption.map Prod.fst = some 0 := by decide +kernel
  have hrun := hruns
  unfold Runs at hrun
  rw [hrun] at hid
  obtain rfl : id = 0 := Option.some.inj hid
  have hsale : ((commit (completeSale Shop.call (Shop.cart (1251 / 2500) [⟨0, 5004 / 5⟩]))
      (history clothShop)).sales.sales[0]?).any (fun sale => sale.grossProfit = 500400 ∧
        (itemFinancialSummaryForSale sale (itemsOfSale (commit (completeSale Shop.call
          (Shop.cart (1251 / 2500) [⟨0, 5004 / 5⟩])) (history clothShop)) 0) none).booked.profit =
            500800) = true := by decide +kernel
  obtain ⟨sale, hrow, hfigures⟩ := (Option.any_eq_true _ _).mp hsale
  obtain ⟨hstored, hbooked⟩ := of_decide_eq_true hfigures
  refine ⟨_, sale, hruns, hrow, hstored, hbooked, fun hagrees => ?_⟩
  have hsame := hagrees.booked none
  rw [hbooked, hstored] at hsame
  omega

end NexaPos
