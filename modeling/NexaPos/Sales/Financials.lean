import NexaPos.Sales.Services
import NexaPos.Lib.SignificantDigits

/-!
# Net financial figures of sales and returns

The figures that the reports show are derived from the stored rows: the sale, its lines, its
payments and its returns.  Nothing here writes.  `financialSummaryForSale` is one invoice: what
was sold, what came back, what was paid, and what is still receivable on it.

The economics of the lines are computed twice.  `itemFinancialSummaryForSale` and `netItemValues`
read the rows and calculate in the interpreter, where every operation is kept to 28 significant
digits; `itemActivitySummary` asks the database for the sums of rounded expressions.
-/

namespace NexaPos

open Rounding

/-! ## Tenders -/

/-- `REFUND_TO_TENDER_KIND`. -/
def RefundMethod.tenderKind : RefundMethod → PaymentKind
  | .cash => .cash
  | .card => .card
  | .bank => .bank
  | .customerAccount => .customerCredit
  | .storeCredit => .storeCredit

/-- `SETTLED_REFUND_METHODS`: the refunds that reverse what `amount_paid` treats as settled. -/
def RefundMethod.isSettled (m : RefundMethod) : Bool := m != .customerAccount

/-- `TenderSummary`: the amounts of every payment kind. -/
structure TenderSummary where
  gross : PaymentKind → ℤ
  refunds : PaymentKind → ℤ
  net : PaymentKind → ℤ

/-- `amount(kind)`. -/
def TenderSummary.amount (t : TenderSummary) (kind : PaymentKind) : ℤ := t.net kind

/-- `tender_summary_from_records`, with the kind each payment was made in. -/
def tenderSummaryFromRecords (payments : List (Option PaymentKind × ℤ))
    (returns : List SaleReturn) : TenderSummary where
  gross kind := ((payments.filter fun x => x.1 = some kind).map Prod.snd).sum
  refunds kind := ((returns.filter fun x => x.refundMethod.tenderKind = kind).map
    SaleReturn.refundAmount).sum
  net kind := ((payments.filter fun x => x.1 = some kind).map Prod.snd).sum -
    ((returns.filter fun x => x.refundMethod.tenderKind = kind).map SaleReturn.refundAmount).sum

/-! ## One invoice -/

/-- `SaleFinancialSummary`. -/
structure SaleFinancialSummary where
  grossSales : ℤ
  returned : ℤ
  netSales : ℤ
  netPaid : ℤ
  receivable : ℤ
  tenders : TenderSummary

/-- `financial_summary_for_sale`. -/
def financialSummaryForSale (s : State) (id : ℕ) (sale : Sale) : SaleFinancialSummary :=
  let returns := returnsOfSale s id
  let tenders := tenderSummaryFromRecords
    ((paymentsOfSale s id).map fun p => (paymentKind s p, p.amount)) returns
  if sale.status = .voided then
    { grossSales := sale.total
      returned := 0
      netSales := 0
      netPaid := 0
      receivable := 0
      tenders := { tenders with net := fun _ => 0 } }
  else
    let returned := (returns.map SaleReturn.refundAmount).sum
    let netSales := sale.total - returned
    let settledRefunds := ((returns.filter fun x => x.refundMethod.isSettled).map
      SaleReturn.refundAmount).sum
    let netPaid := sale.amountPaid - settledRefunds
    { grossSales := sale.total
      returned := returned
      netSales := netSales
      netPaid := netPaid
      receivable := max (netSales - netPaid) 0
      tenders := tenders }

/-- The receivable of an invoice is its balance, where that is not negative. -/
lemma receivable_eq {s : State} {id : ℕ} {sale : Sale} (h : sale.status ≠ .voided) :
    (financialSummaryForSale s id sale).receivable = max (saleBalance s id sale) 0 := by
  unfold financialSummaryForSale
  rw [if_neg h]
  have hsettled : (fun x : SaleReturn => x.refundMethod.isSettled) =
      fun x => decide (x.refundMethod ≠ .customerAccount) := by
    funext x
    unfold RefundMethod.isSettled
    cases x.refundMethod <;> decide
  simp only [hsettled]
  rfl

lemma receivable_of_voided {s : State} {id : ℕ} {sale : Sale} (h : sale.status = .voided) :
    (financialSummaryForSale s id sale).receivable = 0 := by
  unfold financialSummaryForSale
  rw [if_pos h]

lemma receivable_nonneg (s : State) (id : ℕ) (sale : Sale) :
    0 ≤ (financialSummaryForSale s id sale).receivable := by
  by_cases h : sale.status = .voided
  · rw [receivable_of_voided h]
  · rw [receivable_eq h]
    exact le_max_right _ _

/-! ## One line -/

/-- The result of a decimal operation: 28 significant digits, ties to even. -/
def decimalContext (x : ℚ) : ℚ := significant 28 x

/-- `ItemFinancialAmounts`. -/
structure ItemFinancialAmounts where
  quantity : ℤ := 0
  revenue : ℤ := 0
  tax : ℤ := 0
  discount : ℤ := 0
  cost : ℤ := 0
  profit : ℤ := 0
  deriving DecidableEq, Repr

/-- `revenue_excluding_tax`. -/
def ItemFinancialAmounts.revenueExcludingTax (a : ItemFinancialAmounts) : ℤ := a.revenue - a.tax

/-- `ItemFinancialActivity`. -/
structure ItemFinancialActivity where
  booked : ItemFinancialAmounts
  returned : ItemFinancialAmounts
  net : ItemFinancialAmounts
  deriving DecidableEq, Repr

/-- `quantity / item.quantity`. -/
def quantityRatio (quantity whole : ℤ) : ℚ := decimalContext (dec quantity / dec whole)

/-- `money(value * ratio)`. -/
def proportionOf (value ratio : ℚ) : ℤ := money (decimalContext (value * ratio))

/-- `item.unit_cost * item.inventory_quantity`. -/
def lineCost (item : SaleItem) : ℚ :=
  decimalContext (dec item.unitCost * dec item.inventoryQuantity)

/-- The amounts of a quantity of a line, with the given revenue. -/
def amountsFor (item : SaleItem) (quantity : ℤ) (revenue : ℚ → ℤ) (invoiceDiscountShare : ℤ) :
    ItemFinancialAmounts :=
  if item.quantity = 0 then
    {}
  else
    let ratio := quantityRatio quantity item.quantity
    let tax := proportionOf (dec item.taxAmount) ratio
    let cost := proportionOf (lineCost item) ratio
    { quantity := quantity
      revenue := revenue ratio
      tax := tax
      discount := proportionOf (dec (item.discountAmount + invoiceDiscountShare)) ratio
      cost := cost
      profit := revenue ratio - tax - cost }

/-- `_item_amounts`. -/
def itemAmounts (item : SaleItem) (quantity : ℤ) (invoiceDiscountShare : ℤ) :
    ItemFinancialAmounts :=
  amountsFor item quantity (proportionOf (dec item.lineTotal)) invoiceDiscountShare

/-- `_returned_item_amounts`: the revenue is the refund that was recorded. -/
def returnedItemAmounts (item : SaleItem) (row : SaleReturnItem) (invoiceDiscountShare : ℤ) :
    ItemFinancialAmounts :=
  amountsFor item row.quantity (fun _ => row.lineRefund) invoiceDiscountShare

/-- `_sum_item_amounts`. -/
def sumItemAmounts (values : List ItemFinancialAmounts) : ItemFinancialAmounts where
  quantity := (values.map ItemFinancialAmounts.quantity).sum
  revenue := (values.map ItemFinancialAmounts.revenue).sum
  tax := (values.map ItemFinancialAmounts.tax).sum
  discount := (values.map ItemFinancialAmounts.discount).sum
  cost := (values.map ItemFinancialAmounts.cost).sum
  profit := (values.map ItemFinancialAmounts.profit).sum

/-- `_subtract_item_amounts`. -/
def subtractItemAmounts (booked returned : ItemFinancialAmounts) : ItemFinancialAmounts where
  quantity := booked.quantity - returned.quantity
  revenue := booked.revenue - returned.revenue
  tax := booked.tax - returned.tax
  discount := booked.discount - returned.discount
  cost := booked.cost - returned.cost
  profit := booked.profit - returned.profit

/-- The loop of `_invoice_discount_shares`: proportional shares, the last line taking the rest. -/
def weightedShares (discount : ℤ) (total : ℚ) : ℤ → List (ℕ × ℚ) → List (ℕ × ℤ)
  | _, [] => []
  | allocated, [(pk, _)] => [(pk, discount - allocated)]
  | allocated, (pk, weight) :: rest =>
    let share := money (decimalContext (decimalContext (dec discount * weight) / total))
    (pk, share) :: weightedShares discount total (allocated + share) rest

/-- `_invoice_discount_shares`, as pairs of a line and its share. -/
def invoiceDiscountShares (sale : Sale) (items : List (ℕ × SaleItem)) : List (ℕ × ℤ) :=
  let grossLineDiscount := (items.map fun e => e.2.discountAmount).sum
  let invoiceDiscount := max (sale.discountAmount - grossLineDiscount) 0
  let weights := items.map fun e => (e.1, dec (max (e.2.lineTotal - e.2.taxAmount) 0))
  let grossWeights := items.map fun e =>
    (e.1, max (decimalContext (dec e.2.unitPrice * dec e.2.quantity) - dec e.2.discountAmount) 0)
  if items.isEmpty ∨ invoiceDiscount ≤ 0 then
    items.map fun e => (e.1, 0)
  else if 0 < (weights.map Prod.snd).sum then
    weightedShares invoiceDiscount (weights.map Prod.snd).sum 0 weights
  else if 0 < (grossWeights.map Prod.snd).sum then
    weightedShares invoiceDiscount (grossWeights.map Prod.snd).sum 0 grossWeights
  else
    items.map fun e => (e.1, 0)

/-- `shares.get(pk, ZERO)`. -/
def shareFor (shares : List (ℕ × ℤ)) (pk : ℕ) : ℤ := (shares.lookup pk).getD 0

/-! ## The lines of one invoice -/

/-- A return row with the line it belongs to. -/
structure ReturnedLine where
  item : SaleItem
  row : SaleReturnItem

/-- `sale_return.items.all()`, with the lines. -/
def returnedLines (s : State) (saleReturn : ℕ) : List ReturnedLine :=
  (s.sales.returnItems.filter fun x => x.saleReturn = saleReturn).filterMap fun row =>
    s.sales.items[row.saleItem]?.map fun item => ⟨item, row⟩

/-- The keys of `sale.returns.all()`. -/
def returnIds (s : State) (sale : ℕ) : List ℕ :=
  (childrenOf SaleReturn.sale s.sales.returns sale).map Prod.fst

/-- `item_financial_summary_for_sale`. -/
def itemFinancialSummaryForSale (sale : Sale) (items : List (ℕ × SaleItem))
    (returnItems : Option (List ReturnedLine)) : ItemFinancialActivity :=
  let shares := invoiceDiscountShares sale items
  let booked := sumItemAmounts (items.map fun e =>
    itemAmounts e.2 e.2.quantity (shareFor shares e.1))
  if sale.status = .voided then
    { booked := booked, returned := booked, net := {} }
  else
    match returnItems with
    | none =>
      let net := sumItemAmounts (items.map fun e =>
        itemAmounts e.2 (e.2.quantity - e.2.returnedQuantity) (shareFor shares e.1))
      { booked := booked, returned := subtractItemAmounts booked net, net := net }
    | some rows =>
      let returned := sumItemAmounts (rows.map fun x =>
        returnedItemAmounts x.item x.row (shareFor shares x.row.saleItem))
      { booked := booked, returned := returned, net := subtractItemAmounts booked returned }

/-- The values `net_item_values` returns. -/
structure NetItemValues where
  qty : ℤ := 0
  returned : ℤ := 0
  revenue : ℤ := 0
  discount : ℤ := 0
  tax : ℤ := 0
  cost : ℤ := 0
  profit : ℤ := 0
  deriving DecidableEq, Repr

/-- `net_item_values`. -/
def netItemValues (item : SaleItem) (returnItems : Option (List ReturnedLine)) : NetItemValues :=
  match returnItems with
  | some rows =>
    let returned := sumItemAmounts (rows.map fun x => returnedItemAmounts x.item x.row 0)
    let net := subtractItemAmounts (itemAmounts item item.quantity 0) returned
    { qty := net.quantity
      returned := returned.quantity
      revenue := net.revenue
      discount := net.discount
      tax := net.tax
      cost := net.cost
      profit := net.profit }
  | none =>
    let net := itemAmounts item (item.quantity - item.returnedQuantity) 0
    { qty := net.quantity
      returned := item.returnedQuantity
      revenue := net.revenue
      discount := net.discount
      tax := net.tax
      cost := net.cost
      profit := net.profit }

/-- `net_sale_discount`. -/
def netSaleDiscount (s : State) (id : ℕ) (sale : Sale) : ℤ :=
  (itemFinancialSummaryForSale sale (itemsOfSale s id) none).net.discount

/-! ## Sums from the database -/

/-- `item_cost_expression`: the rounded cost of a line. -/
def itemCostExpression (item : SaleItem) : ℤ :=
  money (dec item.unitCost * dec (item.fabricMeterUsed.getD item.quantity))

/-- `returned_item_value_expression`: a value of the line in proportion to the return row. -/
def returnedItemValueExpression (value : ℤ) (x : ReturnedLine) : ℤ :=
  if x.item.quantity = 0 then 0
  else money (dec value * (dec x.row.quantity / dec x.item.quantity))

/-- `_returned_discount_total` over the rows of some returns. -/
def returnedDiscountTotal (s : State) (rows : List ReturnedLine) : ℤ :=
  (rows.map fun x =>
    let shares := (s.sales.sales[x.item.sale]?.map fun sale =>
      invoiceDiscountShares sale (itemsOfSale s x.item.sale)).getD []
    if x.item.quantity = 0 then 0
    else
      money (decimalContext (decimalContext
        (dec (x.item.discountAmount + shareFor shares x.row.saleItem) * dec x.row.quantity) /
          dec x.item.quantity))).sum

/-- `sales.exclude(status__in=("draft", "voided"))`. -/
def validSales (s : State) (sales : List ℕ) : List ℕ :=
  sales.filter fun id => (s.sales.sales[id]?).any fun sale =>
    sale.status ≠ .draft ∧ sale.status ≠ .voided

/-- `item_activity_summary`. -/
def itemActivitySummary (s : State) (sales returns : List ℕ) (includeDiscount : Bool) :
    ItemFinancialActivity :=
  let items := ((validSales s sales).flatMap (itemsOfSale s)).map Prod.snd
  let rows := returns.flatMap (returnedLines s)
  let bookedRevenue := (items.map SaleItem.lineTotal).sum
  let bookedTax := (items.map SaleItem.taxAmount).sum
  let bookedCost := (items.map itemCostExpression).sum
  let returnedRevenue := (rows.map fun x => x.row.lineRefund).sum
  let returnedTax := (rows.map fun x => returnedItemValueExpression x.item.taxAmount x).sum
  let returnedCost := (rows.map fun x =>
    returnedItemValueExpression (itemCostExpression x.item) x).sum
  let booked : ItemFinancialAmounts := {
    quantity := (items.map SaleItem.quantity).sum
    revenue := bookedRevenue
    tax := bookedTax
    discount := if includeDiscount then
      ((validSales s sales).map fun id => (s.sales.sales[id]?.map Sale.discountAmount).getD 0).sum
      else 0
    cost := bookedCost
    profit := bookedRevenue - bookedTax - bookedCost }
  let returned : ItemFinancialAmounts := {
    quantity := (rows.map fun x => x.row.quantity).sum
    revenue := returnedRevenue
    tax := returnedTax
    discount := if includeDiscount then returnedDiscountTotal s rows else 0
    cost := returnedCost
    profit := returnedRevenue - returnedTax - returnedCost }
  { booked := booked, returned := returned, net := subtractItemAmounts booked returned }

end NexaPos
