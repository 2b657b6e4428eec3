import NexaPos.Reports.Profit
import NexaPos.System
import Mathlib.Tactic.Linarith

/-!
# Four computations of one profit

A line that was partly returned is split into what came back and what is left.  The item activity
summary (for profit and loss and the dashboard) books the whole line and takes the return rows
off in the database; the invoice page does the same in the interpreter; the profit summary and
the sales summary compute the rest of each line in proportion and never look at the return rows.
The parts are rounded separately, so the figures agree exactly when the rounding errors of the
exact parts cancel (`profits_agree_iff`).
-/

namespace NexaPos

open Rounding

/-! ## The figures -/

/-- The returns of some sales. -/
def returnsOfSales (s : State) (sales : List ℕ) : List ℕ :=
  (validSales s sales).flatMap (returnIds s)

/-- What `item_financial_summary_for_sale` is for a sale with its recorded return rows. -/
def invoiceEconomics (s : State) (id : ℕ) : ItemFinancialAmounts :=
  ((s.sales.sales[id]?).map fun sale => (itemFinancialSummaryForSale sale (itemsOfSale s id)
    (some ((returnIds s id).flatMap (returnedLines s)))).net).getD {}

/-- The net revenue without tax, the cost and the gross profit are the same in the activity
summary, in the profit summary, in the rows of the sales summary (which show the gross profit and
the tax) and in the sum over the invoices. -/
def ProfitsAgree (s : State) (sales : List ℕ) : Prop :=
  let activity := (itemActivitySummary s sales (returnsOfSales s sales) false).net
  let profit := profitSummary s sales 0
  let invoices := sumItemAmounts ((validSales s sales).map (invoiceEconomics s))
  (profit.revenue = activity.revenueExcludingTax ∧ profit.cost = activity.cost ∧
      profit.gross = activity.profit) ∧
    ((salesSummary s sales).map SalesSummaryRow.gross).sum = activity.profit ∧
    (invoices.revenueExcludingTax = activity.revenueExcludingTax ∧
      invoices.cost = activity.cost ∧ invoices.profit = activity.profit)

/-! ## Whole lines, parts and rests -/

/-- The lines of some sales. -/
def linesOfSales (s : State) (sales : List ℕ) : List SaleItem :=
  (validSales s sales).flatMap (linesOf s)

/-- The return rows of some sales, with their lines. -/
def returnedOfSales (s : State) (sales : List ℕ) : List ReturnedLine :=
  (returnsOfSales s sales).flatMap (returnedLines s)

/-- A whole line. -/
def wholeLine (item : SaleItem) : ItemFinancialAmounts := itemAmounts item item.quantity 0

/-- What is left of a line, in proportion. -/
def restOfLine (item : SaleItem) : ItemFinancialAmounts :=
  itemAmounts item (item.quantity - item.returnedQuantity) 0

/-- What one return row takes off a line. -/
def partOfLine (x : ReturnedLine) : ItemFinancialAmounts := returnedItemAmounts x.item x.row 0

/-- What is lost when lines are split into their returned parts and the rest. -/
def splitLoss (f : ItemFinancialAmounts → ℤ) (s : State) (sales : List ℕ) : ℤ :=
  ((linesOfSales s sales).map fun item => f (wholeLine item) - f (restOfLine item)).sum -
    ((returnedOfSales s sales).map fun x => f (partOfLine x)).sum

/-- The revenue less tax that the database counts beyond the interpreter: of the lines, and of
what came back. -/
def revenueGap (s : State) (sales : List ℕ) : ℤ :=
  ((linesOfSales s sales).map fun item =>
      item.lineTotal - item.taxAmount - (wholeLine item).revenueExcludingTax).sum -
    ((returnedOfSales s sales).map fun x =>
      x.row.lineRefund - returnedItemValueExpression x.item.taxAmount x -
        (partOfLine x).revenueExcludingTax).sum

/-- The cost that the database counts beyond the interpreter. -/
def costGap (s : State) (sales : List ℕ) : ℤ :=
  ((linesOfSales s sales).map fun item => itemCostExpression item - (wholeLine item).cost).sum -
    ((returnedOfSales s sales).map fun x =>
      returnedItemValueExpression (itemCostExpression x.item) x - (partOfLine x).cost).sum

/-! ## Reading the reports -/

section Sums

variable {α : Type}

lemma sum_map_flatMap {β : Type} (f : β → ℤ) (g : α → List β) (rows : List α) :
    ((rows.flatMap g).map f).sum = (rows.map fun a => ((g a).map f).sum).sum := by
  induction rows with
  | nil => simp
  | cons a rows ih =>
    rw [List.flatMap_cons, List.map_append, List.sum_append, ih, List.map_cons, List.sum_cons]

end Sums

/-- A figure that adds up over lines and does not depend on the invoice discount. -/
structure LineFigure (f : ItemFinancialAmounts → ℤ) : Prop where
  sum : ∀ values, f (sumItemAmounts values) = (values.map f).sum
  sub : ∀ a b, f (subtractItemAmounts a b) = f a - f b
  share : ∀ item quantity revenue share,
    f (amountsFor item quantity revenue share) = f (amountsFor item quantity revenue 0)

lemma lineFigure_revenue : LineFigure ItemFinancialAmounts.revenueExcludingTax where
  sum values := (sum_map_sub _ _ values).symm
  sub a b := by
    simp only [subtractItemAmounts, ItemFinancialAmounts.revenueExcludingTax]
    omega
  share item quantity revenue share := by
    unfold amountsFor ItemFinancialAmounts.revenueExcludingTax
    split <;> rfl

lemma lineFigure_cost : LineFigure ItemFinancialAmounts.cost where
  sum _ := rfl
  sub _ _ := rfl
  share item quantity revenue share := by
    unfold amountsFor
    split <;> rfl

/-- The profit of any part of a line is what is left of its revenue after tax and cost. -/
lemma profit_amountsFor (item : SaleItem) (quantity : ℤ) (revenue : ℚ → ℤ) (share : ℤ) :
    (amountsFor item quantity revenue share).profit =
      (amountsFor item quantity revenue share).revenueExcludingTax -
        (amountsFor item quantity revenue share).cost := by
  unfold amountsFor ItemFinancialAmounts.revenueExcludingTax
  split <;> rfl

/-- The profit of the parts of lines adds up likewise. -/
lemma profit_sum {values : List ItemFinancialAmounts}
    (h : ∀ v ∈ values, v.profit = v.revenueExcludingTax - v.cost) :
    (sumItemAmounts values).profit =
      (sumItemAmounts values).revenueExcludingTax - (sumItemAmounts values).cost := by
  rw [lineFigure_revenue.sum, lineFigure_cost.sum, ← sum_map_sub]
  show (values.map ItemFinancialAmounts.profit).sum = _
  rw [List.map_congr_left h]

lemma exists_of_mem_validSales {s : State} {sales : List ℕ} {id : ℕ}
    (h : id ∈ validSales s sales) :
    ∃ sale, s.sales.sales[id]? = some sale ∧ sale.status ≠ .voided := by
  have hvalid := (List.mem_filter.mp h).2
  cases hsale : s.sales.sales[id]? with
  | none => simp [hsale] at hvalid
  | some sale =>
    rw [hsale] at hvalid
    simp only [Option.any_some, decide_eq_true_eq] at hvalid
    exact ⟨sale, rfl, hvalid.2⟩

/-! ## The invoices -/

section Invoices

variable {s : State} {id : ℕ} {sale : Sale}

/-- The page of one invoice: its lines less its return rows. -/
lemma invoiceEconomics_eq (hsale : s.sales.sales[id]? = some sale) (hvoid : sale.status ≠ .voided)
    {f : ItemFinancialAmounts → ℤ} (hf : LineFigure f) :
    f (invoiceEconomics s id) = ((linesOf s id).map fun item => f (wholeLine item)).sum -
      (((returnIds s id).flatMap (returnedLines s)).map fun x => f (partOfLine x)).sum := by
  unfold invoiceEconomics itemFinancialSummaryForSale
  rw [hsale]
  simp only [Option.map_some, Option.getD_some, if_neg hvoid, hf.sub, hf.sum, List.map_map]
  unfold linesOf
  rw [List.map_map]
  congr 2
  · apply List.map_congr_left
    intro e _
    exact hf.share _ _ _ _
  · apply List.map_congr_left
    intro x _
    exact hf.share _ _ _ _

lemma profit_invoiceEconomics (hsale : s.sales.sales[id]? = some sale)
    (hvoid : sale.status ≠ .voided) :
    (invoiceEconomics s id).profit =
      (invoiceEconomics s id).revenueExcludingTax - (invoiceEconomics s id).cost := by
  unfold invoiceEconomics itemFinancialSummaryForSale
  rw [hsale]
  simp only [Option.map_some, Option.getD_some, if_neg hvoid, lineFigure_revenue.sub,
    lineFigure_cost.sub]
  simp only [subtractItemAmounts]
  rw [profit_sum, profit_sum]
  · omega
  · intro v hv
    obtain ⟨x, -, rfl⟩ := List.mem_map.mp hv
    exact profit_amountsFor _ _ _ _
  · intro v hv
    obtain ⟨e, -, rfl⟩ := List.mem_map.mp hv
    exact profit_amountsFor _ _ _ _

end Invoices

variable (s : State) (sales : List ℕ)

/-- The invoices of some sales: all lines less all return rows. -/
lemma sum_invoiceEconomics {f : ItemFinancialAmounts → ℤ} (hf : LineFigure f) :
    f (sumItemAmounts ((validSales s sales).map (invoiceEconomics s))) =
      ((linesOfSales s sales).map fun item => f (wholeLine item)).sum -
        ((returnedOfSales s sales).map fun x => f (partOfLine x)).sum := by
  unfold linesOfSales returnedOfSales returnsOfSales
  rw [hf.sum, List.map_map, List.flatMap_assoc, sum_map_flatMap, sum_map_flatMap,
    ← sum_map_sub]
  congr 1
  apply List.map_congr_left
  intro id hid
  obtain ⟨sale, hsale, hvoid⟩ := exists_of_mem_validSales hid
  exact invoiceEconomics_eq hsale hvoid hf

lemma profit_invoices :
    (sumItemAmounts ((validSales s sales).map (invoiceEconomics s))).profit =
      (sumItemAmounts ((validSales s sales).map (invoiceEconomics s))).revenueExcludingTax -
        (sumItemAmounts ((validSales s sales).map (invoiceEconomics s))).cost := by
  apply profit_sum
  intro v hv
  obtain ⟨id, hid, rfl⟩ := List.mem_map.mp hv
  obtain ⟨sale, hsale, hvoid⟩ := exists_of_mem_validSales hid
  exact profit_invoiceEconomics hsale hvoid

/-! ## The proportional reports -/

lemma profitSummary_revenue (expenses : ℤ) :
    (profitSummary s sales expenses).revenue =
      ((linesOfSales s sales).map fun item => (restOfLine item).revenueExcludingTax).sum := by
  unfold profitSummary linesOfSales
  dsimp only
  rw [List.map_map]
  rfl

lemma profitSummary_cost (expenses : ℤ) :
    (profitSummary s sales expenses).cost =
      ((linesOfSales s sales).map fun item => (restOfLine item).cost).sum := by
  unfold profitSummary linesOfSales
  dsimp only
  rw [List.map_map]
  rfl

lemma profitSummary_gross (expenses : ℤ) :
    (profitSummary s sales expenses).gross =
      (profitSummary s sales expenses).revenue - (profitSummary s sales expenses).cost := by
  rw [profitSummary_revenue, profitSummary_cost, ← sum_map_sub]
  unfold profitSummary linesOfSales
  dsimp only
  rw [List.map_map]
  congr 1
  apply List.map_congr_left
  intro item _
  exact profit_amountsFor _ _ _ _

/-- The rows of the sales summary show the gross profit of the profit summary. -/
lemma sum_salesSummary_gross (expenses : ℤ) :
    ((salesSummary s sales).map SalesSummaryRow.gross).sum =
      (profitSummary s sales expenses).gross := by
  have hrows : (salesSummary s sales).map SalesSummaryRow.gross =
      (validSales s sales).map (netSaleProfit s) := by
    unfold salesSummary
    rw [List.map_filterMap, ← List.filterMap_eq_map]
    apply List.filterMap_congr
    intro id hid
    obtain ⟨sale, hsale, -⟩ := exists_of_mem_validSales hid
    rw [hsale]
    rfl
  rw [hrows]
  unfold profitSummary
  dsimp only
  rw [List.map_map, sum_map_flatMap]
  rfl

/-! ## The activity summary -/

lemma activity_revenue :
    (itemActivitySummary s sales (returnsOfSales s sales) false).net.revenueExcludingTax =
      ((linesOfSales s sales).map fun item => item.lineTotal - item.taxAmount).sum -
        ((returnedOfSales s sales).map fun x =>
          x.row.lineRefund - returnedItemValueExpression x.item.taxAmount x).sum := by
  have hlines : ((validSales s sales).flatMap (itemsOfSale s)).map Prod.snd =
      linesOfSales s sales := List.map_flatMap
  unfold itemActivitySummary
  dsimp only
  rw [hlines, sum_map_sub, sum_map_sub]
  simp only [subtractItemAmounts, ItemFinancialAmounts.revenueExcludingTax, returnedOfSales]
  omega

lemma activity_cost :
    (itemActivitySummary s sales (returnsOfSales s sales) false).net.cost =
      ((linesOfSales s sales).map itemCostExpression).sum -
        ((returnedOfSales s sales).map fun x =>
          returnedItemValueExpression (itemCostExpression x.item) x).sum := by
  have hlines : ((validSales s sales).flatMap (itemsOfSale s)).map Prod.snd =
      linesOfSales s sales := List.map_flatMap
  unfold itemActivitySummary
  dsimp only
  rw [hlines]
  rfl

lemma activity_profit :
    (itemActivitySummary s sales (returnsOfSales s sales) false).net.profit =
      (itemActivitySummary s sales (returnsOfSales s sales) false).net.revenueExcludingTax -
        (itemActivitySummary s sales (returnsOfSales s sales) false).net.cost := by
  simp only [itemActivitySummary, subtractItemAmounts, ItemFinancialAmounts.revenueExcludingTax]
  omega

/-- The figures agree when nothing is lost by splitting the lines and the database counts as the
interpreter does. -/
lemma profitsAgree_iff_gaps : ProfitsAgree s sales ↔
    splitLoss ItemFinancialAmounts.revenueExcludingTax s sales = 0 ∧
      splitLoss ItemFinancialAmounts.cost s sales = 0 ∧ revenueGap s sales = 0 ∧
        costGap s sales = 0 := by
  have hrevenue := sum_invoiceEconomics s sales lineFigure_revenue
  have hcost := sum_invoiceEconomics s sales lineFigure_cost
  have hprofit := profit_invoices s sales
  have hactivity := activity_revenue s sales
  have hactivityCost := activity_cost s sales
  have hactivityProfit := activity_profit s sales
  have hsummary := profitSummary_revenue s sales 0
  have hsummaryCost := profitSummary_cost s sales 0
  have hsummaryGross := profitSummary_gross s sales 0
  have hrows := sum_salesSummary_gross s sales 0
  have hloss := sum_map_sub (fun item => (wholeLine item).revenueExcludingTax)
    (fun item => (restOfLine item).revenueExcludingTax) (linesOfSales s sales)
  have hcostLoss := sum_map_sub (fun item => (wholeLine item).cost)
    (fun item => (restOfLine item).cost) (linesOfSales s sales)
  have hgap := sum_map_sub (fun item : SaleItem => item.lineTotal - item.taxAmount)
    (fun item => (wholeLine item).revenueExcludingTax) (linesOfSales s sales)
  have hgapReturned := sum_map_sub
    (fun x => x.row.lineRefund - returnedItemValueExpression x.item.taxAmount x)
    (fun x => (partOfLine x).revenueExcludingTax) (returnedOfSales s sales)
  have hcostGap := sum_map_sub itemCostExpression
    (fun item => (wholeLine item).cost) (linesOfSales s sales)
  have hcostGapReturned := sum_map_sub
    (fun x => returnedItemValueExpression (itemCostExpression x.item) x)
    (fun x => (partOfLine x).cost) (returnedOfSales s sales)
  unfold ProfitsAgree splitLoss revenueGap costGap
  dsimp only
  omega

/-! ## Whole lines -/

/-- The amounts of a line fit their columns of fourteen digits. -/
structure FitsColumns (item : SaleItem) : Prop where
  lineTotal : |item.lineTotal| < 10 ^ 14
  taxAmount : |item.taxAmount| < 10 ^ 14
  unitCost : |item.unitCost| < 10 ^ 14
  inventoryQuantity : |item.inventoryQuantity| < 10 ^ 14

instance (item : SaleItem) : Decidable (FitsColumns item) :=
  decidable_of_iff (_ ∧ _ ∧ _ ∧ _) ⟨fun h => ⟨h.1, h.2.1, h.2.2.1, h.2.2.2⟩,
    fun h => ⟨h.1, h.2, h.3, h.4⟩⟩

lemma quantityRatio_self {quantity : ℤ} (h : quantity ≠ 0) :
    quantityRatio quantity quantity = 1 := by
  have hdec : dec quantity ≠ 0 := fun h0 => h (dec_injective (h0.trans dec_zero.symm))
  have hone := significant_div_pow 28 0 (show |(1 : ℤ)| < 10 ^ 28 by norm_num)
  unfold quantityRatio decimalContext
  rw [div_self hdec]
  simpa using hone

lemma proportionOf_dec_one {m : ℤ} (h : |m| < 10 ^ 28) : proportionOf (dec m) 1 = m := by
  have hkept := significant_div_pow 28 3 h
  have hdec : dec m = m / 10 ^ 3 := by
    unfold dec
    norm_num
  unfold proportionOf decimalContext
  rw [mul_one, hdec, hkept, ← hdec, money_dec]

/-- The product of a unit cost and a quantity has at most twenty-eight digits. -/
lemma decimalContext_dec_mul {a b : ℤ} (ha : |a| < 10 ^ 14) (hb : |b| < 10 ^ 14) :
    decimalContext (dec a * dec b) = dec a * dec b := by
  have hbound : |a * b| < 10 ^ 28 := by
    rw [abs_mul]
    calc |a| * |b| < 10 ^ 14 * 10 ^ 14 := mul_lt_mul'' ha hb (abs_nonneg a) (abs_nonneg b)
      _ = 10 ^ 28 := by norm_num
  have hkept := significant_div_pow 28 6 hbound
  have hproduct : dec a * dec b = ((a * b : ℤ) : ℚ) / 10 ^ 6 := by
    unfold dec
    push_cast
    ring
  unfold decimalContext
  rw [hproduct, hkept]

/-! ## Exact parts and their rounding -/

/-- A value of a line in exact proportion to a quantity; nothing of a line without quantity. -/
def exactPart (value : SaleItem → ℚ) (quantity : ℤ) (item : SaleItem) : ℚ :=
  value item * (dec quantity / dec item.quantity)

/-- What rounding adds to an exact amount. -/
def roundingError (x : ℚ) : ℚ := dec (money x) - x

/-- What the interpreter's rounding adds to an exact part: 28 digits of the ratio and of the
product are kept before it. -/
def partError (value : SaleItem → ℚ) (quantity : ℤ) (item : SaleItem) : ℚ :=
  if item.quantity = 0 then 0
  else dec (money (decimalContext (value item * decimalContext
    (dec quantity / dec item.quantity)))) - exactPart value quantity item

namespace SaleItem

variable (i : SaleItem)

def total : ℚ := dec i.lineTotal

def tax : ℚ := dec i.taxAmount

def revenue : ℚ := i.total - i.tax

/-- The cost of the stock that the line represents. -/
def cost : ℚ := dec i.unitCost * dec i.inventoryQuantity

/-- The cost in the database, where fabric that the customer brought counts like any other. -/
def databaseCost : ℚ := dec i.unitCost * dec (i.fabricMeterUsed.getD i.quantity)

/-- The cost in the database after rounding, from which the parts are taken there. -/
def roundedCost : ℚ := dec (money i.databaseCost)

end SaleItem

section Rows

variable (lines : List SaleItem) (rows : List ReturnedLine) (value : SaleItem → ℚ)

/-- The exact parts of the lines that the return rows took back. -/
def exactReturned : ℚ := (rows.map fun x => exactPart value x.row.quantity x.item).sum

/-- What the refunds exceed the exact parts of the line totals by. -/
def refundExcess : ℚ :=
  (rows.map fun x => if x.item.quantity = 0 then 0
    else dec x.row.lineRefund - exactPart SaleItem.total x.row.quantity x.item).sum

/-- What the return rows took back beyond the returned quantities of the lines; nothing when the
quantities add up. -/
def quantityExcess : ℚ :=
  exactReturned rows value - (lines.map fun i => exactPart value i.returnedQuantity i).sum

/-- What the interpreter's rounding adds to the parts that the return rows took back. -/
def returnedError : ℚ := (rows.map fun x => partError value x.row.quantity x.item).sum

/-- What the interpreter's rounding adds to the parts that are left of the lines. -/
def restError : ℚ :=
  (lines.map fun i => partError value (i.quantity - i.returnedQuantity) i).sum

/-- What rounding adds to the values of the lines with a quantity. -/
def wholeError : ℚ :=
  (lines.map fun i => if i.quantity = 0 then 0 else roundingError (value i)).sum

/-- What rounding in the database adds to the parts that the return rows took back. -/
def databaseError : ℚ :=
  (rows.map fun x => roundingError (exactPart value x.row.quantity x.item)).sum

/-- The revenue of lines stored without quantity, less what was refunded for them: the
interpreter skips these lines. -/
def skippedRevenue : ℚ :=
  (lines.map fun i => if i.quantity = 0 then i.revenue else 0).sum -
    (rows.map fun x => if x.item.quantity = 0 then dec x.row.lineRefund else 0).sum

/-- The cost of the lines that only the database counts: of lines stored without quantity, and of
fabric that customers brought. -/
def skippedCost : ℚ :=
  (lines.map fun i =>
    i.roundedCost - if i.quantity = 0 then 0 else dec (money i.cost)).sum

/-- The rounding errors made on the rows cancel. -/
structure RoundingCancels : Prop where
  /-- What the refunds exceed the exact parts by is the error of the taxes, less that of the
  totals of the rests. -/
  refunds : refundExcess rows + quantityExcess lines rows SaleItem.revenue =
    returnedError rows SaleItem.tax + restError lines SaleItem.tax -
      restError lines SaleItem.total
  /-- The costs of the parts and of the rests are rounded like those of the whole lines. -/
  costs : quantityExcess lines rows SaleItem.cost + returnedError rows SaleItem.cost +
    restError lines SaleItem.cost = wholeError lines SaleItem.cost
  /-- The database rounds the returned taxes to as much as 28 digits do, less what it counts of
  the skipped lines. -/
  databaseTaxes : databaseError rows SaleItem.tax =
    returnedError rows SaleItem.tax - skippedRevenue lines rows
  /-- What rounding a cost first changes in its parts, and the error of these parts, is the error of
  the interpreter's parts and the cost that only the database counts. -/
  databaseCosts : exactReturned rows (fun i => i.roundedCost - i.cost) +
      databaseError rows SaleItem.roundedCost =
    returnedError rows SaleItem.cost + skippedCost lines

instance : Decidable (RoundingCancels lines rows) :=
  decidable_of_iff (_ ∧ _ ∧ _ ∧ _) ⟨fun h => ⟨h.1, h.2.1, h.2.2.1, h.2.2.2⟩,
    fun h => ⟨h.1, h.2, h.3, h.4⟩⟩

end Rows

section Parts

variable {item : SaleItem} {value : SaleItem → ℚ} {quantity : ℤ}

lemma exactPart_of_empty (h : item.quantity = 0) : exactPart value quantity item = 0 := by
  rw [exactPart, h, dec_zero, div_zero, mul_zero]

lemma partError_of_empty (h : item.quantity = 0) : partError value quantity item = 0 := if_pos h

lemma exactPart_rest (h : item.quantity ≠ 0) (returned : ℤ) :
    exactPart value (item.quantity - returned) item =
      value item - exactPart value returned item := by
  have hdec : dec item.quantity ≠ 0 := fun h0 => h (dec_injective (h0.trans dec_zero.symm))
  unfold exactPart
  rw [dec_sub, sub_div, div_self hdec]
  ring

lemma exactPart_sub (f g : SaleItem → ℚ) :
    exactPart (fun i => f i - g i) quantity item =
      exactPart f quantity item - exactPart g quantity item := sub_mul _ _ _

lemma exactPart_revenue : exactPart SaleItem.revenue quantity item =
    exactPart SaleItem.total quantity item - exactPart SaleItem.tax quantity item :=
  exactPart_sub SaleItem.total SaleItem.tax

/-- A part in the interpreter is the exact part and its error. -/
lemma dec_proportionOf (value : SaleItem → ℚ) (quantity : ℤ) (h : item.quantity ≠ 0) :
    dec (proportionOf (value item) (quantityRatio quantity item.quantity)) =
      exactPart value quantity item + partError value quantity item := by
  rw [partError, if_neg h, add_sub_cancel]
  rfl

/-- A part in the database is the exact part and its error. -/
lemma dec_returnedItemValueExpression (value : SaleItem → ℤ) (x : ReturnedLine) :
    dec (returnedItemValueExpression (value x.item) x) =
      exactPart (fun i => dec (value i)) x.row.quantity x.item +
        roundingError (exactPart (fun i => dec (value i)) x.row.quantity x.item) := by
  rw [roundingError, add_sub_cancel]
  unfold returnedItemValueExpression
  split
  · rename_i h
    rw [exactPart_of_empty h, money_zero]
  · rfl

end Parts

/-! ## Lines that fit -/

section Fits

variable {item : SaleItem}

lemma lineCost_eq (h : FitsColumns item) : lineCost item = item.cost :=
  decimalContext_dec_mul h.unitCost h.inventoryQuantity

lemma dec_wholeLine_revenue (h : FitsColumns item) :
    dec (wholeLine item).revenueExcludingTax =
      if item.quantity = 0 then 0 else item.revenue := by
  have hlarge : (10 : ℤ) ^ 14 < 10 ^ 28 := by norm_num
  unfold wholeLine itemAmounts amountsFor
  split
  · exact dec_zero
  · rename_i hquantity
    simp only [ItemFinancialAmounts.revenueExcludingTax]
    rw [quantityRatio_self hquantity, proportionOf_dec_one (h.lineTotal.trans hlarge),
      proportionOf_dec_one (h.taxAmount.trans hlarge), dec_sub]
    rfl

lemma dec_wholeLine_cost (h : FitsColumns item) :
    dec (wholeLine item).cost = if item.quantity = 0 then 0 else dec (money item.cost) := by
  unfold wholeLine itemAmounts amountsFor
  split
  · exact dec_zero
  · rename_i hquantity
    simp only []
    rw [quantityRatio_self hquantity, proportionOf, mul_one, lineCost_eq h, SaleItem.cost,
      decimalContext_dec_mul h.unitCost h.inventoryQuantity]

/-- What splitting off the rest leaves of the revenue of a line. -/
lemma dec_sub_restOfLine_revenue (h : FitsColumns item) :
    dec ((wholeLine item).revenueExcludingTax - (restOfLine item).revenueExcludingTax) =
      exactPart SaleItem.revenue item.returnedQuantity item +
        partError SaleItem.tax (item.quantity - item.returnedQuantity) item -
          partError SaleItem.total (item.quantity - item.returnedQuantity) item := by
  rw [dec_sub, dec_wholeLine_revenue h]
  by_cases hquantity : item.quantity = 0
  · rw [if_pos hquantity, exactPart_of_empty hquantity, partError_of_empty hquantity,
      partError_of_empty hquantity, restOfLine, itemAmounts, amountsFor, if_pos hquantity]
    simp [ItemFinancialAmounts.revenueExcludingTax]
  · have htotal := dec_proportionOf SaleItem.total (item.quantity - item.returnedQuantity)
      hquantity
    have htax := dec_proportionOf SaleItem.tax (item.quantity - item.returnedQuantity) hquantity
    have hrevenue : dec (restOfLine item).revenueExcludingTax =
        dec (proportionOf item.total (quantityRatio (item.quantity - item.returnedQuantity)
          item.quantity)) - dec (proportionOf item.tax
            (quantityRatio (item.quantity - item.returnedQuantity) item.quantity)) := by
      rw [restOfLine, itemAmounts, amountsFor, if_neg hquantity, ← dec_sub]
      rfl
    rw [if_neg hquantity, hrevenue, htotal, htax, exactPart_rest hquantity,
      exactPart_rest hquantity, SaleItem.revenue, exactPart_revenue]
    ring

/-- What splitting off the rest leaves of the cost of a line. -/
lemma dec_sub_restOfLine_cost (h : FitsColumns item) :
    dec ((wholeLine item).cost - (restOfLine item).cost) =
      exactPart SaleItem.cost item.returnedQuantity item +
        (if item.quantity = 0 then 0 else roundingError item.cost) -
          partError SaleItem.cost (item.quantity - item.returnedQuantity) item := by
  rw [dec_sub, dec_wholeLine_cost h]
  by_cases hquantity : item.quantity = 0
  · rw [if_pos hquantity, if_pos hquantity, exactPart_of_empty hquantity,
      partError_of_empty hquantity, restOfLine, itemAmounts, amountsFor, if_pos hquantity]
    simp
  · have hcost := dec_proportionOf SaleItem.cost (item.quantity - item.returnedQuantity) hquantity
    have hrest : dec (restOfLine item).cost = dec (proportionOf item.cost
        (quantityRatio (item.quantity - item.returnedQuantity) item.quantity)) := by
      rw [restOfLine, itemAmounts, amountsFor, if_neg hquantity]
      simp only []
      rw [lineCost_eq h]
    rw [if_neg hquantity, if_neg hquantity, hrest, hcost, exactPart_rest hquantity, roundingError]
    ring

/-- The revenue less tax that a return row takes off in the interpreter. -/
lemma dec_partOfLine_revenue (x : ReturnedLine) :
    dec (partOfLine x).revenueExcludingTax =
      (if x.item.quantity = 0 then 0
        else dec x.row.lineRefund - exactPart SaleItem.total x.row.quantity x.item) +
        exactPart SaleItem.revenue x.row.quantity x.item -
          partError SaleItem.tax x.row.quantity x.item := by
  by_cases hquantity : x.item.quantity = 0
  · rw [if_pos hquantity, exactPart_of_empty hquantity, partError_of_empty hquantity, partOfLine,
      returnedItemAmounts, amountsFor, if_pos hquantity]
    simp [ItemFinancialAmounts.revenueExcludingTax]
  · have htax := dec_proportionOf SaleItem.tax x.row.quantity hquantity
    have hrevenue : dec (partOfLine x).revenueExcludingTax = dec x.row.lineRefund -
        dec (proportionOf x.item.tax (quantityRatio x.row.quantity x.item.quantity)) := by
      rw [partOfLine, returnedItemAmounts, amountsFor, if_neg hquantity, ← dec_sub]
      rfl
    rw [if_neg hquantity, hrevenue, htax, exactPart_revenue]
    ring

/-- The cost that a return row takes off in the interpreter. -/
lemma dec_partOfLine_cost {x : ReturnedLine} (h : FitsColumns x.item) :
    dec (partOfLine x).cost = exactPart SaleItem.cost x.row.quantity x.item +
      partError SaleItem.cost x.row.quantity x.item := by
  by_cases hquantity : x.item.quantity = 0
  · rw [exactPart_of_empty hquantity, partError_of_empty hquantity, partOfLine,
      returnedItemAmounts, amountsFor, if_pos hquantity]
    simp
  · rw [← dec_proportionOf _ _ hquantity, partOfLine, returnedItemAmounts, amountsFor,
      if_neg hquantity]
    simp only []
    rw [lineCost_eq h]

end Fits

/-! ## When the figures agree -/

section Gaps

variable {s : State} {sales : List ℕ}

lemma mem_items_of_linesOfSales {item : SaleItem} (h : item ∈ linesOfSales s sales) :
    item ∈ s.sales.items := by
  obtain ⟨id, -, hline⟩ := List.mem_flatMap.mp h
  obtain ⟨e, he, rfl⟩ := List.mem_map.mp hline
  exact List.mem_of_getElem? (mem_childrenOf.mp he).1

lemma mem_items_of_returnedOfSales {x : ReturnedLine} (h : x ∈ returnedOfSales s sales) :
    x.item ∈ s.sales.items := by
  obtain ⟨id, -, hrow⟩ := List.mem_flatMap.mp h
  obtain ⟨row, -, hitem⟩ := List.mem_filterMap.mp hrow
  obtain ⟨item, hfound, rfl⟩ := Option.map_eq_some_iff.mp hitem
  exact List.mem_of_getElem? hfound

variable (hfits : ∀ item ∈ s.sales.items, FitsColumns item)

include hfits

lemma dec_splitLoss_revenue :
    dec (splitLoss ItemFinancialAmounts.revenueExcludingTax s sales) =
      returnedError (returnedOfSales s sales) SaleItem.tax +
        restError (linesOfSales s sales) SaleItem.tax -
          restError (linesOfSales s sales) SaleItem.total -
            (refundExcess (returnedOfSales s sales) +
              quantityExcess (linesOfSales s sales) (returnedOfSales s sales)
                SaleItem.revenue) := by
  have hlines := fun item (hitem : item ∈ linesOfSales s sales) =>
    dec_sub_restOfLine_revenue (hfits item (mem_items_of_linesOfSales hitem))
  rw [splitLoss, dec_sub, dec_sum_map, dec_sum_map, List.map_congr_left hlines,
    List.map_congr_left fun x _ => dec_partOfLine_revenue x]
  simp only [sum_map_sub, List.sum_map_add]
  unfold returnedError restError refundExcess quantityExcess exactReturned
  ring

lemma dec_splitLoss_cost :
    dec (splitLoss ItemFinancialAmounts.cost s sales) =
      wholeError (linesOfSales s sales) SaleItem.cost -
        (quantityExcess (linesOfSales s sales) (returnedOfSales s sales) SaleItem.cost +
          returnedError (returnedOfSales s sales) SaleItem.cost +
            restError (linesOfSales s sales) SaleItem.cost) := by
  have hlines := fun item (hitem : item ∈ linesOfSales s sales) =>
    dec_sub_restOfLine_cost (hfits item (mem_items_of_linesOfSales hitem))
  have hrows := fun x (hx : x ∈ returnedOfSales s sales) =>
    dec_partOfLine_cost (hfits x.item (mem_items_of_returnedOfSales hx))
  rw [splitLoss, dec_sub, dec_sum_map, dec_sum_map, List.map_congr_left hlines,
    List.map_congr_left hrows]
  simp only [sum_map_sub, List.sum_map_add]
  unfold returnedError restError wholeError quantityExcess exactReturned
  ring

lemma dec_revenueGap : dec (revenueGap s sales) =
    skippedRevenue (linesOfSales s sales) (returnedOfSales s sales) +
      databaseError (returnedOfSales s sales) SaleItem.tax -
        returnedError (returnedOfSales s sales) SaleItem.tax := by
  have hlines : ∀ item ∈ linesOfSales s sales,
      dec (item.lineTotal - item.taxAmount - (wholeLine item).revenueExcludingTax) =
        if item.quantity = 0 then item.revenue else 0 := by
    intro item hitem
    have hrevenue : item.revenue = dec (item.lineTotal - item.taxAmount) := (dec_sub _ _).symm
    rw [dec_sub, ← hrevenue, dec_wholeLine_revenue (hfits item (mem_items_of_linesOfSales hitem))]
    split <;> ring
  have hrows : ∀ x ∈ returnedOfSales s sales,
      dec (x.row.lineRefund - returnedItemValueExpression x.item.taxAmount x -
          (partOfLine x).revenueExcludingTax) =
        (if x.item.quantity = 0 then dec x.row.lineRefund else 0) +
          partError SaleItem.tax x.row.quantity x.item -
            roundingError (exactPart SaleItem.tax x.row.quantity x.item) := by
    intro x _
    rw [dec_sub, dec_sub, dec_returnedItemValueExpression SaleItem.taxAmount,
      dec_partOfLine_revenue, exactPart_revenue]
    change dec x.row.lineRefund - (exactPart SaleItem.tax _ _ + roundingError
      (exactPart SaleItem.tax _ _)) - _ = _
    by_cases hquantity : x.item.quantity = 0
    · rw [if_pos hquantity, if_pos hquantity, exactPart_of_empty hquantity,
        exactPart_of_empty hquantity]
      ring
    · rw [if_neg hquantity, if_neg hquantity]
      ring
  rw [revenueGap, dec_sub, dec_sum_map, dec_sum_map, List.map_congr_left hlines,
    List.map_congr_left hrows]
  simp only [sum_map_sub, List.sum_map_add]
  unfold skippedRevenue databaseError returnedError
  ring

lemma dec_costGap : dec (costGap s sales) =
    returnedError (returnedOfSales s sales) SaleItem.cost +
      skippedCost (linesOfSales s sales) -
        (exactReturned (returnedOfSales s sales) (fun i => i.roundedCost - i.cost) +
          databaseError (returnedOfSales s sales) SaleItem.roundedCost) := by
  have hlines : ∀ item ∈ linesOfSales s sales,
      dec (itemCostExpression item - (wholeLine item).cost) =
        item.roundedCost - if item.quantity = 0 then 0 else dec (money item.cost) := by
    intro item hitem
    rw [dec_sub, dec_wholeLine_cost (hfits item (mem_items_of_linesOfSales hitem))]
    rfl
  have hrows : ∀ x ∈ returnedOfSales s sales,
      dec (returnedItemValueExpression (itemCostExpression x.item) x - (partOfLine x).cost) =
        exactPart (fun i => i.roundedCost - i.cost) x.row.quantity x.item +
          roundingError (exactPart SaleItem.roundedCost x.row.quantity x.item) -
            partError SaleItem.cost x.row.quantity x.item := by
    intro x hx
    rw [dec_sub, dec_returnedItemValueExpression itemCostExpression,
      dec_partOfLine_cost (hfits _ (mem_items_of_returnedOfSales hx)), exactPart_sub]
    change exactPart SaleItem.roundedCost _ _ + roundingError (exactPart SaleItem.roundedCost _ _) -
      _ = _
    ring
  rw [costGap, dec_sub, dec_sum_map, dec_sum_map, List.map_congr_left hlines,
    List.map_congr_left hrows]
  simp only [sum_map_sub, List.sum_map_add]
  unfold skippedCost exactReturned databaseError returnedError
  rw [sum_map_sub]
  ring

end Gaps

/-- **The profit reports.**  The four computations of net revenue, cost and gross profit agree
exactly when the rounding errors made on the lines and on the return rows cancel. -/
theorem profits_agree_iff (hfits : ∀ item ∈ s.sales.items, FitsColumns item) :
    ProfitsAgree s sales ↔ RoundingCancels (linesOfSales s sales) (returnedOfSales s sales) := by
  have hzero : ∀ a : ℤ, a = 0 ↔ dec a = 0 := fun a => by
    rw [← dec_zero]
    exact dec_injective.eq_iff.symm
  rw [profitsAgree_iff_gaps, hzero, hzero, hzero, hzero, dec_splitLoss_revenue hfits,
    dec_splitLoss_cost hfits, dec_revenueGap hfits, dec_costGap hfits]
  constructor
  · rintro ⟨hrefunds, hcosts, htaxes, hdatabase⟩
    constructor <;> linarith
  · rintro ⟨hrefunds, hcosts, htaxes, hdatabase⟩
    refine ⟨?_, ?_, ?_, ?_⟩ <;> linarith

/-- Three pieces with five percent tax, of which some come back. -/
def someOfThreeReturned (paid quantity : ℚ) : List Op := [
  .saveMasterData (.settings { vatEnabled := true, vatPercentage := 5000 }),
  Shop.sell 3 [⟨0, paid⟩],
  .processReturn Shop.call { sale := 0, items := [⟨0, quantity, true⟩], refundMethod := .cash }]

/-- One of three pieces at 2.000 comes back: every part is exact, and the reports agree. -/
theorem profits_agree_one_of_three :
    Trace.All step (fun s op => op.Accepted s) (history (Shop.stocked 2000))
        (someOfThreeReturned (63 / 10) 1) ∧
      ProfitsAgree (history (Shop.stocked 2000 ++ someOfThreeReturned (63 / 10) 1)) [0] := by
  refine ⟨?_, (profits_agree_iff _ _ ?_).mpr ?_⟩ <;> decide +kernel

/-- Two of three pieces at 0.016 come back. -/
def twoOfThreeReturned : List Op := someOfThreeReturned (1 / 20) 2

/-- Both requests are accepted.  The refunds recorded are 0.034 of 0.050, so the activity summary
has a net revenue of 0.015; the profit summary takes a third of the line total, 0.017, and has
0.016. -/
theorem profits_disagree :
    Trace.All step (fun s op => op.Accepted s) (history (Shop.stocked 16)) twoOfThreeReturned ∧
      (itemActivitySummary (history (Shop.stocked 16 ++ twoOfThreeReturned)) [0]
        (returnsOfSales (history (Shop.stocked 16 ++ twoOfThreeReturned)) [0])
          false).net.revenueExcludingTax = 15 ∧
      (profitSummary (history (Shop.stocked 16 ++ twoOfThreeReturned)) [0] 0).revenue = 16 ∧
      ¬ ProfitsAgree (history (Shop.stocked 16 ++ twoOfThreeReturned)) [0] := by
  have hactivity : (itemActivitySummary (history (Shop.stocked 16 ++ twoOfThreeReturned)) [0]
      (returnsOfSales (history (Shop.stocked 16 ++ twoOfThreeReturned)) [0])
        false).net.revenueExcludingTax = 15 := by
    decide +kernel
  have hprofit : (profitSummary (history (Shop.stocked 16 ++ twoOfThreeReturned)) [0] 0).revenue =
      16 := by
    decide +kernel
  refine ⟨?_, hactivity, hprofit, ?_⟩
  · decide +kernel
  · intro hagree
    have hsame := hagree.1.1
    rw [hactivity, hprofit] at hsame
    omega

end NexaPos
