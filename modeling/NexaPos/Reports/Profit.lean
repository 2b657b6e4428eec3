import NexaPos.Sales.Financials

/-!
# The profit reports

Each report takes the sales that its filters select, and where it books returns by their own
date, the returns they select.  The sales are those of `_sales_base`: neither drafts nor void.
What the expense query of a report sums to is an argument.
-/

namespace NexaPos

/-- The lines of a sale, as `sale.items.all()`. -/
def linesOf (s : State) (id : ℕ) : List SaleItem := (itemsOfSale s id).map Prod.snd

/-! ## Profit summary -/

/-- The rows of `profit_summary`. -/
structure ProfitSummary where
  revenue : ℤ
  cost : ℤ
  gross : ℤ
  expenses : ℤ
  netProfit : ℤ
  deriving DecidableEq, Repr

/-- `profit_summary`. -/
def profitSummary (s : State) (sales : List ℕ) (expenses : ℤ) : ProfitSummary :=
  let values := ((validSales s sales).flatMap (linesOf s)).map fun item => netItemValues item none
  let gross := (values.map NetItemValues.profit).sum
  { revenue := (values.map fun v => v.revenue - v.tax).sum
    cost := (values.map NetItemValues.cost).sum
    gross := gross
    expenses := expenses
    netProfit := gross - expenses }

/-! ## Sales summary -/

/-- A row of `sales_summary`. -/
structure SalesSummaryRow where
  date : ℤ
  invoiceNumber : Text
  netSales : ℤ
  bank : ℤ
  card : ℤ
  cash : ℤ
  receivable : ℤ
  discount : ℤ
  tax : ℤ
  gross : ℤ
  deriving DecidableEq, Repr

/-- `_net_sale_tax`. -/
def netSaleTax (s : State) (id : ℕ) : ℤ :=
  ((linesOf s id).map fun item => (netItemValues item none).tax).sum

/-- `_net_sale_profit`. -/
def netSaleProfit (s : State) (id : ℕ) : ℤ :=
  ((linesOf s id).map fun item => (netItemValues item none).profit).sum

/-- The row of one sale. -/
def salesSummaryRow (s : State) (id : ℕ) (sale : Sale) : SalesSummaryRow :=
  let summary := financialSummaryForSale s id sale
  { date := sale.saleDate
    invoiceNumber := sale.invoiceNumber
    netSales := summary.netSales
    bank := summary.tenders.net .bank
    card := summary.tenders.net .card
    cash := summary.tenders.net .cash
    receivable := summary.receivable
    discount := netSaleDiscount s id sale
    tax := netSaleTax s id
    gross := netSaleProfit s id }

/-- The rows of `sales_summary`, in the order of the sales. -/
def salesSummary (s : State) (sales : List ℕ) : List SalesSummaryRow :=
  (validSales s sales).filterMap fun id => s.sales.sales[id]?.map (salesSummaryRow s id)

end NexaPos
