import NexaPos.Expenses.Recurring
import NexaPos.Lib.Rounding
import Mathlib.Data.Char
import Mathlib.Data.List.Lex

/-!
# The monthly expense report

`expense_analysis` lists the expenses of some days, together with those that recurring templates
ask for and that were not generated yet.  Everything that the report says is computed from the list
of its records.

Amounts are in thousandths.  The names of branches and categories are given; labels, the texts of
percentages and the name of the month are left out.
-/

namespace NexaPos.Recurring

open Wms (Date monthDays)

/-! ## Filters -/

/-- `Expense.PAYMENT_MEDIUM_CHOICES`. -/
inductive PaymentMedium
  | cashRegister
  | cashNonRegister
  | card
  | bank
  | online
  | other
  | unspecified
  deriving DecidableEq, Repr

namespace PaymentMedium

/-- The media in the order of the choices. -/
def all : List PaymentMedium :=
  [cashRegister, cashNonRegister, card, bank, online, other, unspecified]

def label : PaymentMedium → String
  | cashRegister => "Cash – Register"
  | cashNonRegister => "Cash – Non-register"
  | card => "Card"
  | bank => "Bank Transfer"
  | online => "Online"
  | other => "Other"
  | unspecified => "Unspecified"

end PaymentMedium

def statusLabel : ExpenseStatus → String
  | .draft => "Draft"
  | .submitted => "Submitted"
  | .approved => "Approved"
  | .rejected => "Rejected"
  | .paid => "Paid"
  | .cancelled => "Cancelled"

/-- The filters of the report. -/
structure ExpenseFilters where
  monthStart : Option CalendarDate := none
  monthEnd : Option CalendarDate := none
  dateFrom : Option CalendarDate := none
  dateTo : Option CalendarDate := none
  branchId : Option ℕ := none
  allowedBranchIds : Option (List ℕ) := none
  expenseStatus : Option ExpenseStatus := none
  expensePaymentMedium : Option PaymentMedium := none
  expenseCategoryId : Option ℕ := none

namespace ExpenseFilters

variable (f : ExpenseFilters)

/-- `month_start or date_from`. -/
def start : Option Date := (f.monthStart.or f.dateFrom).map (·.date)

/-- `month_end or date_to`. -/
def finish : Option Date := (f.monthEnd.or f.dateTo).map (·.date)

/-- The filters on branches. -/
def admitsBranch (branch : ℕ) : Bool :=
  f.branchId.all (· = branch) && f.allowedBranchIds.all (branch ∈ ·)

def admitsCategory (category : ℕ) : Bool := f.expenseCategoryId.all (· = category)

end ExpenseFilters

/-! ## Records -/

/-- The names that a report shows. -/
structure Names where
  branch : ℕ → String
  category : ℕ → String

structure Record where
  number : Text
  date : Date
  categoryId : ℕ
  category : String
  source : String
  payee : String
  branchId : ℕ
  branch : String
  paymentMedium : PaymentMedium
  paidVia : String
  amount : ℕ
  status : String
  deriving DecidableEq, Repr

namespace Expense

variable (e : Expense)

/-- `source_display`. -/
def sourceDisplay : String := if e.recurringTemplate.isSome then "Fixed" else "Current"

/-- `payment_medium_key`. -/
def paymentMediumKey : PaymentMedium :=
  match e.paymentMethod with
  | none => .unspecified
  | some .cash => if e.shift.isSome then .cashRegister else .cashNonRegister
  | some .card => .card
  | some .bank => .bank
  | some .online => .online
  | some _ => .other

/-- `filter_by_payment_medium`. -/
def isPaidBy : PaymentMedium → Bool
  | .cashRegister => e.paymentMethod = some .cash && e.shift.isSome
  | .cashNonRegister => e.paymentMethod = some .cash && e.shift.isNone
  | .card => e.paymentMethod = some .card
  | .bank => e.paymentMethod = some .bank
  | .online => e.paymentMethod = some .online
  | .other => e.paymentMethod = some .other || e.paymentMethod = some .customerCredit ||
      e.paymentMethod = some .storeCredit
  | .unspecified => e.paymentMethod = none

/-- `payee or supplier or description`. -/
def paidTo : String :=
  if e.payee ≠ "" then e.payee
  else if e.supplier.getD "" ≠ "" then e.supplier.getD "" else e.description

def record (names : Names) : Record where
  number := e.expenseNumber
  date := e.expenseDate
  categoryId := e.category
  category := names.category e.category
  source := e.sourceDisplay
  payee := e.paidTo
  branchId := e.branch
  branch := names.branch e.branch
  paymentMedium := e.paymentMediumKey
  paidVia := e.paymentMediumKey.label
  amount := e.amount
  status := statusLabel e.status

end Expense

/-- The expenses that the report selects. -/
def ExpenseFilters.selects (f : ExpenseFilters) (e : Expense) : Bool :=
  f.expenseStatus.elim (e.status ≠ .rejected && e.status ≠ .cancelled) (e.status = ·) &&
    f.start.all (fun d => decide (d ≤ e.expenseDate)) &&
    f.finish.all (fun d => decide (e.expenseDate ≤ d)) &&
    f.admitsBranch e.branch && f.admitsCategory e.category &&
    f.expensePaymentMedium.all e.isPaidBy

/-! ## Fixed expenses that were not generated -/

/-- The record of a template for a month. -/
def occurrence (names : Names) (t : RecurringExpenseTemplate) (pk : ℕ) (month dueDate : Date)
    (branch : ℕ) : Record where
  number := recurringNumber month pk
  date := dueDate
  categoryId := t.category
  category := names.category t.category
  source := "Fixed"
  payee := t.name
  branchId := branch
  branch := names.branch branch
  paymentMedium := .unspecified
  paidVia := "Unspecified"
  amount := t.defaultAmount
  status := statusLabel .approved

/-- The rounds of the loop over the months for one template. -/
def occurrencesOf (names : Names) (dateFrom dateTo : Date) (generated : List (ℕ × Date))
    (x : RecurringExpenseTemplate × ℕ) (branch : ℕ) : ℕ → Date → Except Fault (List Record)
  | 0, _ => pure []
  | n + 1, month => do
    let monthEnd ← replaceDate month.year month.month (monthDays month.year month.month)
    let dueDate ← replaceDate month.year month.month (min x.1.dueDay monthEnd.day)
    let next ← nextMonth month
    let rest ← occurrencesOf names dateFrom dateTo generated x branch n next
    if (x.1.startDate ≤ monthEnd ∧ x.1.endDate.all (fun d => decide (month ≤ d)) = true) ∧
        (dateFrom ≤ dueDate ∧ dueDate ≤ dateTo) ∧ (x.2, month) ∉ generated then
      pure (occurrence names x.1 x.2 month dueDate branch :: rest)
    else
      pure rest

/-- A round of the loop over the templates: nothing without a branch, or outside the filters on
branches. -/
def occurrencesAt (names : Names) (f : ExpenseFilters) (dateFrom dateTo : Date)
    (generated : List (ℕ × Date)) (soleLegacyBranch : Option ℕ) (firstMonth : Date) (rounds : ℕ)
    (x : RecurringExpenseTemplate × ℕ) : Except Fault (List Record) :=
  match x.1.branch.or soleLegacyBranch with
  | none => pure []
  | some branch =>
    if f.admitsBranch branch then
      occurrencesOf names dateFrom dateTo generated x branch rounds firstMonth
    else
      pure []

/-- The loop over the templates. -/
def occurrencesOfAll (names : Names) (f : ExpenseFilters) (dateFrom dateTo : Date)
    (generated : List (ℕ × Date)) (soleLegacyBranch : Option ℕ) (firstMonth : Date) (rounds : ℕ) :
    List (RecurringExpenseTemplate × ℕ) → Except Fault (List Record)
  | [] => pure []
  | x :: templates => do
    let here ←
      occurrencesAt names f dateFrom dateTo generated soleLegacyBranch firstMonth rounds x
    let rest ←
      occurrencesOfAll names f dateFrom dateTo generated soleLegacyBranch firstMonth rounds
        templates
    pure (here ++ rest)

/-- The templates and months that have an expense, among some templates and between two months. -/
def ExpenseBook.generatedFor (b : ExpenseBook) (templates : List ℕ) (firstMonth lastMonth : Date) :
    List (ℕ × Date) :=
  b.expenses.filterMap fun e =>
    e.recurringTemplate.bind fun pk => e.generatedForMonth.bind fun month =>
      if pk ∈ templates ∧ firstMonth ≤ month ∧ month ≤ lastMonth then some (pk, month) else none

/-- The only active branch of the business. -/
def ExpenseBook.soleLegacyBranch (b : ExpenseBook) : Option ℕ :=
  let branches := b.branches.zipIdx.filter fun x => x.1.business = b.business && x.1.isActive
  match (branches.map (·.2)).take 2 with
  | [pk] => some pk
  | _ => none

/-- `_fixed_expense_occurrences`. -/
def fixedExpenseOccurrences (names : Names) (f : ExpenseFilters) (b : ExpenseBook) :
    Except Fault (List Record) :=
  match f.start, f.finish with
  | some dateFrom, some dateTo =>
    if ¬ dateFrom ≤ dateTo then pure []
    else do
      let firstMonth ← replaceDate dateFrom.year dateFrom.month 1
      let lastMonth ← replaceDate dateTo.year dateTo.month 1
      let templates := b.applicable firstMonth dateTo
      let generated := b.generatedFor (templates.map (·.2)) firstMonth lastMonth
      occurrencesOfAll names f dateFrom dateTo generated b.soleLegacyBranch firstMonth
        (monthIndex lastMonth - monthIndex firstMonth + 1) templates
  | _, _ => pure []

/-! ## Days -/

/-- The day after a date. -/
def nextDay (d : Date) : Date :=
  if d.day < monthDays d.year d.month then ⟨d.year, d.month, d.day + 1⟩
  else if d.month < 12 then ⟨d.year, d.month + 1, 1⟩
  else ⟨d.year + 1, 1, 1⟩

/-- `toordinal`. -/
def ordinal (d : Date) : ℕ :=
  365 * (d.year - 1) + (d.year - 1) / 4 - (d.year - 1) / 100 + (d.year - 1) / 400 +
    ((List.range (d.month - 1)).map fun m => monthDays d.year (m + 1)).sum + d.day

/-- Some days in a row. -/
def daysFrom : ℕ → Date → List Date
  | 0, _ => []
  | n + 1, d => d :: daysFrom n (nextDay d)

/-! ## The report -/

/-- The order of the records: by date, then by number. -/
def Record.before (x y : Record) : Bool :=
  decide (x.date ≤ y.date) && (x.date ≠ y.date || decide (x.number ≤ y.number))

/-- The sum of some amounts. -/
def totalOf (records : List Record) : ℕ := (records.map (·.amount)).sum

/-- `_money(total / count)`. -/
def averageOf (total count : ℕ) : ℤ :=
  if count = 0 then 0 else Rounding.roundHalfAway ((total : ℚ) / count)

structure CategoryRow where
  category : String
  count : ℕ
  total : ℕ
  average : ℤ
  /-- The part of the grand total, as a percentage. -/
  share : ℚ
  deriving DecidableEq

structure DailyRow where
  date : Date
  count : ℕ
  cash : ℕ
  card : ℕ
  bankOnline : ℕ
  other : ℕ
  total : ℕ
  transactions : List Record
  deriving DecidableEq

structure MediumRow where
  medium : PaymentMedium
  count : ℕ
  total : ℕ
  deriving DecidableEq

structure ExpenseReport where
  rows : List CategoryRow
  paymentBreakdown : List MediumRow
  dailyBreakdown : List DailyRow
  highestExpenseDay : Option DailyRow
  totalExpenses : ℕ
  transactionCount : ℕ
  averageExpense : ℤ
  transactions : List Record
  deriving DecidableEq

/-- The categories in the order of their first records, sorted by their totals. -/
def categoryRows (records : List Record) : List CategoryRow :=
  let names := (records.map (·.category)).reverse.dedup.reverse
  let rows := names.map fun name =>
    let own := records.filter (·.category = name)
    { category := name
      count := own.length
      total := totalOf own
      average := averageOf (totalOf own) own.length
      share := if totalOf records = 0 then 0 else totalOf own / totalOf records * 100 }
  rows.mergeSort fun x y => y.total ≤ x.total

def mediumRow (records : List Record) (medium : PaymentMedium) : MediumRow :=
  let own := records.filter (·.paymentMedium = medium)
  ⟨medium, own.length, totalOf own⟩

def dailyRow (records : List Record) (day : Date) : DailyRow :=
  let own := records.filter (·.date = day)
  { date := day
    count := own.length
    cash := totalOf (own.filter fun r =>
      r.paymentMedium ∈ [PaymentMedium.cashRegister, .cashNonRegister])
    card := totalOf (own.filter (·.paymentMedium = .card))
    bankOnline := totalOf (own.filter fun r => r.paymentMedium ∈ [PaymentMedium.bank, .online])
    other := totalOf (own.filter fun r =>
      r.paymentMedium ∈ [PaymentMedium.other, .unspecified])
    total := totalOf own
    transactions := own }

/-- `report_days`: every day of the range, or the days that have records. -/
def reportDays (f : ExpenseFilters) (records : List Record) : List Date :=
  match f.start, f.finish with
  | some dateFrom, some dateTo => daysFrom (ordinal dateTo + 1 - ordinal dateFrom) dateFrom
  | _, _ => (records.map (·.date)).reverse.dedup.reverse

/-- The first of the days with the largest total. -/
def highestDay (days : List DailyRow) : Option DailyRow :=
  days.foldl (fun best day =>
    if day.count = 0 then best
    else some (best.elim day fun r => if r.total < day.total then day else r)) none

/-- What the report says about some records. -/
def reportOf (f : ExpenseFilters) (records : List Record) : ExpenseReport :=
  let days := (reportDays f records).map (dailyRow records)
  { rows := categoryRows records
    paymentBreakdown := PaymentMedium.all.map (mediumRow records)
    dailyBreakdown := days
    highestExpenseDay := highestDay days
    totalExpenses := totalOf records
    transactionCount := records.length
    averageExpense := averageOf (totalOf records) records.length
    transactions := records }

/-- The filters that only `expense_analysis` puts on the fixed expenses. -/
def ExpenseFilters.keeps (f : ExpenseFilters) (r : Record) : Bool :=
  f.admitsCategory r.categoryId && f.expenseStatus.all (· = .approved) &&
    f.expensePaymentMedium.all (· = .unspecified)

/-- `expense_analysis`. -/
def expenseAnalysis (names : Names) (f : ExpenseFilters) (b : ExpenseBook) :
    Except Fault ExpenseReport := do
  let rows := (b.expenses.filter f.selects).map (·.record names)
  let occurrences ← fixedExpenseOccurrences names f b
  let records := rows ++ occurrences.filter f.keeps
  pure (reportOf f (records.mergeSort Record.before))

end NexaPos.Recurring
