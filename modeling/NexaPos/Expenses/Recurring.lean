import NexaPos.Expenses.Models
import NexaPos.Lib.Numbering
import NexaPos.Lib.UtcTime
import NexaPos.Wms.Models

/-!
# Recurring expenses

The expenses that templates ask for, one a month.  `ensureRecurringExpensesForMonth` is one
transaction; the request for a range of months is one transaction for each of them.

What the access engine answers, the date of today, and whether the database locks the rows of an
outer join are the conditions of a call.  All rows belong to one business, and amounts are in
thousandths.
-/

namespace NexaPos.Recurring

open Tx
open Wms (Date monthDays)

/-! ## Dates -/

/-- What the services raise. -/
inductive Fault
  /-- `RecurringExpenseGenerationError`. -/
  | generation (message : String)
  /-- `RecurringExpenseRangeError`. -/
  | range (message : String)
  /-- `ValueError`. -/
  | value
  /-- `IntegrityError`. -/
  | integrity
  /-- `MultipleObjectsReturned`. -/
  | multiple
  /-- `NotSupportedError`. -/
  | notSupported
  deriving DecidableEq, Repr

/-- The fields of a `date`. -/
def IsDate (d : Date) : Prop :=
  1 ≤ d.year ∧ d.year ≤ 9999 ∧ 1 ≤ d.month ∧ d.month ≤ 12 ∧ 1 ≤ d.day ∧
    d.day ≤ monthDays d.year d.month

instance decidableIsDate (d : Date) : Decidable (IsDate d) := inferInstanceAs (Decidable (_ ∧ _))

structure CalendarDate where
  date : Date
  valid : IsDate date
  deriving DecidableEq

/-- `date.replace`. -/
def replaceDate (year month day : ℕ) : Except Fault Date :=
  if IsDate ⟨year, month, day⟩ then pure ⟨year, month, day⟩ else throw .value

/-- `_month_bounds`. -/
def monthBounds (target : Date) : Except Fault (Date × Date) := do
  let monthStart ← replaceDate target.year target.month 1
  let monthEnd ← replaceDate target.year target.month (monthDays target.year target.month)
  pure (monthStart, monthEnd)

/-- The first day of the next month. -/
def nextMonth (current : Date) : Except Fault Date :=
  if current.month = 12 then
    replaceDate (current.year + 1) 1 current.day
  else
    replaceDate current.year (current.month + 1) current.day

/-! ## Rows -/

structure Branch where
  business : ℕ
  isActive : Bool
  deriving DecidableEq, Repr

structure RecurringExpenseTemplate where
  name : String
  branch : Option ℕ
  category : ℕ
  defaultAmount : ℕ
  dueDay : ℕ
  startDate : Date
  endDate : Option Date
  notes : String
  isActive : Bool
  due_pos : 1 ≤ dueDay
  due_le : dueDay ≤ 31
  deriving DecidableEq

structure Expense where
  expenseNumber : Text
  expenseDate : Date
  branch : ℕ
  category : ℕ
  payee : String
  /-- The name of the supplier. -/
  supplier : Option String := none
  amount : ℕ
  /-- The kind of the payment method. -/
  paymentMethod : Option PaymentKind := none
  description : String
  status : ExpenseStatus
  shift : Option ℕ := none
  recurringTemplate : Option ℕ := none
  generatedForMonth : Option Date := none
  deriving DecidableEq

structure ExpenseBook where
  business : ℕ
  branches : List Branch
  templates : List RecurringExpenseTemplate
  expenses : List Expense := []
  deriving DecidableEq

/-- The template is active, and its dates meet those from `first` to `last`. -/
def RecurringExpenseTemplate.overlaps (t : RecurringExpenseTemplate) (first last : Date) : Bool :=
  t.isActive && decide (t.startDate ≤ last) && t.endDate.all fun d => decide (first ≤ d)

/-- The templates that meet some dates, with their primary keys. -/
def ExpenseBook.applicable (b : ExpenseBook) (first last : Date) :
    List (RecurringExpenseTemplate × ℕ) :=
  b.templates.zipIdx.filter fun x => x.1.overlaps first last

/-! ## One month -/

/-- A denial of the access engine. -/
inductive Denial
  | businessInactive
  | moduleDisabled
  | other (message : String)
  deriving DecidableEq, Repr

structure Conditions where
  today : CalendarDate
  denial : Option Denial
  /-- The database accepts `FOR UPDATE` on an outer join. -/
  locksOuterJoin : Bool
  deriving DecidableEq

def checkAccess (c : Conditions) : Except Fault Unit :=
  match c.denial with
  | none => pure ()
  | some .businessInactive =>
    throw (.generation "Recurring expense generation requires an active business.")
  | some .moduleDisabled =>
    throw (.generation "The current plan does not include expenses.")
  | some (.other message) => throw (.generation message)

/-- `_generation_branch`. -/
def generationBranch (b : ExpenseBook) (t : RecurringExpenseTemplate) : Except Fault ℕ :=
  match t.branch with
  | some pk =>
    if b.branches[pk]?.any (·.business = b.business) then
      pure pk
    else
      throw (.generation ("Fixed expense '" ++ t.name ++ "' has an invalid branch."))
  | none =>
    let branches := b.branches.zipIdx.filter fun x => x.1.business = b.business && x.1.isActive
    match (branches.map (·.2)).take 2 with
    | [pk] => pure pk
    | [] => throw (.generation "The business has no active branch for recurring expenses.")
    | _ =>
      throw (.generation ("Choose a branch for legacy fixed expense '" ++ t.name ++
        "' before generating monthly expenses."))

/-- The expense number of a template and a month. -/
def recurringNumber (month : Date) (pk : ℕ) : Text :=
  "REC-".toList ++ (Nat.toDigits 10 month.year ++ UtcTime.padded 2 month.month ++
    '-' :: Nat.toDigits 10 pk)

/-- The expense of a template for a month. -/
def generatedExpense (t : RecurringExpenseTemplate) (pk : ℕ) (month dueDate : Date)
    (branch : ℕ) : Expense where
  expenseNumber := recurringNumber month pk
  expenseDate := dueDate
  branch := branch
  category := t.category
  payee := t.name
  amount := t.defaultAmount
  description := t.notes
  status := .approved
  recurringTemplate := some pk
  generatedForMonth := some month

/-- The expense belongs to a template and a month. -/
def Expense.isFor (e : Expense) (pk : ℕ) (month : Date) : Bool :=
  e.recurringTemplate = some pk && e.generatedForMonth = some month

/-- `get_or_create`, with the unique number that the database asks for. -/
def getOrCreate (pk : ℕ) (month : Date) (e : Expense) : Tx ExpenseBook Fault Bool := do
  let b ← get
  match b.expenses.filter (·.isFor pk month) with
  | [] => do
    check (b.expenses.all (·.expenseNumber ≠ e.expenseNumber)) .integrity
    modify fun b => { b with expenses := b.expenses ++ [e] }
    pure true
  | [_] => pure false
  | _ => throw .multiple

structure RecurringGenerationResult where
  created : ℕ
  existing : ℕ
  deriving DecidableEq, Repr

/-- One round of the loop over the templates. -/
def generateOne (monthStart : Date) (monthLastDay : ℕ) (result : RecurringGenerationResult)
    (x : RecurringExpenseTemplate × ℕ) : Tx ExpenseBook Fault RecurringGenerationResult := do
  let branch ← reads (generationBranch · x.1)
  let dueDate ← reads fun _ =>
    replaceDate monthStart.year monthStart.month (min x.1.dueDay monthLastDay)
  let created ← getOrCreate x.2 monthStart (generatedExpense x.1 x.2 monthStart dueDate branch)
  if created then
    pure { result with created := result.created + 1 }
  else
    pure { result with existing := result.existing + 1 }

/-- `ensure_recurring_expenses_for_month`. -/
def ensureRecurringExpensesForMonth (c : Conditions) (target : Date) :
    Tx ExpenseBook Fault RecurringGenerationResult := do
  reads fun _ => checkAccess c
  let bounds ← reads fun _ => monthBounds target
  check c.locksOuterJoin .notSupported
  let b ← get
  (b.applicable bounds.1 bounds.2).foldlM (generateOne bounds.1 bounds.2.day) ⟨0, 0⟩

/-! ## A range of months -/

/-- `date_from` or `date_to`. -/
inductive DateInput
  | blank
  | date (d : CalendarDate)
  | malformed
  deriving DecidableEq

/-- `_as_date`. -/
def asDate : DateInput → Except Fault (Option Date)
  | .blank => pure none
  | .date d => pure (some d.date)
  | .malformed => throw (.range "Choose a valid expense report date range.")

/-- The dates from which to which a range goes. -/
def requestedRange (c : Conditions) (dateFrom dateTo : DateInput) : Except Fault (Date × Date) := do
  let start ←
    match ← asDate dateFrom with
    | some d => pure d
    | none => replaceDate c.today.date.year c.today.date.month 1
  match ← asDate dateTo with
  | some d => pure (start, d)
  | none => pure (start, if start ≤ c.today.date then c.today.date else start)

/-- The loop of `ensure_recurring_expenses_for_range`. -/
def ensureMonths (c : Conditions) :
    ℕ → Date → RecurringGenerationResult → ExpenseBook →
      Except Fault RecurringGenerationResult × ExpenseBook
  | 0, _, result, b => (.ok result, b)
  | n + 1, current, result, b =>
    match (ensureRecurringExpensesForMonth c current).run b with
    | .error e => (.error e, b)
    | .ok (r, b') =>
      match nextMonth current with
      | .error e => (.error e, b')
      | .ok next =>
        ensureMonths c n next ⟨result.created + r.created, result.existing + r.existing⟩ b'

/-- Months are counted from the year 0. -/
def monthIndex (d : Date) : ℕ := 12 * d.year + d.month

/-- `ensure_recurring_expenses_for_range`. -/
def ensureRecurringExpensesForRange (c : Conditions) (dateFrom dateTo : DateInput)
    (maxMonths : ℕ) (b : ExpenseBook) : Except Fault RecurringGenerationResult × ExpenseBook :=
  match requestedRange c dateFrom dateTo with
  | .error e => (.error e, b)
  | .ok (start, last) =>
    if ¬ start ≤ last then
      (.ok ⟨0, 0⟩, b)
    else if maxMonths < monthIndex last - monthIndex start + 1 then
      (.error (.range "Choose an expense report date range of 10 years or less."), b)
    else
      match replaceDate start.year start.month 1, monthBounds last with
      | .ok monthStart, .ok bounds =>
        if (b.applicable monthStart bounds.2).isEmpty then
          (.ok ⟨0, 0⟩, b)
        else
          ensureMonths c (monthIndex last - monthIndex start + 1) monthStart ⟨0, 0⟩ b
      | _, _ => (.error .value, b)

/-! ## Other expenses -/

/-- `EXP-` and at least six digits. -/
def manualNumber (n : ℕ) : Text := "EXP-".toList ++ UtcTime.padded 6 n

/-- `next_expense_number`. -/
def nextExpenseNumber (b : ExpenseBook) : Text :=
  manualNumber (Numbering.search (fun n => b.expenses.any (·.expenseNumber = manualNumber n))
    (b.expenses.length + 1) (b.expenses.length + 1))

/-- What a user enters. -/
structure ManualExpense where
  expenseDate : Date
  branch : ℕ
  category : ℕ
  payee : String
  amount : ℕ
  description : String
  status : ExpenseStatus
  deriving DecidableEq

/-- An expense that a user records. -/
def recordExpense (e : ManualExpense) (b : ExpenseBook) : ExpenseBook :=
  { b with
    expenses := b.expenses ++
      [{ expenseNumber := nextExpenseNumber b
         expenseDate := e.expenseDate
         branch := e.branch
         category := e.category
         payee := e.payee
         amount := e.amount
         description := e.description
         status := e.status }] }

/-! ## Runs -/

inductive Move
  | month (c : Conditions) (target : CalendarDate)
  | range (c : Conditions) (dateFrom dateTo : DateInput) (maxMonths : ℕ)
  | record (e : ManualExpense)

/-- Whether the request ends without an error, and what it leaves. -/
def perform (b : ExpenseBook) : Move → Bool × ExpenseBook
  | .month c target =>
    match (ensureRecurringExpensesForMonth c target.date).run b with
    | .ok (_, b') => (true, b')
    | .error _ => (false, b)
  | .range c dateFrom dateTo maxMonths =>
    let r := ensureRecurringExpensesForRange c dateFrom dateTo maxMonths b
    (r.1.isOk, r.2)
  | .record e => (true, recordExpense e b)

def step (b : ExpenseBook) (m : Move) : ExpenseBook := (perform b m).2

end NexaPos.Recurring
