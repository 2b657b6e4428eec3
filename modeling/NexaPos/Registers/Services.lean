import NexaPos.Expenses.Models
import NexaPos.Sales.Financials

/-!
# Shifts and their drawers

A shift is opened on a register with some cash in the drawer.  Closing it compares what was
counted with what the recorded sales, refunds, collections and expenses leave in the drawer
(`shiftTotals`), and stores the comparison in the row: the stored figures are a snapshot.  A
closed shift can be approved, and a closed or approved one can be opened again.

The unique constraint on open shifts is one per register.
-/

namespace NexaPos

open Tx

/-! ## Authorised rows -/

/-- `_require_register_write`. -/
def requireRegisterWrite (c : Call) (permission : String) (branch : ℕ) : Except PosError Unit := do
  requireActorAccess c .posCore permission
  require (c.actor.canAccessBranch branch) .scopeDenied

/-- `_locked_register_for_write`. -/
def lockedRegisterForWrite (c : Call) (permission : String) (register : ℕ) (s : State) :
    Except PosError CashRegister := do
  requireActorAccess c .posCore permission
  let row ← found s.tenant.registers[register]? .scopeDenied
  requireRegisterWrite c permission row.branch
  return row

/-- `_locked_shift_for_write`. -/
def lockedShiftForWrite (c : Call) (permission : String) (shift : ℕ) (s : State) :
    Except PosError Shift := do
  requireActorAccess c .posCore permission
  let row ← found s.tenant.shifts[shift]? .scopeDenied
  requireRegisterWrite c permission row.branch
  return row

/-- `_cash_decimal`. -/
def cashDecimal (value : Cell) (label : String) : Except PosError ℚ :=
  match value with
  | .number d => .ok d.value
  | .nonFinite => .error (.shift s!"Enter a finite {label}.")
  | _ => .error (.shift s!"Enter a valid {label}.")

/-- A register that takes sales: it is active, and so is its branch, which is a sales branch. -/
def isOperational (s : State) (register : CashRegister) : Bool :=
  register.isActive &&
    (s.tenant.branches[register.branch]?).any fun x =>
      x.isActive && x.usageType = .salesBranch

/-- Rewrite one shift. -/
def updateShift (shift : ℕ) (f : Shift → Shift) (s : State) : State :=
  { s with tenant.shifts := s.tenant.shifts.modify shift f }

/-! ## Open shifts -/

/-- An open shift with the given property exists. -/
def hasOpenShift (s : State) (p : Shift → Bool) : Bool :=
  s.tenant.shifts.any fun x => x.status = .opened && p x

/-- The shifts `get_open_shift` chooses the first of: the open ones of a register, or else of a
cashier.  With a membership they are at active places the member may use. -/
def openShifts (s : State) (user : ℕ) (register : Option ℕ) (membership : Option Actor) :
    List (ℕ × Shift) :=
  (s.tenant.shifts.zipIdx.map Prod.swap).filter fun x =>
    x.2.status = .opened &&
    (s.tenant.branches[x.2.branch]?).any (fun b => b.usageType = .salesBranch &&
      (membership.isNone || b.isActive)) &&
    (match register with
      | some register => x.2.register = register
      | none => x.2.cashier = user) &&
    membership.all fun m => m.user = user && m.canAccessBranch x.2.branch &&
      (s.tenant.registers[x.2.register]?).any CashRegister.isActive

/-- The checks of `open_shift`; the row they admit. -/
def checkOpenShift (c : Call) (register : ℕ) (openingCash : Cell) (s : State) :
    Except PosError Shift := do
  let row ← lockedRegisterForWrite c "shifts.open" register s
  require (isOperational s row) (.shift "This register is archived or its branch is inactive.")
  require (!hasOpenShift s fun x => x.register = register)
    (.shift "This register already has an open shift.")
  require (!hasOpenShift s fun x => x.cashier = c.actor.user)
    (.shift "You already have an open shift on another register.")
  let openingCash ← cashDecimal openingCash "opening cash amount"
  return {
    register := register
    branch := row.branch
    cashier := c.actor.user
    openedAt := c.now
    openingCash := money openingCash }

/-- `open_shift`. -/
def openShift (c : Call) (register : ℕ) (openingCash : Cell) : Service Unit := do
  let row ← reads (checkOpenShift c register openingCash)
  modify fun s => { s with tenant.shifts := s.tenant.shifts ++ [row] }

/-! ## Totals -/

/-- `tender_summary_from_querysets`. -/
def tenderSummary (s : State) (payments : List SalePayment) (returns : List SaleReturn) :
    TenderSummary where
  gross kind := ((payments.filter fun x => paymentKind s x = some kind).map SalePayment.amount).sum
  refunds kind :=
    ((returns.filter fun x => x.refundMethod.tenderKind = kind).map SaleReturn.refundAmount).sum
  net kind :=
    ((payments.filter fun x => paymentKind s x = some kind).map SalePayment.amount).sum -
      ((returns.filter fun x => x.refundMethod.tenderKind = kind).map SaleReturn.refundAmount).sum

/-- A sale whose payments count: neither a draft nor void. -/
def isLiveSale (s : State) (sale : ℕ) : Bool :=
  (s.sales.sales[sale]?).any fun x => x.status ≠ .draft && x.status ≠ .voided

/-- The payments a shift took on live sales. -/
def shiftPayments (s : State) (shift : ℕ) : List SalePayment :=
  s.sales.payments.filter fun x => x.shift = some shift && isLiveSale s x.sale

/-- The returns a shift paid out. -/
def shiftReturns (s : State) (shift : ℕ) : List SaleReturn :=
  s.sales.returns.filter fun x => x.shift = some shift

/-- The method with this key takes cash. -/
def isCashMethod (s : State) (method : ℕ) : Bool :=
  (s.sales.paymentMethods[method]?).any fun x => x.kind = .cash

/-- The collections from customers in cash. -/
def collectedCash (s : State) (shift : ℕ) : ℤ :=
  ((s.parties.customerPayments.filter fun x =>
    x.shift = some shift && isCashMethod s x.paymentMethod).map CustomerPayment.amount).sum

/-- An expense that took cash from the drawer of a shift and was neither rejected nor
cancelled. -/
def Expense.spendsCash (s : State) (shift : ℕ) (x : Expense) : Bool :=
  x.shift = some shift && x.paymentMethod.any (isCashMethod s) &&
    x.status ≠ .rejected && x.status ≠ .cancelled

/-- The cash expenses of a shift. -/
def spentCash (b : Books) (shift : ℕ) : ℤ :=
  ((b.expenses.filter (Expense.spendsCash b.pos shift)).map Expense.amount).sum

/-- What `shift_totals` reports. -/
structure ShiftTotals where
  grossCashSales : ℤ
  cashSales : ℤ
  cardSales : ℤ
  bankSales : ℤ
  creditSales : ℤ
  storeCreditUsed : ℤ
  otherSales : ℤ
  customerCollectionsCash : ℤ
  cashRefunds : ℤ
  cashExpenses : ℤ
  expectedCash : ℤ
  deriving DecidableEq, Repr

/-- `shift_totals`. -/
def shiftTotals (b : Books) (shift : ℕ) (row : Shift) : ShiftTotals :=
  let tenders := tenderSummary b.pos (shiftPayments b.pos shift) (shiftReturns b.pos shift)
  let collected := collectedCash b.pos shift
  let spent := spentCash b shift
  { grossCashSales := tenders.gross .cash
    cashSales := tenders.amount .cash
    cardSales := tenders.amount .card
    bankSales := tenders.amount .bank
    creditSales := tenders.amount .customerCredit
    storeCreditUsed := tenders.amount .storeCredit
    otherSales := tenders.amount .other + tenders.amount .online
    customerCollectionsCash := collected
    cashRefunds := tenders.refunds .cash
    cashExpenses := spent
    expectedCash :=
      row.openingCash + tenders.gross .cash + collected - tenders.refunds .cash - spent }

/-! ## Closing, approving, reopening -/

/-- The checks of `close_shift`; the shift and the cash that was counted. -/
def checkCloseShift (c : Call) (shift : ℕ) (actualCash : Cell) (b : Books) :
    Except PosError (Shift × ℚ) := do
  let row ← lockedShiftForWrite c "shifts.close" shift b.pos
  require (row.cashier = c.actor.user || c.actor.hasPerm "shifts.approve")
    (.shift "Only the shift's cashier or a manager can close it.")
  require (row.status = .opened) (.shift "This shift is not open.")
  let actual ← cashDecimal actualCash "actual cash amount"
  return (row, actual)

/-- The row `close_shift` saves. -/
def closedShift (c : Call) (expected : ℤ) (actual : ℚ) (row : Shift) : Shift :=
  { row with
    expectedCash := expected
    actualCash := some (money actual)
    -- the counted cash was not rounded to the stored precision before
    difference := money (actual - dec expected)
    closedAt := some c.now
    status := .closed }

/-- `close_shift`. -/
def closeShift (c : Call) (shift : ℕ) (actualCash : Cell) : BooksService Unit := do
  let (row, actual) ← reads (checkCloseShift c shift actualCash)
  let b ← get
  let expected := (shiftTotals b shift row).expectedCash
  modify fun b => { b with pos := updateShift shift (closedShift c expected actual) b.pos }

/-- The checks of `approve_shift`. -/
def checkApproveShift (c : Call) (shift : ℕ) (s : State) : Except PosError Unit := do
  let row ← lockedShiftForWrite c "shifts.approve" shift s
  require (row.status = .closed) (.shift "Only closed shifts can be approved.")

/-- The row `approve_shift` saves. -/
def approvedShift (c : Call) (row : Shift) : Shift :=
  { row with status := .approved, approvedBy := some c.actor.user }

/-- `approve_shift`. -/
def approveShift (c : Call) (shift : ℕ) : Service Unit := do
  reads (checkApproveShift c shift)
  modify (updateShift shift (approvedShift c))

/-- The checks of `reopen_shift`. -/
def checkReopenShift (c : Call) (shift : ℕ) (s : State) : Except PosError Shift := do
  let row ← lockedShiftForWrite c "shifts.reopen" shift s
  require (row.status = .closed || row.status = .approved)
    (.shift "Only closed shifts can be reopened.")
  require ((s.tenant.registers[row.register]?).any (isOperational s))
    (.shift "Archived registers cannot be reopened for operations.")
  require (!hasOpenShift s fun x => x.register = row.register)
    (.shift "The register already has another open shift.")
  return row

/-- The row `reopen_shift` saves; the figures of the last closing stay in it. -/
def reopenedShift (row : Shift) : Shift :=
  { row with status := .opened, closedAt := none, reopenedCount := row.reopenedCount + 1 }

/-- `reopen_shift`. -/
def reopenShift (c : Call) (shift : ℕ) : Service Unit := do
  let _ ← reads (checkReopenShift c shift)
  modify (updateShift shift reopenedShift)

end NexaPos
