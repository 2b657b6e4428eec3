import NexaPos.Registers.Services

/-!
# Saving expenses and changing their status

A cash expense counts against the drawer of a shift only when it is linked to that shift.  Both
services may change an expense of a shift that was closed before.  They then ask for the
permission to approve shifts, if the total of the drawer changes, and write the stored figures
of the shift again (`refreshClosedShiftSnapshots`).
-/

namespace NexaPos

open Tx

/-- A service of the point of sale, run on the books. -/
def onPos {α : Type} (m : Service α) : BooksService α := fun b =>
  (m.run b.pos).map fun r => (r.1, { b with pos := r.2 })

lemma runs_onPos {α : Type} {m : Service α} {b b' : Books} {a : α} :
    Runs (onPos m) b a b' ↔ Runs m b.pos a b'.pos ∧ b'.expenses = b.expenses := by
  unfold Runs
  change (m.run b.pos).map (fun r => (r.1, { b with pos := r.2 })) = .ok (a, b') ↔ _
  cases m.run b.pos with
  | error e => simp [Except.map]
  | ok r =>
    obtain ⟨x, s⟩ := r
    obtain ⟨pos, expenses⟩ := b'
    simp only [Except.map, Except.ok.injEq, Prod.mk.injEq, Books.mk.injEq]
    constructor
    · rintro ⟨rfl, rfl, rfl⟩
      exact ⟨⟨rfl, rfl⟩, rfl⟩
    · rintro ⟨⟨rfl, rfl⟩, rfl⟩
      exact ⟨rfl, rfl, rfl⟩

/-! ## Drawers -/

/-- `matching_open_drawer_shift`: the member's only open drawer at a branch. -/
def matchingOpenDrawerShift (c : Call) (s : State) (branch : ℕ) : Option ℕ :=
  let shifts := (s.tenant.shifts.zipIdx.map Prod.swap).filter fun x =>
    x.2.status = .opened && x.2.cashier = c.actor.user && x.2.branch = branch &&
    (s.tenant.branches[branch]?).any (fun b => b.usageType = .salesBranch && b.isActive) &&
    (s.tenant.registers[x.2.register]?).any CashRegister.isActive &&
    c.actor.canAccessBranch branch
  match shifts with
  | [x] => some x.1
  | _ => none

/-- A shift whose figures are stored. -/
def Shift.isClosed (x : Shift) : Bool := x.status = .closed || x.status = .approved

/-- `_drawer_cash_contribution`. -/
def drawerCashContribution (s : State) (shift : Option ℕ) (method : Option ℕ) (amount : ℚ)
    (status : ExpenseStatus) : ℚ :=
  if shift.isNone || !method.any (isCashMethod s) || status = .rejected ||
      status = .cancelled then 0 else amount

/-- The drawer of an expense and what the expense takes from it. -/
structure DrawerLink where
  shift : Option ℕ
  contribution : ℚ

/-- What the expense takes from the drawer of one shift. -/
def DrawerLink.at (l : DrawerLink) (shift : ℕ) : ℚ :=
  if l.shift = some shift then l.contribution else 0

/-- `_require_closed_shift_reconciliation_approval`. -/
def requireClosedShiftReconciliationApproval (c : Call) (s : State) (old new : DrawerLink) :
    Except PosError Unit :=
  if (old.shift.toList ++ new.shift.toList).any fun shift =>
      (s.tenant.shifts[shift]?).any Shift.isClosed && old.at shift ≠ new.at shift then
    requireActorAccess c .posCore "shifts.approve"
  else
    .ok ()

/-- The stored figures of a shift, computed again. -/
def refreshedShift (b : Books) (shift : ℕ) (row : Shift) : Shift :=
  if row.isClosed then
    let expected := (shiftTotals b shift row).expectedCash
    { row with
      expectedCash := expected
      difference := (row.actualCash.map fun actual => actual - expected).getD row.difference }
  else
    row

/-- `_refresh_closed_shift_snapshots`. -/
def refreshClosedShiftSnapshots (shifts : List ℕ) (b : Books) : Books :=
  shifts.foldl (fun b shift => { b with pos := updateShift shift (refreshedShift b shift) b.pos }) b

/-! ## Saving an expense -/

/-- The expense a form hands over; `id` is empty for a new one. -/
structure ExpenseInput where
  id : Option ℕ := none
  branch : Option ℕ
  amount : ℚ
  paymentMethod : Option ℕ
  status : ExpenseStatus := .approved
  createdBy : Option ℕ := none
  approvedBy : Option ℕ := none

/-- The arguments of `save_manual_expense`. -/
structure ExpenseRequest where
  expense : ExpenseInput
  requestedShift : Option ℕ := none
  drawerRequested : Bool := false
  historicalCorrection : Bool := false

/-- The shift the expense is linked to, before it is looked up. -/
def drawerShiftId (r : ExpenseRequest) (isCash : Bool) : Except PosError (Option ℕ) :=
  if !isCash then
    .ok none
  else if r.drawerRequested then
    match r.requestedShift with
    | none => .error (.invalidField "paid_from_drawer"
        "No matching open cash drawer is available for this branch.")
    | some shift => .ok (some shift)
  else
    .ok none

/-- The checks on the shift an expense is linked to. -/
def checkDrawerShift (c : Call) (r : ExpenseRequest) (branch : ℕ) (persisted : Option Expense)
    (shift : ℕ) (s : State) : Except PosError Unit := do
  let row ← found s.tenant.shifts[shift]?
    (.invalidField "shift" "Select a register shift from this business.")
  require (row.branch = branch)
    (.invalidField "shift" "The register shift must match the expense branch.")
  -- a historical correction may choose a shift of any status
  require (r.historicalCorrection || matchingOpenDrawerShift c s branch = some shift ||
      (persisted.any (fun x => x.shift = some shift) && row.isClosed))
    (.invalidField "paid_from_drawer" "Only your current open drawer can be used.")

/-- The checks on the drawer of an expense, when it has one. -/
def checkDrawer (c : Call) (r : ExpenseRequest) (branch : ℕ) (persisted : Option Expense)
    (shift : Option ℕ) (s : State) : Except PosError Unit :=
  match shift with
  | none => .ok ()
  | some id => checkDrawerShift c r branch persisted id s

/-- The access checks of `save_manual_expense`. -/
def requireExpenseWrite (c : Call) (r : ExpenseRequest) : Except PosError Unit := do
  requireActorAccess c .expenses "expenses.manage"
  if r.historicalCorrection then
    requireActorAccess c .expenses "expenses.approve"
    requireActorAccess c .posCore "shifts.approve"

/-- The expense a request edits, when it edits one. -/
def persistedExpense (r : ExpenseRequest) (b : Books) : Except PosError (Option Expense) :=
  match r.expense.id with
  | none => .ok none
  | some id => do
    let row ← found b.expenses[id]? (.validation "This expense is no longer available.")
    return some row

/-- The checks of `save_manual_expense`; the row that was there and the row to save. -/
def checkExpense (c : Call) (r : ExpenseRequest) (b : Books) :
    Except PosError (Option Expense × Expense) := do
  requireExpenseWrite c r
  let persisted ← persistedExpense r b
  let branchError := PosError.invalidField "branch" "Select a branch from this business."
  let branch ← found r.expense.branch branchError
  require (b.pos.tenant.branches[branch]?).isSome branchError
  require (c.actor.canAccessBranch branch)
    (.invalidField "branch" "You cannot use this expense branch.")
  require (r.expense.paymentMethod.all fun id => (b.pos.sales.paymentMethods[id]?).isSome)
    (.invalidField "payment_method" "Select a payment medium from this business.")
  require (persisted.isSome || r.expense.paymentMethod.isSome)
    (.invalidField "payment_method" "Payment Medium / Paid Via is required.")
  let shift ← drawerShiftId r (r.expense.paymentMethod.any (isCashMethod b.pos))
  checkDrawer c r branch persisted shift b.pos
  requireClosedShiftReconciliationApproval c b.pos
    { shift := persisted.bind Expense.shift
      contribution := (persisted.map fun x => drawerCashContribution b.pos x.shift
        x.paymentMethod (dec x.amount) x.status).getD 0 }
    { shift := shift
      contribution := drawerCashContribution b.pos shift r.expense.paymentMethod
        r.expense.amount r.expense.status }
  -- `full_clean`
  require (Stored r.expense.amount)
    (.invalidField "amount" "Ensure that there are no more than 3 decimal places.")
  return (persisted, {
    branch := branch
    amount := money r.expense.amount
    paymentMethod := r.expense.paymentMethod
    status := r.expense.status
    shift := shift
    createdBy := if persisted.isNone && r.expense.createdBy.isNone then some c.actor.user
      else r.expense.createdBy
    approvedBy := r.expense.approvedBy })

/-- `sorted({pk for pk in (old_shift_id, shift_id) if pk})`. -/
def lockedShiftIds (persisted : Option Expense) (row : Expense) : List ℕ :=
  ((persisted.bind Expense.shift).toList ++ row.shift.toList).dedup.mergeSort

/-- Save an expense row under its key, or as a new row. -/
def saveExpense (id : Option ℕ) (row : Expense) (b : Books) : Books :=
  match id with
  | none => { b with expenses := b.expenses ++ [row] }
  | some i => { b with expenses := b.expenses.modify i fun _ => row }

@[simp] lemma saveExpense_pos (id : Option ℕ) (row : Expense) (b : Books) :
    (saveExpense id row b).pos = b.pos := by
  cases id <;> rfl

/-- `save_manual_expense`. -/
def saveManualExpense (c : Call) (r : ExpenseRequest) : BooksService Unit := do
  let (persisted, row) ← reads (checkExpense c r)
  modify (saveExpense r.expense.id row)
  modify (refreshClosedShiftSnapshots (lockedShiftIds persisted row))

/-! ## The status of an expense -/

/-- The checks of `set_expense_status`; the row whose status changes. -/
def checkExpenseStatus (c : Call) (expense : ℕ) (status : ExpenseStatus) (b : Books) :
    Except PosError Expense := do
  requireActorAccess c .expenses "expenses.approve"
  let row ← found b.expenses[expense]? .notFound
  let contribution (status : ExpenseStatus) : ℚ :=
    drawerCashContribution b.pos row.shift row.paymentMethod (dec row.amount) status
  requireClosedShiftReconciliationApproval c b.pos
    { shift := row.shift, contribution := contribution row.status }
    { shift := row.shift, contribution := contribution status }
  return row

/-- The row `set_expense_status` saves. -/
def statusExpense (status : ExpenseStatus) (approvedBy : Option ℕ) (row : Expense) : Expense :=
  { row with status := status, approvedBy := approvedBy.orElse fun _ => row.approvedBy }

/-- `set_expense_status`. -/
def setExpenseStatus (c : Call) (expense : ℕ) (status : ExpenseStatus)
    (approvedBy : Option ℕ) : BooksService Unit := do
  let row ← reads (checkExpenseStatus c expense status)
  modify fun b => { b with
    expenses := b.expenses.modify expense (statusExpense status approvedBy) }
  modify (refreshClosedShiftSnapshots row.shift.toList)

end NexaPos
