import NexaPos.System
import NexaPos.Expenses.Services

/-!
# Requests on the books

The requests of `NexaPos.System` together with the ones on shifts and expenses.  A shift row is
written here by the shift and expense services only, so the free saving of shifts among the
master data of `System` is left out.
-/

namespace NexaPos

open Tx

/-- The request saves a shift as master data. -/
def Op.savesShift : Op → Bool
  | saveMasterData (.shift _ _) => true
  | _ => false

/-- A request of the point of sale that writes no shift. -/
structure PosOp where
  op : Op
  noShift : op.savesShift = false

/-- One request. -/
inductive BooksOp
  | pos (op : PosOp)
  | openShift (c : Call) (register : ℕ) (openingCash : Cell)
  | closeShift (c : Call) (shift : ℕ) (actualCash : Cell)
  | approveShift (c : Call) (shift : ℕ)
  | reopenShift (c : Call) (shift : ℕ)
  | saveManualExpense (c : Call) (r : ExpenseRequest)
  | setExpenseStatus (c : Call) (expense : ℕ) (status : ExpenseStatus) (approvedBy : Option ℕ)

/-- The service a request runs. -/
def BooksOp.service : BooksOp → BooksService Unit
  | pos op => onPos op.op.service
  | openShift c register openingCash => onPos (NexaPos.openShift c register openingCash)
  | closeShift c shift actualCash => NexaPos.closeShift c shift actualCash
  | approveShift c shift => onPos (NexaPos.approveShift c shift)
  | reopenShift c shift => onPos (NexaPos.reopenShift c shift)
  | saveManualExpense c r => NexaPos.saveManualExpense c r
  | setExpenseStatus c expense status approvedBy =>
    NexaPos.setExpenseStatus c expense status approvedBy

namespace Books

/-- One request on the books. -/
def step (b : Books) (op : BooksOp) : Books := commit op.service b

/-- The books after a sequence of requests. -/
def run (b : Books) (ops : List BooksOp) : Books := Trace.run step b ops

/-- The books of a business after a sequence of requests. -/
def history (ops : List BooksOp) : Books := run {} ops

end Books

/-- A request that is accepted. -/
def BooksOp.Accepted (op : BooksOp) (b : Books) : Prop := (op.service.run b).isOk = true

instance decidableBooksAccepted (op : BooksOp) (b : Books) : Decidable (op.Accepted b) :=
  inferInstanceAs (Decidable (_ = true))

lemma BooksOp.Accepted.runs {op : BooksOp} {b : Books} (h : op.Accepted b) :
    Runs op.service b ⟨⟩ (b.step op) := by
  obtain ⟨⟨⟩, hrun⟩ := runs_commit h
  exact hrun

lemma Books.step_of_not_accepted {op : BooksOp} {b : Books} (h : ¬ op.Accepted b) :
    b.step op = b := by
  unfold BooksOp.Accepted at h
  cases hrun : op.service.run b with
  | error e => exact commit_of_error hrun
  | ok r =>
    rw [hrun] at h
    exact absurd rfl h

/-! ## What a request does -/

/-- Everything an accepted request can do. -/
inductive BooksStep (b b' : Books) : BooksOp → Prop
  | pos {op : PosOp} (haccepted : op.op.Accepted b.pos) (hpos : b'.pos = NexaPos.step b.pos op.op)
      (hexpenses : b'.expenses = b.expenses) : BooksStep b b' (.pos op)
  | opened {c : Call} {register : ℕ} {openingCash : Cell} {row : Shift}
      (hcheck : checkOpenShift c register openingCash b.pos = .ok row)
      (h : b' = { b with pos.tenant.shifts := b.pos.tenant.shifts ++ [row] }) :
      BooksStep b b' (.openShift c register openingCash)
  | closed {c : Call} {shift : ℕ} {actualCash : Cell} {row : Shift} {actual : ℚ}
      (hcheck : checkCloseShift c shift actualCash b = .ok (row, actual))
      (h : b' = { b with
        pos := updateShift shift (closedShift c (shiftTotals b shift row).expectedCash actual)
          b.pos }) :
      BooksStep b b' (.closeShift c shift actualCash)
  | approved {c : Call} {shift : ℕ} (hcheck : checkApproveShift c shift b.pos = .ok ())
      (h : b' = { b with pos := updateShift shift (approvedShift c) b.pos }) :
      BooksStep b b' (.approveShift c shift)
  | reopened {c : Call} {shift : ℕ} {row : Shift} (hcheck : checkReopenShift c shift b.pos = .ok row)
      (h : b' = { b with pos := updateShift shift reopenedShift b.pos }) :
      BooksStep b b' (.reopenShift c shift)
  | saved {c : Call} {r : ExpenseRequest} {persisted : Option Expense} {row : Expense}
      (hcheck : checkExpense c r b = .ok (persisted, row))
      (h : b' = refreshClosedShiftSnapshots (lockedShiftIds persisted row)
        (saveExpense r.expense.id row b)) :
      BooksStep b b' (.saveManualExpense c r)
  | status {c : Call} {expense : ℕ} {status : ExpenseStatus} {approvedBy : Option ℕ} {row : Expense}
      (hcheck : checkExpenseStatus c expense status b = .ok row)
      (h : b' = refreshClosedShiftSnapshots row.shift.toList { b with
        expenses := b.expenses.modify expense (statusExpense status approvedBy) }) :
      BooksStep b b' (.setExpenseStatus c expense status approvedBy)

theorem booksStep {b : Books} {op : BooksOp} (haccepted : op.Accepted b) :
    BooksStep b (b.step op) op := by
  have hrun := haccepted.runs
  generalize b.step op = b' at hrun ⊢
  have hbooks : ∀ s, b'.pos = s → b'.expenses = b.expenses → b' = { b with pos := s } := by
    rintro s rfl hexpenses
    rw [← hexpenses]
  cases op with
  | pos op =>
    obtain ⟨hrun, hexpenses⟩ := runs_onPos.mp hrun
    refine .pos ?_ (commit_of_runs hrun).symm hexpenses
    unfold Runs at hrun
    rw [Op.Accepted, hrun]
    rfl
  | openShift c register openingCash =>
    obtain ⟨hrun, hexpenses⟩ := runs_onPos.mp hrun
    unfold openShift at hrun
    simp only [runs_bind, runs_reads, runs_modify] at hrun
    obtain ⟨row, _, ⟨hcheck, rfl⟩, hpos⟩ := hrun
    exact .opened hcheck (hbooks _ hpos hexpenses)
  | closeShift c shift actualCash =>
    change Runs (closeShift c shift actualCash) b _ _ at hrun
    unfold closeShift at hrun
    simp only [runs_bind, runs_reads, runs_get, runs_modify] at hrun
    obtain ⟨⟨row, actual⟩, _, ⟨hcheck, rfl⟩, _, _, ⟨rfl, rfl⟩, h⟩ := hrun
    exact .closed hcheck h
  | approveShift c shift =>
    obtain ⟨hrun, hexpenses⟩ := runs_onPos.mp hrun
    unfold approveShift at hrun
    simp only [runs_bind, runs_reads, runs_modify] at hrun
    obtain ⟨_, _, ⟨hcheck, rfl⟩, hpos⟩ := hrun
    exact .approved hcheck (hbooks _ hpos hexpenses)
  | reopenShift c shift =>
    obtain ⟨hrun, hexpenses⟩ := runs_onPos.mp hrun
    unfold reopenShift at hrun
    simp only [runs_bind, runs_reads, runs_modify] at hrun
    obtain ⟨row, _, ⟨hcheck, rfl⟩, hpos⟩ := hrun
    exact .reopened hcheck (hbooks _ hpos hexpenses)
  | saveManualExpense c r =>
    change Runs (saveManualExpense c r) b _ _ at hrun
    unfold saveManualExpense at hrun
    simp only [runs_bind, runs_reads, runs_modify] at hrun
    obtain ⟨⟨persisted, row⟩, _, ⟨hcheck, rfl⟩, _, _, rfl, h⟩ := hrun
    exact .saved hcheck h
  | setExpenseStatus c expense status approvedBy =>
    change Runs (setExpenseStatus c expense status approvedBy) b _ _ at hrun
    unfold setExpenseStatus at hrun
    simp only [runs_bind, runs_reads, runs_modify] at hrun
    obtain ⟨row, _, ⟨hcheck, rfl⟩, _, _, rfl, h⟩ := hrun
    exact .status hcheck h

/-- Whoever passes the checks closes the shift. -/
lemma accepted_closeShift {c : Call} {shift : ℕ} {actualCash : Cell} {b : Books}
    {r : Shift × ℚ} (h : checkCloseShift c shift actualCash b = .ok r) :
    (BooksOp.closeShift c shift actualCash).Accepted b := by
  have hrun : Runs (BooksOp.closeShift c shift actualCash).service b ⟨⟩
      { b with
        pos := updateShift shift (closedShift c (shiftTotals b shift r.1).expectedCash r.2)
          b.pos } := by
    change Runs (closeShift c shift actualCash) b _ _
    unfold closeShift
    simp only [runs_bind, runs_reads, runs_get, runs_modify]
    exact ⟨r, b, ⟨h, rfl⟩, b, b, ⟨rfl, rfl⟩, rfl⟩
  unfold Runs at hrun
  rw [BooksOp.Accepted, hrun]
  rfl

/-- Whoever passes the checks reopens the shift. -/
lemma accepted_reopenShift {c : Call} {shift : ℕ} {b : Books} {row : Shift}
    (h : checkReopenShift c shift b.pos = .ok row) : (BooksOp.reopenShift c shift).Accepted b := by
  have hrun : Runs (BooksOp.reopenShift c shift).service b ⟨⟩
      { b with pos := updateShift shift reopenedShift b.pos } := by
    refine runs_onPos.mpr ⟨?_, rfl⟩
    unfold reopenShift
    simp only [runs_bind, runs_reads, runs_modify]
    exact ⟨row, _, ⟨h, rfl⟩, rfl⟩
  unfold Runs at hrun
  rw [BooksOp.Accepted, hrun]
  rfl

/-- A request of the point of sale is accepted on the books when it is. -/
lemma accepted_pos {op : PosOp} {b : Books} (h : op.op.Accepted b.pos) :
    (BooksOp.pos op).Accepted b := by
  have hrun : Runs (BooksOp.pos op).service b ⟨⟩
      { b with pos := NexaPos.step b.pos op.op } := runs_onPos.mpr ⟨h.runs, rfl⟩
  unfold Runs at hrun
  rw [BooksOp.Accepted, hrun]
  rfl

/-! ## Shifts -/

/-- A request of the point of sale leaves every shift alone. -/
lemma PosOp.shifts_eq (op : PosOp) (s : State) :
    (NexaPos.step s op.op).tenant.shifts = s.tenant.shifts := by
  obtain ⟨op, hno⟩ := op
  have hframe : (∀ comp ∈ op.footprint, comp ≠ .tenant) →
      (NexaPos.step s op).tenant.shifts = s.tenant.shifts := by
    intro hop
    refine step_within (R := Frame fun s => s.tenant.shifts) op ?_ s
    intro comp hcomp s t hchange
    exact congrArg Tenant.shifts (hchange.kept.tenant (hop comp hcomp))
  cases op with
  | saveMasterData m =>
    cases m with
    | shift id row => exact nomatch hno
    | _ => rfl
  | _ => exact hframe (by simp [Op.footprint])

lemma checkOpenShift_ok {c : Call} {register : ℕ} {openingCash : Cell} {s : State} {row : Shift}
    (h : checkOpenShift c register openingCash s = .ok row) :
    row.register = register ∧ row.cashier = c.actor.user ∧ row.status = .opened ∧
      hasOpenShift s (fun x => x.register = register) = false ∧
      hasOpenShift s (fun x => x.cashier = c.actor.user) = false := by
  unfold checkOpenShift at h
  simp only [except_bind_eq_ok, require_eq_ok, pure, Except.pure, Except.ok.injEq,
    Bool.not_eq_true'] at h
  obtain ⟨-, -, -, -, -, hregister, -, hcashier, -, -, rfl⟩ := h
  exact ⟨rfl, rfl, rfl, hregister, hcashier⟩

lemma lockedShiftForWrite_ok {c : Call} {permission : String} {shift : ℕ} {s : State} {row : Shift}
    (h : lockedShiftForWrite c permission shift s = .ok row) :
    c.actor.allows .posCore permission = true ∧ s.tenant.shifts[shift]? = some row := by
  unfold lockedShiftForWrite at h
  simp only [except_bind_eq_ok, found_eq_ok, pure, Except.pure, Except.ok.injEq] at h
  obtain ⟨_, haccess, row', hrow, -, -, rfl⟩ := h
  refine ⟨?_, hrow⟩
  unfold requireActorAccess at haccess
  by_contra hdenied
  rw [if_neg hdenied] at haccess
  cases haccess

lemma checkCloseShift_ok {c : Call} {shift : ℕ} {actualCash : Cell} {b : Books} {row : Shift}
    {actual : ℚ} (h : checkCloseShift c shift actualCash b = .ok (row, actual)) :
    b.pos.tenant.shifts[shift]? = some row ∧ row.status = .opened ∧
      cashDecimal actualCash "actual cash amount" = .ok actual := by
  unfold checkCloseShift at h
  simp only [except_bind_eq_ok, require_eq_ok, pure, Except.pure, Except.ok.injEq, Prod.mk.injEq,
    decide_eq_true_eq] at h
  obtain ⟨row', hrow, -, -, -, hopen, actual', hactual, rfl, rfl⟩ := h
  exact ⟨(lockedShiftForWrite_ok hrow).2, hopen, hactual⟩

lemma checkApproveShift_ok {c : Call} {shift : ℕ} {s : State} {u : Unit}
    (h : checkApproveShift c shift s = .ok u) :
    ∃ row, s.tenant.shifts[shift]? = some row ∧ row.status = .closed := by
  unfold checkApproveShift at h
  simp only [except_bind_eq_ok, require_eq_ok, decide_eq_true_eq] at h
  obtain ⟨row, hrow, hclosed⟩ := h
  exact ⟨row, (lockedShiftForWrite_ok hrow).2, hclosed⟩

lemma checkReopenShift_ok {c : Call} {shift : ℕ} {s : State} {row : Shift}
    (h : checkReopenShift c shift s = .ok row) :
    c.actor.allows .posCore "shifts.reopen" = true ∧ s.tenant.shifts[shift]? = some row ∧
      row.status ≠ .opened ∧ hasOpenShift s (fun x => x.register = row.register) = false := by
  unfold checkReopenShift at h
  simp only [except_bind_eq_ok, require_eq_ok, pure, Except.pure, Except.ok.injEq,
    Bool.not_eq_true'] at h
  obtain ⟨row', hrow, -, hstatus, -, -, -, hfree, rfl⟩ := h
  obtain ⟨hallowed, hrow⟩ := lockedShiftForWrite_ok hrow
  refine ⟨hallowed, hrow, ?_, hfree⟩
  intro hopen
  simp [hopen] at hstatus

/-- A refresh of stored figures: the shift stays the one it was, in its status. -/
lemma refreshedShift_kept (b : Books) (shift : ℕ) (row : Shift) :
    (refreshedShift b shift row).status = row.status ∧
      (refreshedShift b shift row).register = row.register ∧
      (refreshedShift b shift row).cashier = row.cashier ∧
      (refreshedShift b shift row).openingCash = row.openingCash ∧
      (refreshedShift b shift row).actualCash = row.actualCash := by
  unfold refreshedShift
  split <;> exact ⟨rfl, rfl, rfl, rfl, rfl⟩

end NexaPos
