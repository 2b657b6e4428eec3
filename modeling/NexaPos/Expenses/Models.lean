import NexaPos.Core.State

/-!
# Expenses

An expense paid in cash may be linked to the shift whose drawer the money came from.  The
expenses of a business stand beside the tables of the point of sale: the services of the sales
and stock modules never touch them, and `Books` is both together.
-/

namespace NexaPos

/-- `Expense.Status`. -/
inductive ExpenseStatus
  | draft
  | submitted
  | approved
  | rejected
  | paid
  | cancelled
  deriving DecidableEq, Repr

structure Expense where
  branch : ℕ
  amount : ℤ
  paymentMethod : Option ℕ := none
  status : ExpenseStatus := .approved
  /-- The drawer the cash came from. -/
  shift : Option ℕ := none
  createdBy : Option ℕ := none
  approvedBy : Option ℕ := none
  deriving DecidableEq, Repr

/-- The point of sale of a business and its expenses. -/
structure Books where
  pos : State := {}
  expenses : List Expense := []

/-- A service on the books. -/
abbrev BooksService (α : Type) := Tx Books PosError α

end NexaPos
