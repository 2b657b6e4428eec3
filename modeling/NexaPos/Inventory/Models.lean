import NexaPos.Core.Inputs
import Mathlib.Data.List.AList

/-!
# Stock levels, the movement ledger and the inventory documents

Stock is a cached quantity per warehouse, product and variant, with a movement row for every
change.  The levels are a finite map on `StockKey`: the two unique constraints of the table (one
for rows with a variant, one for rows without) are its key uniqueness.

A document number such as `TRF-000012` is stored as the number behind its prefix.
-/

namespace NexaPos

/-! ## The ledger -/

/-- What a stock level is kept for. -/
structure StockKey where
  warehouse : ℕ
  product : ℕ
  variant : Option ℕ
  deriving DecidableEq, Repr

/-- `StockLevel` rows: the cached quantity of every key that has one. -/
abbrev StockLevels := AList fun _ : StockKey => ℤ

/-- `StockMovement.Type`. -/
inductive MovementType
  | opening
  | purchase
  | sale
  | saleReturn
  | purchaseReturn
  | transferOut
  | transferIn
  | adjustIn
  | adjustOut
  | damage
  | wastage
  | internal
  | count
  deriving DecidableEq, Repr

/-- `reference_type` and `reference_id` of a movement. -/
inductive Reference
  | sale (invoiceNumber : Text)
  | void (invoiceNumber : Text)
  | saleReturn (number : ℕ)
  | purchase (number : ℕ)
  | purchaseReturn (number : ℕ)
  | transfer (number : ℕ)
  | transferCancel (number : ℕ)
  | adjustment (number : ℕ)
  | stockCount (number : ℕ)
  | importRow
  | opening
  deriving DecidableEq, Repr

/-- `reference_type`. -/
inductive ReferenceType
  | sale
  | void
  | saleReturn
  | purchase
  | purchaseReturn
  | transfer
  | transferCancel
  | adjustment
  | stockCount
  | importRow
  | opening
  deriving DecidableEq, Repr

/-- The type column of a reference. -/
def Reference.type : Reference → ReferenceType
  | .sale _ => .sale
  | .void _ => .void
  | .saleReturn _ => .saleReturn
  | .purchase _ => .purchase
  | .purchaseReturn _ => .purchaseReturn
  | .transfer _ => .transfer
  | .transferCancel _ => .transferCancel
  | .adjustment _ => .adjustment
  | .stockCount _ => .stockCount
  | .importRow => .importRow
  | .opening => .opening

/-- A ledger entry.  A positive quantity is stock in. -/
structure StockMovement where
  key : StockKey
  movementType : MovementType
  quantity : ℤ
  unitCost : ℤ
  balanceAfter : ℤ
  reference : Reference
  user : ℕ
  /-- The sale line the movement was written for.  This is a history variable: the table has no
  such column and no operation reads it. -/
  saleItem : Option ℕ := none
  deriving DecidableEq, Repr

/-! ## Transfers -/

/-- `StockTransfer.Status`. -/
inductive TransferStatus
  | draft
  | approved
  | dispatched
  | received
  | rejected
  | cancelled
  deriving DecidableEq, Repr

structure StockTransfer where
  transferNumber : ℕ
  fromWarehouse : ℕ
  toWarehouse : ℕ
  status : TransferStatus
  requestedBy : ℕ
  dispatchedBy : Option ℕ := none
  receivedBy : Option ℕ := none
  deriving DecidableEq, Repr

structure StockTransferItem where
  transfer : ℕ
  product : ℕ
  variant : Option ℕ
  quantity : ℤ
  unitCost : ℤ
  deriving DecidableEq, Repr

/-! ## Adjustments -/

/-- `StockAdjustment.Reason`. -/
inductive AdjustmentReason
  | damage
  | expiry
  | loss
  | theft
  | wastage
  | internal
  | sample
  | count
  | data
  | other
  deriving DecidableEq, Repr

/-- `StockAdjustment.Status`. -/
inductive AdjustmentStatus
  | pending
  | approved
  | rejected
  deriving DecidableEq, Repr

structure StockAdjustment where
  adjustmentNumber : ℕ
  warehouse : ℕ
  reason : AdjustmentReason
  status : AdjustmentStatus
  createdBy : ℕ
  approvedBy : Option ℕ := none
  deriving DecidableEq, Repr

structure StockAdjustmentItem where
  adjustment : ℕ
  product : ℕ
  variant : Option ℕ
  previousQuantity : ℤ
  change : ℤ
  deriving DecidableEq, Repr

/-! ## Counts -/

/-- `StockCount.Status`. -/
inductive CountStatus
  | opened
  | review
  | approved
  | cancelled
  deriving DecidableEq, Repr

structure StockCount where
  countNumber : ℕ
  warehouse : ℕ
  status : CountStatus := .opened
  createdBy : ℕ
  approvedBy : Option ℕ := none
  deriving DecidableEq, Repr

structure StockCountItem where
  count : ℕ
  product : ℕ
  variant : Option ℕ
  expectedQuantity : ℤ
  countedQuantity : Option ℤ := none
  deriving DecidableEq, Repr

end NexaPos
