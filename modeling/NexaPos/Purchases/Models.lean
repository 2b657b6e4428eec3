import NexaPos.Core.Inputs

/-!
# Purchases, their lines, purchase returns and supplier payments
-/

namespace NexaPos

/-- `Purchase.Status`. -/
inductive PurchaseStatus
  | order
  | partiallyReceived
  | received
  | cancelled
  deriving DecidableEq, Repr

structure Purchase where
  purchaseNumber : ℕ
  supplier : ℕ
  branch : ℕ
  warehouse : ℕ
  status : PurchaseStatus := .order
  subtotal : ℤ
  discountAmount : ℤ
  shippingCost : ℤ
  otherCharges : ℤ
  total : ℤ
  amountPaid : ℤ := 0
  deriving DecidableEq, Repr

structure PurchaseItem where
  purchase : ℕ
  product : ℕ
  variant : Option ℕ
  productName : String
  quantityOrdered : ℤ
  quantityReceived : ℤ := 0
  unitCost : ℤ
  lineTotal : ℤ
  deriving DecidableEq, Repr

/-- `PurchaseItem.quantity_pending`. -/
def PurchaseItem.quantityPending (i : PurchaseItem) : ℤ := i.quantityOrdered - i.quantityReceived

structure PurchaseReturn where
  returnNumber : ℕ
  purchase : ℕ
  supplier : ℕ
  warehouse : ℕ
  total : ℤ
  processedBy : ℕ
  deriving DecidableEq, Repr

structure PurchaseReturnItem where
  purchaseReturn : ℕ
  purchaseItem : ℕ
  quantity : ℤ
  unitCost : ℤ
  lineTotal : ℤ
  deriving DecidableEq, Repr

/-- `SupplierPayment.Method`. -/
inductive SupplierPaymentMethod
  | cash
  | bank
  | card
  | cheque
  deriving DecidableEq, Repr

/-- `SupplierPayment.ChequeStatus`. -/
inductive ChequeStatus
  | pending
  | cleared
  | bounced
  | cancelled
  deriving DecidableEq, Repr

structure SupplierPayment where
  /-- The number of `SPY-{number:06d}`. -/
  paymentNumber : ℕ
  supplier : ℕ
  purchase : Option ℕ
  amount : ℤ
  paymentMethod : Option ℕ := none
  method : SupplierPaymentMethod
  chequeNumber : Text := []
  bankName : Text := []
  chequeIssueDate : Option ℤ := none
  dueDate : Option ℤ := none
  /-- `none` is the blank status of a payment that is no cheque. -/
  chequeStatus : Option ChequeStatus := none
  clearedAt : Option ℤ := none
  paidBy : ℕ
  deriving DecidableEq, Repr

end NexaPos
