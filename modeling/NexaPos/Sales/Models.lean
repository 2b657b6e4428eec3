import NexaPos.Core.Inputs

/-!
# Sales, their lines, payments and returns

Sale rows are snapshots: prices, taxes and costs are copied into the line when the sale is
completed and are not read from the catalogue again.  The check constraints that the proofs use
are fields of the row.
-/

namespace NexaPos

/-- `PaymentMethod.Kind`. -/
inductive PaymentKind
  | cash
  | card
  | bank
  | online
  | customerCredit
  | storeCredit
  | other
  deriving DecidableEq, Repr

structure PaymentMethod where
  kind : PaymentKind
  isActive : Bool := true
  deriving DecidableEq, Repr

/-- `Sale.Status`. -/
inductive SaleStatus
  | draft
  | completed
  | partiallyPaid
  | credit
  | voided
  | partiallyReturned
  | returned
  deriving DecidableEq, Repr

/-- `Sale.Priority`. -/
inductive Priority
  | normal
  | high
  | urgent
  deriving DecidableEq, Repr

/-- `Sale.DeliveryStatus`. -/
inductive DeliveryStatus
  | pending
  | inProduction
  | ready
  | delivered
  | cancelled
  deriving DecidableEq, Repr

structure Sale where
  branch : ℕ
  warehouse : ℕ
  register : Option ℕ
  shift : Option ℕ
  cashier : ℕ
  salesperson : Option ℕ
  customer : ℕ
  invoiceNumber : Text
  checkoutToken : Option Text
  status : SaleStatus
  priority : Priority
  saleDate : ℤ
  deliveryDate : Option ℤ
  deliveryStatus : Option DeliveryStatus
  subtotal : ℤ
  discountAmount : ℤ
  taxAmount : ℤ
  rounding : ℤ
  total : ℤ
  amountPaid : ℤ
  changeDue : ℤ
  totalCost : ℤ := 0
  grossProfit : ℤ := 0
  voidedAt : Option ℤ := none
  voidedBy : Option ℕ := none
  deriving DecidableEq, Repr

/-- `SaleItem.GarmentClassification`. -/
inductive GarmentClassification
  | adult
  | child
  deriving DecidableEq, Repr

/-- `SaleItem.CollectionType`. -/
inductive CollectionType
  | normal
  | premium
  deriving DecidableEq, Repr

/-- The keys of `TAILORING_FIELDS`. -/
inductive TailoringField
  | designType
  | darazDetails
  | vip3dDesign
  | computerDesign
  | customerNotes
  | workshopNotes
  deriving DecidableEq, Repr

structure SaleItem where
  sale : ℕ
  familyMember : Option ℕ
  product : ℕ
  variant : Option ℕ
  stockWarehouse : Option ℕ
  productName : String
  quantity : ℤ
  unitPrice : ℤ
  discountAmount : ℤ
  taxRate : ℤ
  taxAmount : ℤ
  lineTotal : ℤ
  unitCost : ℤ
  grossProfit : ℤ
  returnedQuantity : ℤ := 0
  garmentClassification : Option GarmentClassification
  collectionType : Option CollectionType
  estimatedFabric : Option ℤ
  actualFabricUsed : Option ℤ := none
  fabricMeterUsed : Option ℤ
  customerSuppliedFabric : Bool
  tailoringDetails : List (TailoringField × Text)
  /-- `saleitem_fabric_meter_positive`. -/
  meter_pos : ∀ m ∈ fabricMeterUsed, 0 < m
  /-- `saleitem_customer_fabric_no_meter`. -/
  customerFabric_noMeter : customerSuppliedFabric = true → fabricMeterUsed = none
  deriving DecidableEq

namespace SaleItem

/-- `SaleItem.has_tailoring_details`: stored values are stripped and never blank. -/
def hasTailoringDetails (i : SaleItem) : Bool :=
  i.garmentClassification.isSome || !i.tailoringDetails.isEmpty

/-- `SaleItem.is_tailoring_line`. -/
def isTailoringLine (i : SaleItem) : Bool :=
  i.customerSuppliedFabric || i.fabricMeterUsed.isSome || i.hasTailoringDetails ||
    i.estimatedFabric.isSome || i.actualFabricUsed.isSome || i.collectionType.isSome

/-- `SaleItem.inventory_quantity`: the stock this line represents. -/
def inventoryQuantity (i : SaleItem) : ℤ :=
  if i.customerSuppliedFabric then 0 else i.fabricMeterUsed.getD i.quantity

end SaleItem

structure SalePayment where
  sale : ℕ
  method : ℕ
  amount : ℤ
  paymentDate : ℤ
  receivedBy : ℕ
  shift : Option ℕ
  deriving DecidableEq, Repr

/-- `SaleReturn.RefundMethod`. -/
inductive RefundMethod
  | cash
  | card
  | bank
  | storeCredit
  | customerAccount
  deriving DecidableEq, Repr

structure SaleReturn where
  /-- The number of `RET-{n:06d}`. -/
  returnNumber : ℕ
  sale : ℕ
  customer : ℕ
  branch : ℕ
  warehouse : ℕ
  refundMethod : RefundMethod
  refundAmount : ℤ := 0
  restock : Bool
  processedBy : ℕ
  shift : Option ℕ
  deriving DecidableEq, Repr

structure SaleReturnItem where
  saleReturn : ℕ
  saleItem : ℕ
  quantity : ℤ
  refundPerUnit : ℤ
  lineRefund : ℤ
  restocked : Bool
  deriving DecidableEq, Repr

end NexaPos
