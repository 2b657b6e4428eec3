import NexaPos.Core.Access
import NexaPos.Lib.Numbering
import NexaPos.Lib.Tables
import NexaPos.Tenants.Models
import NexaPos.Catalog.Models
import NexaPos.Customers.Models
import NexaPos.Inventory.Models
import NexaPos.Sales.Models
import NexaPos.Purchases.Models

/-!
# The database of one business

The tables are grouped by the application that writes them, so that a service which leaves a
whole group alone says so in one equation.  A row's primary key is its position; tables only
grow, except that a row can be rewritten in place.

`Service` is the type of the services: they run in one database transaction on this state.
-/

namespace NexaPos

/-- Settings, locations, registers and shifts. -/
structure Tenant where
  settings : BusinessSettings := {}
  branches : List Branch := []
  warehouses : List Warehouse := []
  registers : List CashRegister := []
  shifts : List Shift := []

structure Catalog where
  products : List Product := []
  variants : List ProductVariant := []

/-- Customers, suppliers and the collections from customers. -/
structure Parties where
  customers : List Customer := []
  familyMembers : List CustomerFamilyMember := []
  customerPayments : List CustomerPayment := []
  suppliers : List Supplier := []

/-- The cached quantities and the ledger behind them. -/
structure Stock where
  levels : StockLevels := ∅
  /-- In creation order. -/
  movements : List StockMovement := []

/-- Transfers, adjustments and counts. -/
structure Documents where
  transfers : List StockTransfer := []
  transferItems : List StockTransferItem := []
  adjustments : List StockAdjustment := []
  adjustmentItems : List StockAdjustmentItem := []
  counts : List StockCount := []
  countItems : List StockCountItem := []

/-- `InvoiceSequence.last_number` per scope; `none` is the business-wide counter.  Only the rows
of the lifetime counter are kept. -/
abbrev InvoiceSequences := AList fun _ : Option ℕ => ℕ

structure SalesTables where
  paymentMethods : List PaymentMethod := []
  sequences : InvoiceSequences := ∅
  sales : List Sale := []
  items : List SaleItem := []
  payments : List SalePayment := []
  returns : List SaleReturn := []
  returnItems : List SaleReturnItem := []

structure PurchaseTables where
  purchases : List Purchase := []
  items : List PurchaseItem := []
  returns : List PurchaseReturn := []
  returnItems : List PurchaseReturnItem := []
  payments : List SupplierPayment := []

structure State where
  tenant : Tenant := {}
  catalog : Catalog := {}
  parties : Parties := {}
  stock : Stock := {}
  documents : Documents := {}
  sales : SalesTables := {}
  purchases : PurchaseTables := {}

/-- A business nothing has been recorded for. -/
def State.empty : State := {}

/-- A service: a transaction that returns or raises. -/
abbrev Service (α : Type) := Tx State PosError α

/-- `_next_number`: the first number from `count + 1` on that no row uses. -/
def nextNumber (used : List ℕ) : ℕ := Numbering.next used

end NexaPos
