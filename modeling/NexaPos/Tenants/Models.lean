import NexaPos.Core.Inputs

/-!
# Settings, locations, registers and shifts

One business is modelled: every row belongs to it, and a primary key is the position of the row
in its table.  The tenant filters of the source (`for_business`, `business=business`) become the
lookup of a key that may be absent.
-/

namespace NexaPos

/-- `BusinessSettings.NegativeStock`. -/
inductive NegativeStock
  | block
  | warn
  | allow
  deriving DecidableEq, Repr

/-- `BusinessSettings.price_rounding`. -/
inductive PriceRounding
  | none
  | nearest
  deriving DecidableEq, Repr

/-- `BusinessSettings`, with the `currency_precision` of the business itself. -/
structure BusinessSettings where
  vatEnabled : Bool := false
  /-- Percent, in thousandths. -/
  vatPercentage : ℤ := 0
  pricesIncludeTax : Bool := false
  invoicePrefix : Text := ['I', 'N', 'V']
  invoiceIncludeBranchCode : Bool := false
  negativeStockPolicy : NegativeStock := .block
  sharedFabricWarehouse : Option ℕ := Option.none
  allowSaleWithoutShift : Bool := false
  /-- Percent, in hundredths. -/
  maxDiscountPercent : ℤ := 10000
  requireCustomerForCredit : Bool := true
  /-- In days; 0 is unlimited. -/
  returnWindowDays : ℕ := 0
  priceRounding : PriceRounding := .nearest
  currencyPrecision : ℤ := 2
  deriving DecidableEq, Repr

/-- `Branch.UsageType`. -/
inductive UsageType
  | salesBranch
  | workshopStock
  deriving DecidableEq, Repr

structure Branch where
  name : Text
  code : Text
  usageType : UsageType := .salesBranch
  invoicePrefix : Text := []
  isActive : Bool := true
  deriving DecidableEq, Repr

structure Warehouse where
  name : Text
  code : Text
  /-- Empty for a central warehouse. -/
  branch : Option ℕ := Option.none
  isActive : Bool := true
  deriving DecidableEq, Repr

structure CashRegister where
  branch : ℕ
  isActive : Bool := true
  deriving DecidableEq, Repr

/-- `Shift.Status`. -/
inductive ShiftStatus
  | opened
  | closed
  | approved
  deriving DecidableEq, Repr

structure Shift where
  register : ℕ
  branch : ℕ
  cashier : ℕ
  status : ShiftStatus := .opened
  openedAt : ℤ := 0
  openingCash : ℤ := 0
  closedAt : Option ℤ := none
  expectedCash : ℤ := 0
  /-- What was counted in the drawer when the shift was closed. -/
  actualCash : Option ℤ := none
  difference : ℤ := 0
  approvedBy : Option ℕ := none
  reopenedCount : ℕ := 0
  deriving DecidableEq, Repr

end NexaPos
