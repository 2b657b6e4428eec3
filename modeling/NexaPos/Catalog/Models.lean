import NexaPos.Core.Inputs

/-!
# The catalogue: products and variants

The rows a product refers to are carried with it where the services read them through the
product: its unit as the `is_meter` flag of the unit row, its tax rate as the rate and the
active flag of the tax row.
-/

namespace NexaPos

/-- `Product.Type`. -/
inductive ProductType
  | standard
  | variant
  | service
  | nonStock
  deriving DecidableEq, Repr

structure TaxRate where
  /-- Percent, in thousandths. -/
  rate : ℤ
  isActive : Bool := true
  deriving DecidableEq, Repr

structure Product where
  name : String
  sku : Text := []
  barcode : Text := []
  /-- `unit.is_meter`; `none` when the product has no unit. -/
  unitIsMeter : Option Bool := none
  productType : ProductType := .standard
  purchasePrice : ℤ := 0
  salePrice : ℤ := 0
  minimumSalePrice : ℤ := 0
  averageCost : ℤ := 0
  taxRate : Option TaxRate := none
  /-- Empty: follow the business setting. -/
  priceIncludesTax : Option Bool := none
  reorderLevel : ℤ := 0
  trackInventory : Bool := true
  allowDiscount : Bool := true
  isTailoringItem : Bool := false
  estimatedAdultFabric : Option ℤ := none
  estimatedChildFabric : Option ℤ := none
  isActive : Bool := true
  isArchived : Bool := false
  deriving DecidableEq, Repr

structure ProductVariant where
  product : ℕ
  name : String
  sku : Text := []
  barcode : Text := []
  purchasePrice : ℤ := 0
  salePrice : ℤ := 0
  averageCost : ℤ := 0
  isActive : Bool := true
  deriving DecidableEq, Repr

namespace Product

/-- `Product.has_variants`. -/
def hasVariants (p : Product) : Bool := p.productType == .variant

/-- `Product.is_stocked`. -/
def isStocked (p : Product) : Bool :=
  p.trackInventory && (p.productType == .standard || p.productType == .variant)

/-- `Product.is_meter_tailoring`. -/
def isMeterTailoring (p : Product) : Bool :=
  p.isTailoringItem && p.unitIsMeter == some true

/-- `Product.is_legacy_tailoring`. -/
def isLegacyTailoring (p : Product) : Bool :=
  p.isTailoringItem && p.unitIsMeter == none

/-- `Product.effective_tax_rate()`. -/
def effectiveTaxRate (p : Product) : ℤ :=
  match p.taxRate with
  | some r => if r.isActive then r.rate else 0
  | none => 0

end Product

/-- `str(variant or product)`. -/
def displayName (p : Product) (v : Option ProductVariant) : String :=
  match v with
  | some v => s!"{p.name} — {v.name}"
  | none => p.name

end NexaPos
