import Mathlib.Data.List.Sort
import Mathlib.Tactic.Common

/-!
# Components of a backup

The components that a backup is made of, with the models each holds, the product it belongs to,
where it stands in the order of export and of import, and what a restore does with it.
-/

namespace NexaPos.Backups

inductive ProductOwner
  | shared
  | pos
  | wms
  deriving DecidableEq, Repr

inductive BackupScope
  | pos
  | wms
  | allEnabled
  deriving DecidableEq, Repr

inductive RestoreBehavior
  | replaceable
  | referenceOnly
  | dependencyOnly
  | nonRestorable
  deriving DecidableEq, Repr

inductive ComponentKey
  | sharedTenantIdentity
  | sharedLocations
  | sharedTenantSettings
  | sharedAccessControl
  | sharedSubscriptionControl
  | sharedAuditEvidence
  | sharedNotifications
  | posCatalog
  | posCustomers
  | posSuppliers
  | posInventory
  | posPurchases
  | posRegisters
  | posSales
  | posTransientSales
  | posExpenses
  | wmsCore
  | wmsWorkforce
  | wmsAttendance
  | wmsProduction
  | wmsOrders
  | wmsAlterations
  | wmsSalary
  deriving DecidableEq, Repr

/-- The models of the tenant, and `user`, which is global. -/
inductive ModelLabel
  | user
  | business
  | branch
  | warehouse
  | businessSettings
  | role
  | membership
  | subscription
  | subscriptionPayment
  | auditLog
  | supportAccessGrant
  | backupRecord
  | backupSchedule
  | restoreOperation
  | tenantOperationLock
  | backupActivity
  | downloadGrant
  | backupComponent
  | notification
  | category
  | brand
  | unit
  | taxRate
  | product
  | productVariant
  | customerGroup
  | customer
  | customerFamilyMember
  | customerPayment
  | supplier
  | supplierPayment
  | stockLevel
  | stockMovement
  | stockTransfer
  | stockTransferItem
  | stockAdjustment
  | stockAdjustmentItem
  | stockCount
  | stockCountItem
  | purchase
  | purchaseItem
  | purchaseReturn
  | purchaseReturnItem
  | cashRegister
  | shift
  | paymentMethod
  | invoiceSequence
  | sale
  | saleItem
  | salePayment
  | saleReturn
  | saleReturnItem
  | heldSale
  | expenseCategory
  | recurringExpenseTemplate
  | expense
  | wmsLocation
  | wmsSettings
  | wmsRole
  | wmsUserAccess
  | wmsEmployee
  | wmsProductionCategory
  | wmsEmployeeCategoryAssignment
  | wmsAttendance
  | wmsProductionEntry
  | wmsProductionEntryLine
  | wmsWorkshopOrder
  | wmsWorkshopOrderStatusHistory
  | wmsAlteration
  | wmsSalary
  | wmsSalaryLocationSnapshot
  | wmsSalaryDay
  | wmsSalaryPieceLine
  deriving DecidableEq, Repr

/-- `ComponentDefinition`. -/
structure ComponentDefinition where
  key : ComponentKey
  productOwner : ProductOwner
  includedModelLabels : List ModelLabel
  requiredComponentKeys : List ComponentKey := []
  exportOrder : ℕ := 100
  importOrder : ℕ := 100
  restoreBehavior : RestoreBehavior := .replaceable
  scopeEligibility : List BackupScope := [.pos, .wms, .allEnabled]
  deriving DecidableEq, Repr

def sharedScopes : List BackupScope := [.pos, .wms, .allEnabled]

def posScopes : List BackupScope := [.pos, .allEnabled]

def wmsScopes : List BackupScope := [.wms, .allEnabled]

/-- `_DEFINITIONS`. -/
def componentDefinitions : List ComponentDefinition := [
  { key := .sharedTenantIdentity, productOwner := .shared
    includedModelLabels := [.business]
    exportOrder := 10, importOrder := 10
    restoreBehavior := .referenceOnly, scopeEligibility := sharedScopes },
  { key := .sharedLocations, productOwner := .shared
    includedModelLabels := [.branch, .warehouse]
    requiredComponentKeys := [.sharedTenantIdentity]
    exportOrder := 20, importOrder := 20
    restoreBehavior := .dependencyOnly, scopeEligibility := sharedScopes },
  { key := .sharedTenantSettings, productOwner := .shared
    includedModelLabels := [.businessSettings]
    requiredComponentKeys := [.sharedTenantIdentity, .sharedLocations]
    exportOrder := 30, importOrder := 30
    restoreBehavior := .dependencyOnly, scopeEligibility := sharedScopes },
  { key := .sharedAccessControl, productOwner := .shared
    includedModelLabels := [.role, .membership]
    requiredComponentKeys := [.sharedTenantIdentity, .sharedLocations]
    exportOrder := 40, importOrder := 40
    restoreBehavior := .referenceOnly, scopeEligibility := sharedScopes },
  { key := .sharedSubscriptionControl, productOwner := .shared
    includedModelLabels := [.subscription, .subscriptionPayment]
    restoreBehavior := .nonRestorable, scopeEligibility := [] },
  { key := .sharedAuditEvidence, productOwner := .shared
    includedModelLabels := [.auditLog, .supportAccessGrant, .backupRecord, .backupSchedule,
      .restoreOperation, .tenantOperationLock, .backupActivity, .downloadGrant, .backupComponent]
    restoreBehavior := .nonRestorable, scopeEligibility := [] },
  { key := .sharedNotifications, productOwner := .shared
    includedModelLabels := [.notification]
    restoreBehavior := .nonRestorable, scopeEligibility := [] },
  { key := .posCatalog, productOwner := .pos
    includedModelLabels := [.category, .brand, .unit, .taxRate, .product, .productVariant]
    requiredComponentKeys := [.sharedTenantIdentity]
    exportOrder := 100, importOrder := 100, scopeEligibility := posScopes },
  { key := .posCustomers, productOwner := .pos
    includedModelLabels := [.customerGroup, .customer, .customerFamilyMember, .customerPayment]
    requiredComponentKeys := [.sharedTenantIdentity, .sharedLocations]
    exportOrder := 110, importOrder := 110, scopeEligibility := posScopes },
  { key := .posSuppliers, productOwner := .pos
    includedModelLabels := [.supplier, .supplierPayment]
    requiredComponentKeys := [.sharedTenantIdentity]
    exportOrder := 120, importOrder := 120, scopeEligibility := posScopes },
  { key := .posInventory, productOwner := .pos
    includedModelLabels := [.stockLevel, .stockMovement, .stockTransfer, .stockTransferItem,
      .stockAdjustment, .stockAdjustmentItem, .stockCount, .stockCountItem]
    requiredComponentKeys := [.sharedLocations, .posCatalog]
    exportOrder := 130, importOrder := 130, scopeEligibility := posScopes },
  { key := .posPurchases, productOwner := .pos
    includedModelLabels := [.purchase, .purchaseItem, .purchaseReturn, .purchaseReturnItem]
    requiredComponentKeys := [.posCatalog, .posInventory, .posSuppliers]
    exportOrder := 140, importOrder := 140, scopeEligibility := posScopes },
  { key := .posRegisters, productOwner := .pos
    includedModelLabels := [.cashRegister, .shift]
    requiredComponentKeys := [.sharedLocations]
    exportOrder := 150, importOrder := 150, scopeEligibility := posScopes },
  { key := .posSales, productOwner := .pos
    includedModelLabels := [.paymentMethod, .invoiceSequence, .sale, .saleItem, .salePayment,
      .saleReturn, .saleReturnItem]
    requiredComponentKeys := [.sharedLocations, .posCatalog, .posCustomers, .posInventory,
      .posRegisters]
    exportOrder := 160, importOrder := 160, scopeEligibility := posScopes },
  { key := .posTransientSales, productOwner := .pos
    includedModelLabels := [.heldSale]
    restoreBehavior := .nonRestorable, scopeEligibility := [] },
  { key := .posExpenses, productOwner := .pos
    includedModelLabels := [.expenseCategory, .recurringExpenseTemplate, .expense]
    requiredComponentKeys := [.sharedLocations]
    exportOrder := 170, importOrder := 170, scopeEligibility := posScopes },
  { key := .wmsCore, productOwner := .wms
    includedModelLabels := [.wmsLocation, .wmsSettings, .wmsRole, .wmsUserAccess]
    requiredComponentKeys := [.sharedAccessControl, .sharedLocations]
    exportOrder := 200, importOrder := 200, scopeEligibility := wmsScopes },
  { key := .wmsWorkforce, productOwner := .wms
    includedModelLabels := [.wmsEmployee, .wmsProductionCategory, .wmsEmployeeCategoryAssignment]
    requiredComponentKeys := [.wmsCore]
    exportOrder := 210, importOrder := 210, scopeEligibility := wmsScopes },
  { key := .wmsAttendance, productOwner := .wms
    includedModelLabels := [.wmsAttendance]
    requiredComponentKeys := [.wmsWorkforce]
    exportOrder := 220, importOrder := 220, scopeEligibility := wmsScopes },
  { key := .wmsProduction, productOwner := .wms
    includedModelLabels := [.wmsProductionEntry, .wmsProductionEntryLine]
    requiredComponentKeys := [.wmsWorkforce, .wmsOrders]
    exportOrder := 240, importOrder := 240, scopeEligibility := wmsScopes },
  { key := .wmsOrders, productOwner := .wms
    includedModelLabels := [.wmsWorkshopOrder, .wmsWorkshopOrderStatusHistory]
    requiredComponentKeys := [.wmsCore, .wmsWorkforce]
    exportOrder := 230, importOrder := 230, scopeEligibility := wmsScopes },
  { key := .wmsAlterations, productOwner := .wms
    includedModelLabels := [.wmsAlteration]
    requiredComponentKeys := [.wmsOrders]
    exportOrder := 250, importOrder := 250, scopeEligibility := wmsScopes },
  { key := .wmsSalary, productOwner := .wms
    includedModelLabels := [.wmsSalary, .wmsSalaryLocationSnapshot, .wmsSalaryDay,
      .wmsSalaryPieceLine]
    requiredComponentKeys := [.wmsWorkforce, .wmsAttendance, .wmsProduction]
    exportOrder := 260, importOrder := 260, scopeEligibility := wmsScopes } ]

/-- The definition of a component. -/
def componentDefinition (key : ComponentKey) : Option ComponentDefinition :=
  componentDefinitions.find? fun d => d.key == key

inductive ScopeError
  | notEnabled
  | noProduct
  deriving DecidableEq, Repr

/-- `ComponentRegistry.resolve`: the eligible components of the selected products, in the order of
export. -/
def resolveComponents (scope : BackupScope) (enabled : List ProductOwner) :
    Except ScopeError (List ComponentDefinition) := do
  let selected ← match scope with
    | .pos => if enabled.contains .pos then pure [ProductOwner.pos] else throw .notEnabled
    | .wms => if enabled.contains .wms then pure [ProductOwner.wms] else throw .notEnabled
    | .allEnabled => if enabled.isEmpty then throw .noProduct else pure enabled
  pure ((componentDefinitions.filter fun d =>
    d.scopeEligibility.contains scope &&
      (d.productOwner == .shared || selected.contains d.productOwner)).insertionSort
        fun a b => a.exportOrder ≤ b.exportOrder)

/-- A restore replaces the rows of the component. -/
def replaceable (key : ComponentKey) : Bool :=
  (componentDefinition key).any fun d => d.restoreBehavior == .replaceable

end NexaPos.Backups
