import NexaPos.Inventory.Import
import NexaPos.Sales.Services
import NexaPos.Purchases.Services

/-!
# The application as a state machine

An operation is one request: a service call with its caller and arguments, or a change of master
data.  A request runs in one database transaction, so a step is the `commit` of the service:
either everything it wrote, or nothing when it raised.

`history ops` is the database after any sequence of requests on an empty business.  Master data
is saved without the checks that its own forms make: whatever those forms would refuse is still
one of the histories considered here, so nothing proved about all histories depends on them.
-/

namespace NexaPos

open Tx

/-! ## Master data -/

/-- Save a row under a key, or append it as a new row. -/
def saveRow {α : Type} (id : Option ℕ) (new : α) (change : α → α) (rows : List α) : List α :=
  match id with
  | none => rows ++ [new]
  | some i => rows.modify i change

/-- A change of the data the services read: `none` creates a row, `some` edits it. -/
inductive MasterData
  | settings (row : BusinessSettings)
  | branch (id : Option ℕ) (row : Branch)
  | warehouse (id : Option ℕ) (row : Warehouse)
  | register (id : Option ℕ) (row : CashRegister)
  | shift (id : Option ℕ) (row : Shift)
  | product (id : Option ℕ) (row : Product)
  | variant (id : Option ℕ) (row : ProductVariant)
  | customer (id : Option ℕ) (row : Customer)
  | familyMember (id : Option ℕ) (row : CustomerFamilyMember)
  | supplier (id : Option ℕ) (row : Supplier)
  | paymentMethod (id : Option ℕ) (row : PaymentMethod)

/-- The customer form: a new account starts at its opening balance, and an edit changes neither
of the two account amounts. -/
def saveCustomer (id : Option ℕ) (row : Customer) (p : Parties) : Parties :=
  { p with
    customers := saveRow id { row with balance := row.openingBalance, storeCredit := 0 }
      (fun old => { old with
        homeBranch := row.homeBranch, creditLimit := row.creditLimit, isActive := row.isActive })
      p.customers }

/-- The product form; the average cost belongs to the stock ledger. -/
def saveProduct (id : Option ℕ) (row : Product) (c : Catalog) : Catalog :=
  { c with
    products := saveRow id { row with averageCost := 0 }
      (fun old => { row with averageCost := old.averageCost }) c.products }

/-- The variant form; a variant stays with its product. -/
def saveVariant (id : Option ℕ) (row : ProductVariant) (c : Catalog) : Catalog :=
  { c with
    variants := saveRow id { row with averageCost := 0 }
      (fun old => { row with averageCost := old.averageCost, product := old.product })
      c.variants }

/-- Save a piece of master data. -/
def MasterData.save (m : MasterData) (s : State) : State :=
  match m with
  | settings row => { s with tenant.settings := row }
  | branch id row =>
    { s with tenant.branches := saveRow id row (fun _ => row) s.tenant.branches }
  | warehouse id row =>
    { s with tenant.warehouses := saveRow id row (fun _ => row) s.tenant.warehouses }
  | register id row =>
    { s with tenant.registers := saveRow id row (fun _ => row) s.tenant.registers }
  | shift id row => { s with tenant.shifts := saveRow id row (fun _ => row) s.tenant.shifts }
  | product id row => { s with catalog := saveProduct id row s.catalog }
  | variant id row => { s with catalog := saveVariant id row s.catalog }
  | customer id row => { s with parties := saveCustomer id row s.parties }
  | familyMember id row =>
    { s with parties.familyMembers := saveRow id row (fun _ => row) s.parties.familyMembers }
  | supplier id row =>
    { s with parties.suppliers :=
        saveRow id row (fun old => { old with isActive := row.isActive }) s.parties.suppliers }
  | paymentMethod id row =>
    -- the kind of a method is fixed when it is created
    { s with sales.paymentMethods :=
        saveRow id row (fun old => { old with isActive := row.isActive }) s.sales.paymentMethods }

/-! ## Requests -/

/-- One request. -/
inductive Op
  | saveMasterData (m : MasterData)
  | completeSale (c : Call) (r : CheckoutRequest)
  | addSalePayment (c : Call) (r : SalePaymentRequest)
  | voidSale (c : Call) (sale : ℕ)
  | processReturn (c : Call) (r : ReturnRequest)
  | recordCustomerPayment (c : Call) (r : CollectionRequest)
  | createPurchase (c : Call) (r : PurchaseRequest)
  | receivePurchase (c : Call) (purchase : ℕ) (quantities : List (ℕ × ℚ))
  | returnPurchase (c : Call) (purchase : ℕ) (quantities : List (ℕ × ℚ))
  | createTransfer (c : Call) (fromWarehouse toWarehouse : ℕ) (rows : List InventoryRow)
  | dispatchTransfer (c : Call) (transfer : ℕ)
  | receiveTransfer (c : Call) (transfer : ℕ)
  | cancelTransfer (c : Call) (transfer : ℕ)
  | createAdjustment (c : Call) (warehouse : ℕ) (reason : AdjustmentReason)
      (rows : List InventoryRow) (requiresApproval : Bool)
  | approveAdjustment (c : Call) (adjustment : ℕ)
  | rejectAdjustment (c : Call) (adjustment : ℕ)
  | startCount (c : Call) (warehouse : ℕ)
  | saveCounted (c : Call) (item : ℕ) (counted : ℚ)
  | approveCount (c : Call) (count : ℕ)
  | ensureBranchOpeningStock (c : Call) (k : StockKey) (quantity unitCost : ℚ)
  | setOpeningStock (c : Call) (k : StockKey) (quantity unitCost : ℚ)
  | importInventory (c : Call) (ctx : ImportContext) (rows : List ImportRow)

/-- Run a service for its effect. -/
def discard {α : Type} (m : Service α) : Service Unit := do
  let _ ← m
  return ()

/-- The service a request runs. -/
def Op.service : Op → Service Unit
  | saveMasterData m => modify m.save
  | completeSale c r => discard (NexaPos.completeSale c r)
  | addSalePayment c r => NexaPos.addSalePayment c r
  | voidSale c sale => NexaPos.voidSale c sale
  | processReturn c r => NexaPos.processReturn c r
  | recordCustomerPayment c r => NexaPos.recordCustomerPayment c r
  | createPurchase c r => NexaPos.createPurchase c r
  | receivePurchase c purchase quantities => NexaPos.receivePurchase c purchase quantities
  | returnPurchase c purchase quantities => NexaPos.returnPurchase c purchase quantities
  | createTransfer c a b rows => NexaPos.createTransfer c a b rows
  | dispatchTransfer c transfer => NexaPos.dispatchTransfer c transfer
  | receiveTransfer c transfer => NexaPos.receiveTransfer c transfer
  | cancelTransfer c transfer => NexaPos.cancelTransfer c transfer
  | createAdjustment c warehouse reason rows approval =>
    NexaPos.createAdjustment c warehouse reason rows approval
  | approveAdjustment c adjustment => NexaPos.approveAdjustment c adjustment
  | rejectAdjustment c adjustment => NexaPos.rejectAdjustment c adjustment
  | startCount c warehouse => NexaPos.startCount c warehouse
  | saveCounted c item counted => NexaPos.saveCounted c item counted
  | approveCount c count => NexaPos.approveCount c count
  | ensureBranchOpeningStock c k quantity unitCost =>
    NexaPos.ensureBranchOpeningStock c k quantity unitCost
  | setOpeningStock c k quantity unitCost => NexaPos.setOpeningStock c k quantity unitCost
  | importInventory c ctx rows => discard (NexaPos.importInventory c ctx rows)

/-- One request on the database. -/
def step (s : State) (op : Op) : State := commit op.service s

/-- The database after a sequence of requests. -/
def run (s : State) (ops : List Op) : State := Trace.run step s ops

/-- The database of a business after a sequence of requests. -/
def history (ops : List Op) : State := run State.empty ops

lemma history_append (ops ops' : List Op) :
    history (ops ++ ops') = run (history ops) ops' := Trace.run_append ops ops'

/-- A request that raises. -/
def Op.Raises (op : Op) (s : State) : Prop := ∃ e, op.service.run s = .error e

/-- A request that raises leaves the database as it was. -/
lemma step_of_raises {op : Op} {s : State} (h : op.Raises s) : step s op = s := by
  obtain ⟨e, he⟩ := h
  exact commit_of_error he

/-- A request that is accepted. -/
def Op.Accepted (op : Op) (s : State) : Prop := (op.service.run s).isOk = true

instance (op : Op) (s : State) : Decidable (op.Accepted s) :=
  inferInstanceAs (Decidable (_ = true))

lemma Op.Accepted.runs {op : Op} {s : State} (h : op.Accepted s) :
    Runs op.service s ⟨⟩ (step s op) := by
  obtain ⟨⟨⟩, hrun⟩ := runs_commit h
  exact hrun

lemma step_of_not_accepted {op : Op} {s : State} (h : ¬ op.Accepted s) : step s op = s := by
  refine step_of_raises ?_
  unfold Op.Accepted at h
  cases hrun : op.service.run s with
  | error e => exact ⟨e, hrun⟩
  | ok u =>
    rw [hrun] at h
    exact absurd rfl h

lemma runs_discard {α : Type} {m : Service α} {s t : State} {x : Unit} :
    Runs (discard m) s x t ↔ ∃ a, Runs m s a t := by
  unfold discard
  simp only [runs_bind, runs_pure]
  constructor
  · rintro ⟨a, u, h, -, rfl⟩
    exact ⟨a, h⟩
  · rintro ⟨a, h⟩
    exact ⟨a, t, h, trivial, rfl⟩

lemma within_discard {R : State → State → Prop} [IsPreorder State R] {α : Type} {m : Service α}
    (h : Within R m) : Within R (discard m) :=
  within_bind h fun _ => within_pure

/-- A call that adds a sale row completes a new sale. -/
lemma saleMade_of_new {c : Call} {r : CheckoutRequest} {s : State} {sale : Sale}
    (h : (step s (.completeSale c r)).sales.sales[s.sales.sales.length]? = some sale) :
    ∃ p number items, SaleMade c r s (step s (.completeSale c r)) s.sales.sales.length p number
      items := by
  have hgrew : step s (.completeSale c r) ≠ s := by
    intro hsame
    rw [hsame, List.getElem?_eq_none le_rfl] at h
    exact nomatch h
  rcases commit_cases (Op.completeSale c r).service s with hsame | ⟨x, hrun⟩
  · exact absurd hsame hgrew
  · obtain ⟨id, hrun⟩ := runs_discard.mp hrun
    rcases runs_completeSale hrun with hreplayed | ⟨p, number, items, hmade⟩
    · exact absurd hreplayed.unchanged hgrew
    · obtain rfl := hmade.id_eq
      exact ⟨p, number, items, hmade⟩

/-! ## Footprints -/

/-- The parts of the database that requests write. -/
inductive Component
  | tenant
  | catalog
  | parties
  /-- A customer's account. -/
  | accounts
  | collections
  | suppliers
  | transfers
  | adjustments
  | counts
  | sales
  | paymentMethods
  | purchases
  /-- Opening an empty level row. -/
  | levels
  /-- Recording a movement with the given reference type. -/
  | movements (type : ReferenceType)

/-- One write to a component. -/
def Component.Change : Component → State → State → Prop
  | tenant, s, t => ∃ x, t = { s with tenant := x }
  | catalog, s, t => ∃ x, t = { s with catalog := x }
  | parties, s, t => ∃ x, t = { s with parties := x }
  | accounts, s, t => ∃ customer f, t = updateCustomer customer f s
  | collections, s, t => ∃ x, t = { s with parties.customerPayments := x }
  | suppliers, s, t => ∃ x, t = { s with parties.suppliers := x }
  | transfers, s, t =>
    ∃ x y, t = { s with documents.transfers := x, documents.transferItems := y }
  | adjustments, s, t =>
    ∃ x y, t = { s with documents.adjustments := x, documents.adjustmentItems := y }
  | counts, s, t => ∃ x y, t = { s with documents.counts := x, documents.countItems := y }
  | sales, s, t => ∃ x, t = { s with sales := x }
  | paymentMethods, s, t => ∃ x, t = { s with sales.paymentMethods := x }
  | purchases, s, t => ∃ x, t = { s with purchases := x }
  | levels, s, t => ∃ k, s.stock.levels.lookup k = none ∧
      t = { s with stock.levels := s.stock.levels.insert k 0 }
  | movements type, s, t => ∃ m u, m.reference.type = type ∧ Runs (recordMovement m) s u t

/-- The component a piece of master data is saved in. -/
def MasterData.component : MasterData → Component
  | settings _ => .tenant
  | branch _ _ => .tenant
  | warehouse _ _ => .tenant
  | register _ _ => .tenant
  | shift _ _ => .tenant
  | product _ _ => .catalog
  | variant _ _ => .catalog
  | customer _ _ => .parties
  | familyMember _ _ => .parties
  | supplier _ _ => .suppliers
  | paymentMethod _ _ => .paymentMethods

/-- The components a request can write. -/
def Op.footprint : Op → List Component
  | saveMasterData m => [m.component]
  | completeSale _ _ => [.movements .sale, .sales, .accounts]
  | addSalePayment _ _ => [.sales, .accounts]
  | voidSale _ _ => [.movements .void, .sales, .accounts]
  | processReturn _ _ => [.movements .saleReturn, .sales, .accounts]
  | recordCustomerPayment _ _ => [.collections, .accounts]
  | createPurchase _ _ => [.purchases]
  | receivePurchase _ _ _ => [.movements .purchase, .catalog, .purchases, .suppliers]
  | returnPurchase _ _ _ => [.movements .purchaseReturn, .purchases, .suppliers]
  | createTransfer _ _ _ _ => [.transfers]
  | dispatchTransfer _ _ => [.movements .transfer, .transfers]
  | receiveTransfer _ _ => [.movements .transfer, .transfers]
  | cancelTransfer _ _ => [.movements .transferCancel, .transfers]
  | createAdjustment _ _ _ _ _ => [.movements .adjustment, .adjustments]
  | approveAdjustment _ _ => [.movements .adjustment, .adjustments]
  | rejectAdjustment _ _ => [.adjustments]
  | startCount _ _ => [.counts]
  | saveCounted _ _ _ => [.counts]
  | approveCount _ _ => [.movements .stockCount, .counts]
  | ensureBranchOpeningStock _ _ _ _ => [.movements .opening, .levels]
  | setOpeningStock _ _ _ _ => [.movements .opening]
  | importInventory _ _ _ => [.movements .importRow, .catalog]

lemma MasterData.change_save (m : MasterData) (s : State) : m.component.Change s (m.save s) := by
  cases m <;> exact ⟨_, rfl⟩

section Footprint

variable {R : State → State → Prop} [IsPreorder State R]

/-- The relation respects every write of the given components. -/
def Respects (R : State → State → Prop) (components : List Component) : Prop :=
  ∀ comp ∈ components, ∀ s t, comp.Change s t → R s t

omit [IsPreorder State R] in
lemma Respects.movement {components : List Component} (h : Respects R components)
    {type : ReferenceType} (hmem : .movements type ∈ components) {m : Movement}
    (hm : m.reference.type = type) : Within R (recordMovement m) :=
  fun s u t hrun => h _ hmem s t ⟨m, u, hm, hrun⟩

/-- A relation that respects the writes of a request's footprint holds along the request. -/
theorem Op.within_service (op : Op) (h : Respects R op.footprint) : Within R op.service := by
  cases op with
  | saveMasterData m =>
    exact within_modify fun s => h _ (List.mem_singleton.mpr rfl) _ _ (m.change_save s)
  | completeSale c r =>
    exact within_discard (within_completeSale (fun m => h.movement (by simp [footprint]))
      (fun s x => h .sales (by simp [footprint]) _ _ ⟨x, rfl⟩)
      (fun s x f => h .accounts (by simp [footprint]) _ _ ⟨x, f, rfl⟩) c r)
  | addSalePayment c r =>
    exact within_addSalePayment (fun s x => h .sales (by simp [footprint]) _ _ ⟨x, rfl⟩)
      (fun s x f => h .accounts (by simp [footprint]) _ _ ⟨x, f, rfl⟩) c r
  | voidSale c sale =>
    exact within_voidSale (fun m => h.movement (by simp [footprint]))
      (fun s x => h .sales (by simp [footprint]) _ _ ⟨x, rfl⟩)
      (fun s x f => h .accounts (by simp [footprint]) _ _ ⟨x, f, rfl⟩) c sale
  | processReturn c r =>
    exact within_processReturn (fun m => h.movement (by simp [footprint]))
      (fun s x => h .sales (by simp [footprint]) _ _ ⟨x, rfl⟩)
      (fun s x f => h .accounts (by simp [footprint]) _ _ ⟨x, f, rfl⟩) c r
  | recordCustomerPayment c r =>
    exact within_recordCustomerPayment
      (fun s x f => h .accounts (by simp [footprint]) _ _ ⟨x, f, rfl⟩)
      (fun s x => h .collections (by simp [footprint]) _ _ ⟨x, rfl⟩) c r
  | createPurchase c r =>
    exact within_createPurchase (fun s x => h .purchases (by simp [footprint]) _ _ ⟨x, rfl⟩) c r
  | receivePurchase c purchase quantities =>
    exact within_receivePurchase (fun m _ => h.movement (by simp [footprint]))
      (fun s item => setPurchasePrice_within
        (fun s x => h .catalog (by simp [footprint]) _ _ ⟨x, rfl⟩) item s)
      (fun s x => h .purchases (by simp [footprint]) _ _ ⟨x, rfl⟩)
      (fun s x => h .suppliers (by simp [footprint]) _ _ ⟨x, rfl⟩) c purchase quantities
  | returnPurchase c purchase quantities =>
    exact within_returnPurchase (fun m _ => h.movement (by simp [footprint]))
      (fun s x => h .purchases (by simp [footprint]) _ _ ⟨x, rfl⟩)
      (fun s x => h .suppliers (by simp [footprint]) _ _ ⟨x, rfl⟩) c purchase quantities
  | createTransfer c a b rows =>
    exact within_createTransfer
      (fun s x y => h .transfers (by simp [footprint]) _ _ ⟨x, y, rfl⟩) c a b rows
  | dispatchTransfer c transfer =>
    exact within_dispatchTransfer
      (fun s x y => h .transfers (by simp [footprint]) _ _ ⟨x, y, rfl⟩)
      (fun m => h.movement (by simp [footprint])) c transfer
  | receiveTransfer c transfer =>
    exact within_receiveTransfer
      (fun s x y => h .transfers (by simp [footprint]) _ _ ⟨x, y, rfl⟩)
      (fun m => h.movement (by simp [footprint])) c transfer
  | cancelTransfer c transfer =>
    exact within_cancelTransfer
      (fun s x y => h .transfers (by simp [footprint]) _ _ ⟨x, y, rfl⟩)
      (fun m => h.movement (by simp [footprint])) c transfer
  | createAdjustment c warehouse reason rows approval =>
    exact within_createAdjustment
      (fun s x y => h .adjustments (by simp [footprint]) _ _ ⟨x, y, rfl⟩)
      (fun m => h.movement (by simp [footprint])) c warehouse reason rows approval
  | approveAdjustment c adjustment =>
    exact within_approveAdjustment
      (fun s x y => h .adjustments (by simp [footprint]) _ _ ⟨x, y, rfl⟩)
      (fun m => h.movement (by simp [footprint])) c adjustment
  | rejectAdjustment c adjustment =>
    exact within_rejectAdjustment
      (fun s x y => h .adjustments (by simp [footprint]) _ _ ⟨x, y, rfl⟩) c adjustment
  | startCount c warehouse =>
    exact within_startCount
      (fun s x y => h .counts (by simp [footprint]) _ _ ⟨x, y, rfl⟩) c warehouse
  | saveCounted c item counted =>
    exact within_saveCounted
      (fun s x y => h .counts (by simp [footprint]) _ _ ⟨x, y, rfl⟩) c item counted
  | approveCount c count =>
    exact within_approveCount (fun s x y => h .counts (by simp [footprint]) _ _ ⟨x, y, rfl⟩)
      (fun m => h.movement (by simp [footprint])) c count
  | ensureBranchOpeningStock c k quantity unitCost =>
    exact within_ensureBranchOpeningStock (fun m _ => h.movement (by simp [footprint]))
      (fun s k hk => h .levels (by simp [footprint]) _ _ ⟨k, hk, rfl⟩) c k quantity unitCost
  | setOpeningStock c k quantity unitCost =>
    exact within_setOpeningStock (fun m _ => h.movement (by simp [footprint])) c k quantity unitCost
  | importInventory c ctx rows =>
    exact within_discard (within_importInventory (fun m _ => h.movement (by simp [footprint]))
      (fun s _ _ => h .catalog (by simp [footprint]) _ _ ⟨_, rfl⟩) c rows)

/-- A step stays within a relation that respects the request's footprint. -/
lemma step_within (op : Op) (h : Respects R op.footprint) (s : State) : R s (step s op) :=
  within_commit (op.within_service h) s

end Footprint

/-- What a write to another component leaves alone. -/
structure Component.Kept (comp : Component) (s t : State) : Prop where
  stock : comp ≠ .levels → (∀ type, comp ≠ .movements type) → t.stock = s.stock
  sales : comp ≠ .sales → comp ≠ .paymentMethods → t.sales = s.sales
  tenant : comp ≠ .tenant → t.tenant = s.tenant
  purchases : comp ≠ .purchases → t.purchases = s.purchases
  suppliers : comp ≠ .suppliers → comp ≠ .parties → t.parties.suppliers = s.parties.suppliers

lemma Component.Change.kept {comp : Component} {s t : State} (h : comp.Change s t) :
    comp.Kept s t := by
  cases comp with
  | movements type =>
    obtain ⟨m, u, -, hrun⟩ := h
    have hrest := within_rest_recordMovement m hrun
    exact ⟨fun _ hmoves => absurd rfl (hmoves type), fun _ _ => sales_of_rest hrest,
      fun _ => congrArg Prod.fst hrest, fun _ => purchases_of_rest hrest,
      fun _ _ => congrArg Parties.suppliers (parties_of_rest hrest)⟩
  | transfers => obtain ⟨x, y, rfl⟩ := h; constructor <;> simp
  | adjustments => obtain ⟨x, y, rfl⟩ := h; constructor <;> simp
  | counts => obtain ⟨x, y, rfl⟩ := h; constructor <;> simp
  | accounts => obtain ⟨x, f, rfl⟩ := h; constructor <;> simp [updateCustomer]
  | levels => obtain ⟨k, -, rfl⟩ := h; constructor <;> simp
  | _ => obtain ⟨x, rfl⟩ := h; constructor <;> simp

/-! ## What a request does to the sales tables -/

/-- Everything a request can do to the sales tables. -/
inductive SalesStep (s t : State) : Op → Prop
  | same {op : Op} (h : t.sales = s.sales) : SalesStep s t op
  | method {id : Option ℕ} {row : PaymentMethod}
      (h : t = (MasterData.paymentMethod id row).save s) :
      SalesStep s t (.saveMasterData (.paymentMethod id row))
  | made {c : Call} {r : CheckoutRequest} {id : ℕ} {p : PreparedSale} {number : Text}
      {items : List SaleItem} (h : SaleMade c r s t id p number items) :
      SalesStep s t (.completeSale c r)
  | paid {c : Call} {r : SalePaymentRequest} (h : Runs (addSalePayment c r) s ⟨⟩ t) :
      SalesStep s t (.addSalePayment c r)
  | voided {c : Call} {id : ℕ} (h : Runs (voidSale c id) s ⟨⟩ t) : SalesStep s t (.voidSale c id)
  | returned {c : Call} {r : ReturnRequest} (h : Runs (processReturn c r) s ⟨⟩ t) :
      SalesStep s t (.processReturn c r)

theorem salesStep (s : State) (op : Op) : SalesStep s (step s op) op := by
  have hframe : (∀ comp ∈ op.footprint, comp ≠ .sales ∧ comp ≠ .paymentMethods) →
      SalesStep s (step s op) op := by
    intro hop
    refine .same (step_within (R := Frame fun s => s.sales) op ?_ s)
    intro comp hcomp s t hchange
    exact hchange.kept.sales (hop comp hcomp).1 (hop comp hcomp).2
  by_cases haccepted : op.Accepted s
  · have hrun := haccepted.runs
    cases op with
    | completeSale c r =>
      obtain ⟨id, hrun⟩ := runs_discard.mp hrun
      rcases runs_completeSale hrun with hreplayed | ⟨p, number, items, hmade⟩
      · refine .same ?_
        rw [hreplayed.unchanged]
      · exact .made hmade
    | addSalePayment c r => exact .paid hrun
    | voidSale c id => exact .voided hrun
    | processReturn c r => exact .returned hrun
    | saveMasterData m =>
      cases m with
      | paymentMethod id row => exact .method rfl
      | _ => exact .same rfl
    | _ => exact hframe (by simp [Op.footprint])
  · refine .same ?_
    rw [step_of_not_accepted haccepted]

/-! ## A shop

A small business in which the concrete runs of the following modules take place. -/

namespace Shop

/-- A member every guard lets through. -/
def manager : Actor where
  user := 1
  allows _ _ := true
  hasPerm _ := true
  hasModule _ := true
  allowedBranchIds := none
  allowedWarehouseIds := none

def call : Call where
  actor := manager
  now := 0
  today := 0
  isMember _ := true
  operational := true
  withinInvoiceLimit := true

/-- One branch with a store and a back room, a till with an open shift, a customer, and the
payment methods cash (0), card (1), on account (2) and store credit (3). -/
def setup : List Op := [
  .saveMasterData (.branch none { name := ['S'], code := ['S'] }),
  .saveMasterData (.warehouse none { name := ['A'], code := ['A'], branch := some 0 }),
  .saveMasterData (.warehouse none { name := ['B'], code := ['B'], branch := some 0 }),
  .saveMasterData (.register none { branch := 0 }),
  .saveMasterData (.shift none { register := 0, branch := 0, cashier := 1 }),
  .saveMasterData (.customer none { homeBranch := some 0 }),
  .saveMasterData (.paymentMethod none { kind := .cash }),
  .saveMasterData (.paymentMethod none { kind := .card }),
  .saveMasterData (.paymentMethod none { kind := .customerCredit }),
  .saveMasterData (.paymentMethod none { kind := .storeCredit })]

/-- The shop with one product at the given price, ten of it in the store. -/
def stocked (price : ℤ) : List Op := setup ++ [
  .saveMasterData (.product none { name := "item", salePrice := price }),
  .ensureBranchOpeningStock call ⟨0, 0, none⟩ 10 1]

/-- Some of the product. -/
def cart (quantity : ℚ) (payments : List PaymentInput) : CheckoutRequest where
  branch := 0
  warehouse := 0
  customer := 0
  register := some 0
  shift := some 0
  items := [{ product := 0, quantity := quantity }]
  payments := payments

/-- Sell some of the product. -/
def sell (quantity : ℚ) (payments : List PaymentInput) : Op :=
  .completeSale call (cart quantity payments)

end Shop

end NexaPos
