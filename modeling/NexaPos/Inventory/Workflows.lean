import NexaPos.Inventory.Services

/-!
# Transfers, adjustments and counts

The three documents of the inventory application.  Each is created with its lines, and later
moved through its states; a transition that changes stock writes one movement per line through
`recordMovement` before the document's status is rewritten, all in one transaction.

Every transition begins with the same guard, `openDocument`: access, the document and its lines
under lock, and the extra permission that tailoring products need.
-/

namespace NexaPos

open Tx

/-! ## Guards -/

/-- `require_inventory_write`. -/
def requireInventoryWrite (c : Call) (permission : String) (warehouses : List ℕ) :
    Except PosError Unit := do
  requireActorAccess c .inventory permission
  require (warehouses.all c.actor.canAccessWarehouse) .scopeDenied

/-- `_validate_warehouse`. -/
def validateWarehouse (s : State) (warehouse : ℕ) : Except PosError Unit :=
  require ((s.tenant.warehouses[warehouse]?).any Warehouse.isActive)
    (.validation "Inventory warehouse must be active and belong to this business.")

/-- The product is tailoring-owned. -/
def isTailoringProduct (s : State) (product : ℕ) : Bool :=
  (s.catalog.products[product]?).any Product.isTailoringItem

/-- `_require_tailoring_inventory_write`. -/
def requireTailoringInventoryWrite (c : Call) (s : State) (products : List ℕ)
    (permission : String) : Except PosError Unit :=
  if products.any (isTailoringProduct s) then
    requireActorAccess c .tailoring permission
  else
    .ok ()

/-- One requested row of a transfer or an adjustment. -/
structure InventoryRow where
  product : ℕ
  variant : Option ℕ
  quantity : ℚ

/-- One row of `_lock_inventory_rows`. -/
def lockInventoryRow (s : State) (allowParentMeterRepair : Bool) (row : InventoryRow) :
    Except PosError Product := do
  let product ← found s.catalog.products[row.product]?
    (.validation "Invalid product for this business.")
  let _ ← variantOf s row.product row.variant
    (.validation "Invalid product variant for this business.")
  require (!isMeterVariantParent product row.variant || allowParentMeterRepair)
    (.validation s!"Select a variant/color for {product.name}.")
  return product

/-- `_lock_inventory_rows`. -/
def lockInventoryRows (s : State) (allowParentMeterRepair : Bool) (rows : List InventoryRow) :
    Except PosError Unit := do
  require (!rows.isEmpty) (.validation "Enter at least one inventory item.")
  rows.forM fun row => do
    let _ ← lockInventoryRow s allowParentMeterRepair row
    return ()

/-- `D(target.average_cost) or D(target.purchase_price)` of a stock key's target. -/
def costOf (s : State) (product : ℕ) (variant : Option ℕ) : ℤ :=
  let cost := match variant with
    | some v => s.catalog.variants[v]?.map fun x => (x.averageCost, x.purchasePrice)
    | none => s.catalog.products[product]?.map fun x => (x.averageCost, x.purchasePrice)
  match cost with
  | some (average, purchase) => if average = 0 then purchase else average
  | none => 0

/-! ## Transfers -/

/-- The checks of `create_transfer`. -/
def checkTransfer (c : Call) (fromWarehouse toWarehouse : ℕ) (rows : List InventoryRow)
    (s : State) : Except PosError Unit := do
  requireInventoryWrite c "inventory.transfer" [fromWarehouse, toWarehouse]
  validateWarehouse s fromWarehouse
  validateWarehouse s toWarehouse
  require (fromWarehouse ≠ toWarehouse)
    (.validation "Transfer warehouses must be different.")
  lockInventoryRows s false rows
  requireTailoringInventoryWrite c s (rows.map InventoryRow.product) "inventory.transfer"
  require (rows.all fun row => 0 < row.quantity)
    (.validation "Transfer quantities must be greater than zero.")

/-- The stored line of a requested row. -/
def transferItem (s : State) (transfer : ℕ) (row : InventoryRow) : StockTransferItem where
  transfer := transfer
  product := row.product
  variant := row.variant
  quantity := qty row.quantity
  unitCost := costOf s row.product row.variant

/-- The document rows of `create_transfer`. -/
def insertTransfer (c : Call) (fromWarehouse toWarehouse : ℕ) (rows : List InventoryRow)
    (s : State) : State :=
  let transfer : StockTransfer := {
    transferNumber := nextNumber (s.documents.transfers.map StockTransfer.transferNumber)
    fromWarehouse := fromWarehouse
    toWarehouse := toWarehouse
    status := .draft
    requestedBy := c.actor.user }
  let items := rows.map (transferItem s s.documents.transfers.length)
  { s with
    documents.transfers := s.documents.transfers ++ [transfer]
    documents.transferItems := s.documents.transferItems ++ items }

/-- `create_transfer`. -/
def createTransfer (c : Call) (fromWarehouse toWarehouse : ℕ) (rows : List InventoryRow) :
    Service Unit := do
  reads (checkTransfer c fromWarehouse toWarehouse rows)
  modify (insertTransfer c fromWarehouse toWarehouse rows)

/-- The lines of a transfer. -/
def Documents.itemsOfTransfer (d : Documents) (transfer : ℕ) : List StockTransferItem :=
  d.transferItems.filter fun i => i.transfer = transfer

/-- The guard of every transfer transition: the transfer and its lines, under lock. -/
def openTransfer (c : Call) (transfer : ℕ) (s : State) :
    Except PosError (StockTransfer × List StockTransferItem) := do
  let tr ← found s.documents.transfers[transfer]? .notFound
  requireInventoryWrite c "inventory.transfer" [tr.fromWarehouse, tr.toWarehouse]
  let items := s.documents.itemsOfTransfer transfer
  requireTailoringInventoryWrite c s (items.map StockTransferItem.product) "inventory.transfer"
  return (tr, items)

/-- Goods of one line leave the source or enter a warehouse. -/
def transferMovement (c : Call) (warehouse : ℕ) (movementType : MovementType) (sign : ℤ)
    (reference : Reference) (item : StockTransferItem) : Movement where
  key := ⟨warehouse, item.product, item.variant⟩
  movementType := movementType
  quantity := dec (sign * item.quantity)
  unitCost := dec item.unitCost
  reference := reference
  user := c.actor.user

/-- Rewrite one transfer. -/
def setTransfer (transfer : ℕ) (f : StockTransfer → StockTransfer) (s : State) : State :=
  { s with documents.transfers := s.documents.transfers.modify transfer f }

/-- `dispatch_transfer`. -/
def dispatchTransfer (c : Call) (transfer : ℕ) : Service Unit := do
  let (tr, items) ← reads (openTransfer c transfer)
  check (tr.status = .draft || tr.status = .approved)
    (.validation "Transfer cannot be dispatched in its current status.")
  (items.map (transferMovement c tr.fromWarehouse .transferOut (-1)
    (.transfer tr.transferNumber))).forM recordMovement
  modify (setTransfer transfer
    ({ · with status := .dispatched, dispatchedBy := some c.actor.user }))

/-- `receive_transfer`. -/
def receiveTransfer (c : Call) (transfer : ℕ) : Service Unit := do
  let (tr, items) ← reads (openTransfer c transfer)
  check (tr.status = .dispatched) (.validation "Only dispatched transfers can be received.")
  (items.map (transferMovement c tr.toWarehouse .transferIn 1
    (.transfer tr.transferNumber))).forM recordMovement
  modify (setTransfer transfer
    ({ · with status := .received, receivedBy := some c.actor.user }))

/-- `cancel_transfer`: a dispatched transfer returns its goods to the source first. -/
def cancelTransfer (c : Call) (transfer : ℕ) : Service Unit := do
  let (tr, items) ← reads (openTransfer c transfer)
  check (tr.status ≠ .received) (.validation "Received transfers cannot be cancelled.")
  check (tr.status = .dispatched || tr.status = .draft || tr.status = .approved)
    (.validation "Transfer cannot be cancelled in its current status.")
  let returned := if tr.status = .dispatched then items else []
  (returned.map (transferMovement c tr.fromWarehouse .transferIn 1
    (.transferCancel tr.transferNumber))).forM recordMovement
  modify (setTransfer transfer ({ · with status := .cancelled }))

/-! ## Adjustments -/

/-- `ADJUST_MOVEMENT`. -/
def adjustMovement : AdjustmentReason → MovementType
  | .damage => .damage
  | .expiry => .wastage
  | .loss => .adjustOut
  | .theft => .adjustOut
  | .wastage => .wastage
  | .internal => .internal
  | .sample => .internal
  | .count => .count
  | .data => .adjustOut
  | .other => .adjustOut

/-- A legacy parent balance of metre fabric may only be corrected exactly to zero. -/
def checkParentRepair (s : State) (warehouse : ℕ) (row : InventoryRow) : Except PosError Unit := do
  let product ← lockInventoryRow s true row
  let current := s.stock.quantityOf ⟨warehouse, row.product, none⟩
  require (!isMeterVariantParent product row.variant ||
      (current ≠ 0 && row.quantity = dec (-current)))
    (.validation (s!"Legacy parent stock for {product.name} must be corrected " ++
      "exactly to zero."))

/-- The checks of `create_adjustment`. -/
def checkAdjustment (c : Call) (warehouse : ℕ) (rows : List InventoryRow) (s : State) :
    Except PosError Unit := do
  requireInventoryWrite c "inventory.adjust" [warehouse]
  validateWarehouse s warehouse
  lockInventoryRows s true rows
  requireTailoringInventoryWrite c s (rows.map InventoryRow.product) "inventory.adjust"
  rows.forM (checkParentRepair s warehouse)

/-- The stored line of a requested row. -/
def adjustmentItem (s : State) (adjustment warehouse : ℕ) (row : InventoryRow) :
    StockAdjustmentItem where
  adjustment := adjustment
  product := row.product
  variant := row.variant
  previousQuantity := s.stock.quantityOf ⟨warehouse, row.product, row.variant⟩
  change := qty row.quantity

/-- The movement of one adjustment line, if it has any effect. -/
def adjustmentMovement (c : Call) (s : State) (adj : StockAdjustment)
    (item : StockAdjustmentItem) : Option Movement :=
  if item.change = 0 then
    none
  else
    some {
      key := ⟨adj.warehouse, item.product, item.variant⟩
      movementType := if item.change > 0 then .adjustIn else adjustMovement adj.reason
      quantity := dec item.change
      unitCost := dec (s.catalog.averageCost ⟨adj.warehouse, item.product, item.variant⟩)
      reference := .adjustment adj.adjustmentNumber
      user := c.actor.user }

/-- `_apply_adjustment`. -/
def applyAdjustment (c : Call) (adj : StockAdjustment) (items : List StockAdjustmentItem) :
    Service Unit := do
  let s ← get
  (items.filterMap (adjustmentMovement c s adj)).forM recordMovement

/-- `create_adjustment`. -/
def createAdjustment (c : Call) (warehouse : ℕ) (reason : AdjustmentReason)
    (rows : List InventoryRow) (requiresApproval : Bool) : Service Unit := do
  reads (checkAdjustment c warehouse rows)
  let s ← get
  let adj : StockAdjustment := {
    adjustmentNumber :=
      nextNumber (s.documents.adjustments.map StockAdjustment.adjustmentNumber)
    warehouse := warehouse
    reason := reason
    status := if requiresApproval then .pending else .approved
    createdBy := c.actor.user }
  let items := rows.map (adjustmentItem s s.documents.adjustments.length warehouse)
  modify fun s => { s with
    documents.adjustments := s.documents.adjustments ++ [adj]
    documents.adjustmentItems := s.documents.adjustmentItems ++ items }
  if requiresApproval then
    pure ()
  else
    applyAdjustment c adj items

/-- The guard of both decisions on a pending adjustment. -/
def openAdjustment (c : Call) (adjustment : ℕ) (s : State) :
    Except PosError (StockAdjustment × List StockAdjustmentItem) := do
  let adj ← found s.documents.adjustments[adjustment]? .notFound
  requireInventoryWrite c "inventory.adjust_approve" [adj.warehouse]
  let items := s.documents.adjustmentItems.filter fun i => i.adjustment = adjustment
  requireTailoringInventoryWrite c s (items.map StockAdjustmentItem.product)
    "inventory.adjust_approve"
  return (adj, items)

/-- Record the decision on an adjustment. -/
def setAdjustment (c : Call) (adjustment : ℕ) (status : AdjustmentStatus) (s : State) : State :=
  { s with
    documents.adjustments := s.documents.adjustments.modify adjustment
      ({ · with status := status, approvedBy := some c.actor.user }) }

/-- `approve_adjustment`. -/
def approveAdjustment (c : Call) (adjustment : ℕ) : Service Unit := do
  let (adj, items) ← reads (openAdjustment c adjustment)
  check (adj.status = .pending) (.validation "Only pending adjustments can be approved.")
  modify (setAdjustment c adjustment .approved)
  applyAdjustment c adj items

/-- `reject_adjustment`. -/
def rejectAdjustment (c : Call) (adjustment : ℕ) : Service Unit := do
  let (adj, _) ← reads (openAdjustment c adjustment)
  check (adj.status = .pending) (.validation "Only pending adjustments can be rejected.")
  modify (setAdjustment c adjustment .rejected)

/-! ## Counts -/

/-- The checks of `start_count`. -/
def checkStartCount (c : Call) (warehouse : ℕ) (s : State) : Except PosError Unit := do
  requireInventoryWrite c "inventory.count" [warehouse]
  validateWarehouse s warehouse

/-- The level is one the count covers: in its warehouse, and not tailoring-owned unless the
member has that module. -/
def countsLevel (c : Call) (s : State) (warehouse : ℕ) (k : StockKey) : Bool :=
  k.warehouse = warehouse &&
    (c.actor.hasModule .tailoring || !isTailoringProduct s k.product)

/-- The snapshot of `start_count`: one line for every level row of the warehouse. -/
def countSnapshot (c : Call) (s : State) (count warehouse : ℕ) : List StockCountItem :=
  (s.stock.levels.entries.filter fun e => countsLevel c s warehouse e.1).map fun e =>
    { count := count, product := e.1.product, variant := e.1.variant, expectedQuantity := e.2 }

/-- The document rows of `start_count`. -/
def insertCount (c : Call) (warehouse : ℕ) (s : State) : State :=
  let count : StockCount := {
    countNumber := nextNumber (s.documents.counts.map StockCount.countNumber)
    warehouse := warehouse
    createdBy := c.actor.user }
  { s with
    documents.counts := s.documents.counts ++ [count]
    documents.countItems := s.documents.countItems ++
      countSnapshot c s s.documents.counts.length warehouse }

/-- `start_count`. -/
def startCount (c : Call) (warehouse : ℕ) : Service Unit := do
  reads (checkStartCount c warehouse)
  modify (insertCount c warehouse)

/-- The count is still open for counting. -/
def StockCount.isOpen (count : StockCount) : Bool :=
  count.status = .opened || count.status = .review

/-- The counting screen: save what was counted for one line of an open count. -/
def saveCounted (c : Call) (item : ℕ) (counted : ℚ) : Service Unit := do
  let s ← get
  let row ← reads fun s => found s.documents.countItems[item]? .notFound
  let count ← reads fun s => found s.documents.counts[row.count]? .notFound
  reads fun _ => requireInventoryWrite c "inventory.count" [count.warehouse]
  check count.isOpen (.validation "This count is not open.")
  check (!isTailoringProduct s row.product || c.actor.hasModule .tailoring) .scopeDenied
  modify fun s => { s with
    documents.countItems := s.documents.countItems.modify item
      ({ · with countedQuantity := some (qty counted) }) }

/-- The lines of a count. -/
def Documents.itemsOfCount (d : Documents) (count : ℕ) : List StockCountItem :=
  d.countItems.filter fun i => i.count = count

/-- The guard of `approve_count`; tailoring products count only where they are corrected. -/
def openCount (c : Call) (count : ℕ) (s : State) :
    Except PosError (StockCount × List StockCountItem) := do
  let cnt ← found s.documents.counts[count]? .notFound
  requireInventoryWrite c "inventory.adjust_approve" [cnt.warehouse]
  require cnt.isOpen (.validation "This count is not open.")
  let items := s.documents.itemsOfCount count
  let corrected := items.filter fun i =>
    i.countedQuantity ≠ none && i.countedQuantity ≠ some i.expectedQuantity
  requireTailoringInventoryWrite c s (corrected.map StockCountItem.product)
    "inventory.adjust_approve"
  return (cnt, items)

/-- The correction of one counted line, if it has any effect. -/
def countMovement (c : Call) (s : State) (cnt : StockCount) (item : StockCountItem) :
    Option Movement :=
  match item.countedQuantity with
  | none => none
  | some counted =>
    if counted - item.expectedQuantity = 0 then
      none
    else
      some {
        key := ⟨cnt.warehouse, item.product, item.variant⟩
        movementType := .count
        quantity := dec (counted - item.expectedQuantity)
        unitCost := dec (s.catalog.averageCost ⟨cnt.warehouse, item.product, item.variant⟩)
        reference := .stockCount cnt.countNumber
        user := c.actor.user
        enforcePolicy := false }

/-- `approve_count`. -/
def approveCount (c : Call) (count : ℕ) : Service Unit := do
  let (cnt, items) ← reads (openCount c count)
  let s ← get
  (items.filterMap (countMovement c s cnt)).forM recordMovement
  modify fun s => { s with
    documents.counts := s.documents.counts.modify count
      ({ · with status := .approved, approvedBy := some c.actor.user }) }

/-! ## What the transfer services do -/

/-- The posting of one transfer line. -/
def transferPosting (warehouse : ℕ) (movementType : MovementType) (sign : ℤ)
    (reference : Reference) (item : StockTransferItem) : Posting where
  key := ⟨warehouse, item.product, item.variant⟩
  movementType := movementType
  quantity := sign * item.quantity
  reference := reference

/-- The goods of one product or variant on some transfer lines. -/
def itemTotal (items : List StockTransferItem) (product : ℕ) (variant : Option ℕ) : ℤ :=
  ((items.filter fun i => i.product = product ∧ i.variant = variant).map
    StockTransferItem.quantity).sum

/-- The movements of a transfer transition post its lines, one for one and in order. -/
lemma postings_of_transferMovements {c : Call} {warehouse : ℕ} {movementType : MovementType}
    {sign : ℤ} {reference : Reference} {items : List StockTransferItem}
    {rows : List StockMovement}
    (h : List.Forall₂ RowFor
      (items.map (transferMovement c warehouse movementType sign reference)) rows) :
    rows.map StockMovement.posting =
        items.map (transferPosting warehouse movementType sign reference) ∧
      ∀ product variant,
        Stock.productTotal rows product variant = sign * itemTotal items product variant := by
  have hposting : ∀ item, (transferMovement c warehouse movementType sign reference item).posting =
      transferPosting warehouse movementType sign reference item := by
    intro item
    simp only [Movement.posting, transferMovement, transferPosting, qty_dec]
  refine ⟨?_, fun product variant => ?_⟩
  · rw [postings_eq h, List.map_map]
    exact List.map_congr_left fun item _ => hposting item
  · induction items generalizing rows with
    | nil =>
      obtain rfl := List.forall₂_nil_left_iff.mp h
      simp [itemTotal]
    | cons item items ih =>
      obtain ⟨row, rows, hrow, hrows, rfl⟩ := List.forall₂_cons_left_iff.mp h
      have hkey : row.key = ⟨warehouse, item.product, item.variant⟩ := hrow.key
      have hquantity : row.quantity = sign * item.quantity :=
        congrArg Posting.quantity (hrow.posting_eq.trans (hposting item))
      rw [Stock.productTotal_cons, ih hrows, hkey, hquantity]
      by_cases hp : item.product = product ∧ item.variant = variant <;>
        simp [itemTotal, hp, mul_add]

/-- A transition of an open transfer: its lines, or none of them, were posted, and then its row
was rewritten. -/
structure TransferMoved (s t : State) (id : ℕ) (items : List StockTransferItem)
    (posting : StockTransferItem → Posting) (sign : ℤ) (status : TransferStatus) : Prop where
  movements : ∃ rows, t.stock.movements = s.stock.movements ++ rows ∧
    rows.map StockMovement.posting = items.map posting
  total : ∀ product variant, t.stock.total product variant =
    s.stock.total product variant + sign * itemTotal items product variant
  items_eq : t.documents.transferItems = s.documents.transferItems
  transfers_eq : ∃ f : StockTransfer → StockTransfer,
    (∀ x, (f x).status = status ∧ (f x).transferNumber = x.transferNumber ∧
      (f x).fromWarehouse = x.fromWarehouse ∧ (f x).toWarehouse = x.toWarehouse) ∧
    t.documents.transfers = s.documents.transfers.modify id f

lemma transferMoved_of_runs {c : Call} {s u : State} {id warehouse : ℕ}
    {items : List StockTransferItem} {movementType : MovementType} {sign : ℤ}
    {reference : Reference} {status : TransferStatus} {f : StockTransfer → StockTransfer} {x : Unit}
    (hf : ∀ x, (f x).status = status ∧ (f x).transferNumber = x.transferNumber ∧
      (f x).fromWarehouse = x.fromWarehouse ∧ (f x).toWarehouse = x.toWarehouse)
    (h : Runs ((items.map (transferMovement c warehouse movementType sign reference)).forM
      recordMovement) s x u) :
    TransferMoved s (setTransfer id f u) id items
      (transferPosting warehouse movementType sign reference) sign status := by
  obtain ⟨rows, hrows, hmoved⟩ := runs_forM_recordMovement h
  obtain ⟨hposting, htotal⟩ := postings_of_transferMovements hrows
  have hdocuments : u.documents = s.documents :=
    documents_of_rest hmoved.rest
  refine ⟨⟨rows, hmoved.movements, hposting⟩, fun product variant => ?_, ?_, f, hf, ?_⟩
  · rw [← htotal]
    exact hmoved.total product variant
  · change u.documents.transferItems = s.documents.transferItems
    rw [hdocuments]
  · change u.documents.transfers.modify id f = s.documents.transfers.modify id f
    rw [hdocuments]

lemma openTransfer_ok {c : Call} {id : ℕ} {s : State} {tr : StockTransfer}
    {items : List StockTransferItem} (h : openTransfer c id s = .ok (tr, items)) :
    s.documents.transfers[id]? = some tr ∧ items = s.documents.itemsOfTransfer id := by
  unfold openTransfer at h
  simp only [except_bind_eq_ok, found_eq_ok, pure, Except.pure, Except.ok.injEq,
    Prod.mk.injEq] at h
  obtain ⟨tr', htr, -, -, -, -, rfl, rfl⟩ := h
  exact ⟨htr, rfl⟩

lemma runs_dispatchTransfer {c : Call} {id : ℕ} {s t : State} {x : Unit}
    (h : Runs (dispatchTransfer c id) s x t) :
    ∃ tr, s.documents.transfers[id]? = some tr ∧
      (tr.status = .draft ∨ tr.status = .approved) ∧
      TransferMoved s t id (s.documents.itemsOfTransfer id)
        (transferPosting tr.fromWarehouse .transferOut (-1) (.transfer tr.transferNumber)) (-1)
        .dispatched := by
  unfold dispatchTransfer at h
  simp only [runs_bind, runs_reads, runs_check, runs_modify, Bool.or_eq_true,
    decide_eq_true_eq] at h
  obtain ⟨⟨tr, items⟩, _, ⟨hopen, rfl⟩, _, _, ⟨hstatus, rfl⟩, _, u, hrun, rfl⟩ := h
  obtain ⟨htr, rfl⟩ := openTransfer_ok hopen
  exact ⟨tr, htr, hstatus, transferMoved_of_runs (fun _ => ⟨rfl, rfl, rfl, rfl⟩) hrun⟩

lemma runs_receiveTransfer {c : Call} {id : ℕ} {s t : State} {x : Unit}
    (h : Runs (receiveTransfer c id) s x t) :
    ∃ tr, s.documents.transfers[id]? = some tr ∧ tr.status = .dispatched ∧
      TransferMoved s t id (s.documents.itemsOfTransfer id)
        (transferPosting tr.toWarehouse .transferIn 1 (.transfer tr.transferNumber)) 1
        .received := by
  unfold receiveTransfer at h
  simp only [runs_bind, runs_reads, runs_check, runs_modify, decide_eq_true_eq] at h
  obtain ⟨⟨tr, items⟩, _, ⟨hopen, rfl⟩, _, _, ⟨hstatus, rfl⟩, _, u, hrun, rfl⟩ := h
  obtain ⟨htr, rfl⟩ := openTransfer_ok hopen
  exact ⟨tr, htr, hstatus, transferMoved_of_runs (fun _ => ⟨rfl, rfl, rfl, rfl⟩) hrun⟩

lemma runs_cancelTransfer {c : Call} {id : ℕ} {s t : State} {x : Unit}
    (h : Runs (cancelTransfer c id) s x t) :
    ∃ tr, s.documents.transfers[id]? = some tr ∧
      (tr.status = .dispatched ∨ tr.status = .draft ∨ tr.status = .approved) ∧
      TransferMoved s t id
        (if tr.status = .dispatched then s.documents.itemsOfTransfer id else [])
        (transferPosting tr.fromWarehouse .transferIn 1 (.transferCancel tr.transferNumber)) 1
        .cancelled := by
  unfold cancelTransfer at h
  simp only [runs_bind, runs_reads, runs_check, runs_modify, Bool.or_eq_true,
    decide_eq_true_eq] at h
  obtain ⟨⟨tr, items⟩, _, ⟨hopen, rfl⟩, _, _, ⟨-, rfl⟩, _, _, ⟨hstatus, rfl⟩, _, u, hrun,
    rfl⟩ := h
  obtain ⟨htr, rfl⟩ := openTransfer_ok hopen
  exact ⟨tr, htr, or_assoc.mp hstatus,
    transferMoved_of_runs (fun _ => ⟨rfl, rfl, rfl, rfl⟩) hrun⟩

lemma runs_createTransfer {c : Call} {a b : ℕ} {rows : List InventoryRow} {s t : State} {x : Unit}
    (h : Runs (createTransfer c a b rows) s x t) : t = insertTransfer c a b rows s := by
  unfold createTransfer at h
  simp only [runs_bind, runs_reads, runs_modify] at h
  obtain ⟨-, _, ⟨-, rfl⟩, rfl⟩ := h
  rfl

/-! ## Footprints -/

section Footprint

variable {R : State → State → Prop} [IsPreorder State R]

section Transfers

variable (ht : ∀ s x y, R s { s with documents.transfers := x, documents.transferItems := y })

include ht

lemma within_createTransfer (c : Call) (a b : ℕ) (rows : List InventoryRow) :
    Within R (createTransfer c a b rows) :=
  within_bind within_reads fun _ => within_modify fun s => ht s _ _

lemma within_dispatchTransfer
    (hm : ∀ m, m.reference.type = .transfer → Within R (recordMovement m)) (c : Call)
    (transfer : ℕ) : Within R (dispatchTransfer c transfer) := by
  refine within_bind within_reads fun ⟨tr, items⟩ => within_bind within_check fun _ => ?_
  refine within_bind (within_forM fun m h => hm m ?_) fun _ => within_modify fun s => ht s _ _
  obtain ⟨item, -, rfl⟩ := List.mem_map.mp h
  rfl

lemma within_receiveTransfer
    (hm : ∀ m, m.reference.type = .transfer → Within R (recordMovement m)) (c : Call)
    (transfer : ℕ) : Within R (receiveTransfer c transfer) := by
  refine within_bind within_reads fun ⟨tr, items⟩ => within_bind within_check fun _ => ?_
  refine within_bind (within_forM fun m h => hm m ?_) fun _ => within_modify fun s => ht s _ _
  obtain ⟨item, -, rfl⟩ := List.mem_map.mp h
  rfl

lemma within_cancelTransfer
    (hm : ∀ m, m.reference.type = .transferCancel → Within R (recordMovement m)) (c : Call)
    (transfer : ℕ) : Within R (cancelTransfer c transfer) := by
  refine within_bind within_reads fun ⟨tr, items⟩ => ?_
  refine within_bind within_check fun _ => within_bind within_check fun _ => ?_
  refine within_bind (within_forM fun m h => hm m ?_) fun _ => within_modify fun s => ht s _ _
  obtain ⟨item, -, rfl⟩ := List.mem_map.mp h
  rfl

end Transfers

lemma type_of_mem_adjustmentMovement {c : Call} {s : State} {adj : StockAdjustment}
    {item : StockAdjustmentItem} {m : Movement} (h : adjustmentMovement c s adj item = some m) :
    m.reference.type = .adjustment := by
  unfold adjustmentMovement at h
  split at h
  · exact nomatch h
  · obtain rfl := Option.some.inj h
    rfl

lemma within_applyAdjustment
    (hm : ∀ m, m.reference.type = .adjustment → Within R (recordMovement m)) (c : Call)
    (adj : StockAdjustment) (items : List StockAdjustmentItem) :
    Within R (applyAdjustment c adj items) := by
  refine within_bind within_get fun s => within_forM fun m h => hm m ?_
  obtain ⟨item, -, hitem⟩ := List.mem_filterMap.mp h
  exact type_of_mem_adjustmentMovement hitem

section Adjustments

variable
  (ha : ∀ s x y, R s { s with documents.adjustments := x, documents.adjustmentItems := y })

include ha

lemma within_createAdjustment
    (hm : ∀ m, m.reference.type = .adjustment → Within R (recordMovement m)) (c : Call)
    (warehouse : ℕ) (reason : AdjustmentReason) (rows : List InventoryRow)
    (requiresApproval : Bool) :
    Within R (createAdjustment c warehouse reason rows requiresApproval) := by
  refine within_bind within_reads fun _ => within_bind within_get fun s => ?_
  refine within_bind (within_modify fun s => ha s _ _) fun _ => ?_
  exact within_ite (fun _ => within_pure) fun _ => within_applyAdjustment hm c _ _

lemma within_approveAdjustment
    (hm : ∀ m, m.reference.type = .adjustment → Within R (recordMovement m)) (c : Call)
    (adjustment : ℕ) : Within R (approveAdjustment c adjustment) := by
  refine within_bind within_reads fun ⟨adj, items⟩ => within_bind within_check fun _ => ?_
  exact within_bind (within_modify fun s => ha s _ _) fun _ => within_applyAdjustment hm c _ _

lemma within_rejectAdjustment (c : Call) (adjustment : ℕ) :
    Within R (rejectAdjustment c adjustment) := by
  refine within_bind within_reads fun ⟨adj, items⟩ => ?_
  exact within_bind within_check fun _ => within_modify fun s => ha s _ _

end Adjustments

section Counts

variable (hc : ∀ s x y, R s { s with documents.counts := x, documents.countItems := y })

include hc

lemma within_startCount (c : Call) (warehouse : ℕ) : Within R (startCount c warehouse) :=
  within_bind within_reads fun _ => within_modify fun s => hc s _ _

lemma within_saveCounted (c : Call) (item : ℕ) (counted : ℚ) :
    Within R (saveCounted c item counted) := by
  refine within_bind within_get fun _ => within_bind within_reads fun _ => ?_
  refine within_bind within_reads fun _ => within_bind within_reads fun _ => ?_
  refine within_bind within_check fun _ => within_bind within_check fun _ => ?_
  exact within_modify fun s => hc s _ _

lemma within_approveCount
    (hm : ∀ m, m.reference.type = .stockCount → Within R (recordMovement m)) (c : Call)
    (count : ℕ) : Within R (approveCount c count) := by
  refine within_bind within_reads fun ⟨cnt, items⟩ => within_bind within_get fun s => ?_
  refine within_bind (within_forM fun m h => hm m ?_) fun _ => within_modify fun s => hc s _ _
  obtain ⟨item, -, hitem⟩ := List.mem_filterMap.mp h
  unfold countMovement at hitem
  split at hitem
  · exact nomatch hitem
  · split at hitem
    · exact nomatch hitem
    · obtain rfl := Option.some.inj hitem
      rfl

end Counts

end Footprint

end NexaPos
