import NexaPos.Inventory.Workflows

/-!
# Opening stock and the stock import

`import_inventory` reads a file row by row inside one transaction.  A row is resolved to a stock
key, checked, and turned into at most one movement and at most one new reorder level; a row that
fails, in its checks or inside `record_movement`, is reported and leaves nothing behind, and the
next row is read.  A refused permission aborts the whole file.

A reorder level beside a quantity is saved inside a `try` that drops every exception; but a save
that raises marks the transaction for rollback.  From then on every query raises, and that aborts
the file; without one the import returns its summary, and nothing of it is kept.

A row's checks are the read-only `planRow`, and `importRow` carries the plan out.
-/

namespace NexaPos

open Tx

/-! ## Opening stock -/

/-- The checks of `set_opening_stock`. -/
def checkOpeningStock (c : Call) (k : StockKey) (s : State) : Except PosError Unit := do
  requireInventoryWrite c "inventory.adjust" [k.warehouse]
  let _ ← found s.catalog.products[k.product]? .notFound
  let _ ← variantOf s k.product k.variant .notFound
  if isTailoringProduct s k.product && !c.actor.hasModule .tailoring then
    requireActorAccess c .tailoring "inventory.adjust"
  else
    .ok ()

/-- `set_opening_stock`. -/
def setOpeningStock (c : Call) (k : StockKey) (quantity unitCost : ℚ) : Service Unit := do
  reads (checkOpeningStock c k)
  recordMovement {
    key := k, movementType := .opening, quantity := quantity, unitCost := unitCost
    reference := .opening, user := c.actor.user }

/-- `ensure_branch_opening_stock`: an existing level row is left alone; without a quantity only
the row is created. -/
def ensureBranchOpeningStock (c : Call) (k : StockKey) (quantity unitCost : ℚ) :
    Service Unit := do
  reads fun _ => requireInventoryWrite c "inventory.adjust" [k.warehouse]
  let s ← get
  if (s.stock.levels.lookup k).isSome then
    pure ()
  else if 0 < quantity then
    setOpeningStock c k quantity unitCost
  else
    modify fun s => { s with stock.levels := s.stock.levels.insert k 0 }

/-! ## Import rows -/

/-- `IMPORT_MODES`. -/
inductive ImportMode
  | add
  | replace
  | opening
  | minimum
  deriving DecidableEq, Repr

/-- One normalised row of the file. -/
structure ImportRow where
  branchCode : Text
  branchName : Text
  warehouseCode : Text
  warehouseName : Text
  sku : Text
  barcode : Text
  variantSku : Text
  variantBarcode : Text
  quantity : Cell
  minimumStockLevel : Cell
  unitCost : Cell

/-- Resolve one supplied identifier to a product, or to one of its variants. -/
def resolveIdentifier (s : State) (label : String) (value : Text)
    (variantField : ProductVariant → Text) (productField : Option (Product → Text)) :
    Except PosError (List (ℕ × Option ℕ)) :=
  if value = [] then
    .ok []
  else
    let variant := s.catalog.variants.findIdx? fun v => variantField v = value
    let product := productField.bind fun field =>
      s.catalog.products.findIdx? fun p => field p = value
    match variant, product with
    | some _, some _ => .error (.validation s!"{label} is ambiguous.")
    | some v, none =>
      match s.catalog.variants[v]? with
      | some row => .ok [(row.product, some v)]
      | none => .error .notFound
    | none, some p => .ok [(p, none)]
    | none, none => .error (.validation s!"{label} was not found.")

/-- All supplied identifiers must point to one product and at most one variant. -/
def resolveTarget (s : State) (row : ImportRow) : Except PosError (ℕ × Option ℕ) := do
  let byVariantSku ← resolveIdentifier s "Variant SKU" row.variantSku ProductVariant.sku none
  let byVariantBarcode ←
    resolveIdentifier s "Variant barcode" row.variantBarcode ProductVariant.barcode none
  let bySku ← resolveIdentifier s "SKU" row.sku ProductVariant.sku (some Product.sku)
  let byBarcode ←
    resolveIdentifier s "Barcode" row.barcode ProductVariant.barcode (some Product.barcode)
  let targets := byVariantSku ++ byVariantBarcode ++ bySku ++ byBarcode
  let products := (targets.map Prod.fst).dedup
  let variants := (targets.filterMap Prod.snd).dedup
  require (products.length ≤ 1 && variants.length ≤ 1)
    (.validation "Supplied product/color identifiers do not match.")
  match products with
  | [] => .error (.validation "Product not found.")
  | product :: _ => .ok (product, variants.head?)

/-- A cell that must hold a number with at most three decimals, not below zero. -/
def cleanCell (cell : Cell) (missing malformed tooFine negative : String) :
    Except PosError ℚ :=
  match cell with
  | .blank => .error (.validation missing)
  | .invalid => .error (.validation malformed)
  | .nonFinite => .error (.validation tooFine)
  | .number d =>
    if d.exponent < -3 then
      .error (.validation tooFine)
    else if d.value < 0 then
      .error (.validation negative)
    else
      .ok d.value

/-- The optional unit cost of a row; a blank cell is zero, which falls back to the catalogue. -/
def cleanUnitCost (cell : Cell) : Except PosError ℚ :=
  match cell with
  | .blank => .ok 0
  | cell => cleanCell cell "" "Invalid unit cost." "Unit cost supports up to 3 decimal places."
      "Unit cost cannot be negative."

/-- What becomes of the reorder level of a row's product. -/
inductive MinimumWrite
  | keep
  | store (level : ℤ)
  /-- The column refuses the value, and the save raises. -/
  | refused
  deriving DecidableEq, Repr

/-- What `product.reorder_level = D(raw)` and its save come to alongside a quantity: an unreadable
number is zero. -/
def minimumAlongside (cell : Cell) : MinimumWrite :=
  match cell with
  | .blank => .keep
  | .invalid => .store 0
  | .nonFinite => .refused
  | .number d => .store (qty d.value)

/-! ## Planning and carrying out a row -/

/-- What an accepted row does: at most one movement and at most one save of a reorder level. -/
structure RowPlan where
  product : ℕ
  movement : Option Movement
  minimum : MinimumWrite

/-- The selected location of an import. -/
structure ImportContext where
  mode : ImportMode
  branch : ℕ
  warehouse : ℕ

/-- The location columns of a row must name the selected location. -/
def checkRowLocation (s : State) (ctx : ImportContext) (row : ImportRow) :
    Except PosError Unit := do
  let branch ← found s.tenant.branches[ctx.branch]? .notFound
  let warehouse ← found s.tenant.warehouses[ctx.warehouse]? .notFound
  require (row.branchCode.casefold = branch.code.casefold &&
      row.branchName.casefold = branch.name.casefold &&
      row.warehouseCode.casefold = warehouse.code.casefold &&
      row.warehouseName.casefold = warehouse.name.casefold)
    (.validation "Branch and warehouse metadata must match the selected context.")
  require (!(row.sku.isEmpty && row.barcode.isEmpty && row.variantSku.isEmpty &&
    row.variantBarcode.isEmpty)) (.validation "Provide a SKU or barcode.")

/-- The product and the stock key of a row. -/
def rowTarget (s : State) (ctx : ImportContext) (row : ImportRow) :
    Except PosError (Product × StockKey) := do
  checkRowLocation s ctx row
  let (productId, variantId) ← resolveTarget s row
  let product ← found s.catalog.products[productId]? .notFound
  return (product, ⟨ctx.warehouse, productId, variantId⟩)

/-- The restrictions on the key of a row, most of them on metre fabric. -/
def checkRowKey (s : State) (ctx : ImportContext) (row : ImportRow) (product : Product)
    (k : StockKey) : Except PosError Unit := do
  let _ ← variantOf s k.product k.variant
    (.validation "Invalid product variant for this business.")
  require (!isMeterVariantParent product k.variant)
    (.validation s!"Select a variant/color for {product.name}.")
  require (!(product.isMeterTailoring && row.minimumStockLevel ≠ .blank))
    (.validation ("Parent/per-variant reorder levels are not supported for Meter fabric in " ++
      "the current inventory model."))
  require (!(product.isMeterTailoring && k.variant.isNone && ctx.mode = .opening))
    (.validation "Meter parent opening stock must be received through Purchases.")

/-- The movement a quantity row asks for: `add` and `opening` post a positive quantity,
`replace` posts the difference to the present level and is exempt from the stock policy. -/
def rowMovement (c : Call) (s : State) (ctx : ImportContext) (k : StockKey)
    (quantity override : ℚ) : Option Movement :=
  let cost := if override = 0 then dec (costOf s k.product k.variant) else override
  let movement (movementType : MovementType) (q : ℚ) (enforce : Bool) : Option Movement :=
    some {
      key := k, movementType := movementType, quantity := q, unitCost := cost
      reference := .importRow, user := c.actor.user, enforcePolicy := enforce }
  match ctx.mode with
  | .add => if 0 < quantity then movement .adjustIn quantity true else none
  | .opening => if 0 < quantity then movement .opening quantity true else none
  | .replace =>
    let delta := quantity - dec (s.stock.quantityOf k)
    if delta = 0 then none else movement .count delta false
  | .minimum => none

/-- The rest of the checks, once the key is known. -/
def planRow (c : Call) (s : State) (ctx : ImportContext) (row : ImportRow) (product : Product)
    (k : StockKey) : Except PosError RowPlan := do
  if ctx.mode = .minimum then
    let level ← cleanCell row.minimumStockLevel
      "Minimum stock level is required for this mode." "Invalid minimum stock level."
      "Minimum stock level supports up to 3 decimals." "Minimum stock level cannot be negative."
    return { product := k.product, movement := none, minimum := .store (qty level) }
  else
    let quantity ← cleanCell row.quantity "Quantity is required for this mode."
      "Invalid quantity." "Quantity supports up to 3 decimal places."
      "Quantity cannot be negative."
    let override ← cleanUnitCost row.unitCost
    require product.isStocked (.validation s!"{product.name} does not track inventory.")
    return {
      product := k.product
      movement := rowMovement c s ctx k quantity override
      minimum := minimumAlongside row.minimumStockLevel }

/-- Post the movement and store the reorder level. -/
def executeRow (plan : RowPlan) : Service Unit := do
  recordOptional plan.movement
  modify fun s => match plan.minimum with
    | .store level => { s with
        catalog.products := s.catalog.products.modify plan.product
          ({ · with reorderLevel := level }) }
    | _ => s

/-- The running summary of an import. -/
structure ImportProgress where
  seen : List StockKey := []
  imported : ℕ := 0
  updated : ℕ := 0
  failed : ℕ := 0
  errors : List (ℕ × PosError) := []
  /-- The transaction is marked for rollback. -/
  needsRollback : Bool := false

namespace ImportProgress

/-- Report a failed row. -/
def fail (p : ImportProgress) (index : ℕ) (e : PosError) : ImportProgress :=
  { p with failed := p.failed + 1, errors := p.errors ++ [(index, e)] }

/-- Count an accepted row. -/
def succeed (p : ImportProgress) (mode : ImportMode) (minimum : MinimumWrite) : ImportProgress :=
  let p := { p with needsRollback := p.needsRollback || minimum == MinimumWrite.refused }
  if mode = .minimum then
    { p with updated := p.updated + 1 }
  else
    { p with imported := p.imported + 1 }

end ImportProgress

/-- One row of the file. -/
def importRow (c : Call) (ctx : ImportContext) (p : ImportProgress) (row : ℕ × ImportRow) :
    Service ImportProgress := do
  let s ← get
  -- the look for the identifiers is the first query of a row
  reads fun _ => require (!(p.needsRollback && (checkRowLocation s ctx row.2).isOk))
    .transactionManagement
  match rowTarget s ctx row.2 with
  | .error e => return p.fail row.1 e
  | .ok (product, k) => do
    -- a refused permission is not a row error: it aborts the import
    reads fun _ => if product.isTailoringItem && !c.actor.hasModule .tailoring then
      requireActorAccess c .tailoring "inventory.import" else .ok ()
    match checkRowKey s ctx row.2 product k with
    | .error e => return p.fail row.1 e
    | .ok _ => do
      if k ∈ p.seen then
        return p.fail row.1 (.validation "Duplicate product/warehouse row in file.")
      else do
        let p := { p with seen := k :: p.seen }
        match planRow c s ctx row.2 product k with
        | .error e => return p.fail row.1 e
        | .ok plan => do
          match ← attempt (executeRow plan) with
          | .ok _ => return p.succeed ctx.mode plan.minimum
          | .error e => return p.fail row.1 e

/-- The selected location must be active, belong together and be in the member's scope. -/
def checkImport (c : Call) (ctx : ImportContext) (s : State) : Except PosError Unit := do
  requireActorAccess c .inventory "inventory.import"
  let branch ← found s.tenant.branches[ctx.branch]? .scopeDenied
  let warehouse ← found s.tenant.warehouses[ctx.warehouse]? .scopeDenied
  require (branch.isActive && warehouse.isActive && warehouse.branch = some ctx.branch &&
    c.actor.canAccessBranch ctx.branch && c.actor.canAccessWarehouse ctx.warehouse) .scopeDenied

/-- `import_inventory`; file rows are numbered from 2. -/
def importInventory (c : Call) (ctx : ImportContext) (rows : List ImportRow) :
    Service ImportProgress := do
  reads (checkImport c ctx)
  let s ← get
  let p ← (rows.zipIdx.map fun r => (r.2 + 2, r.1)).foldlM (importRow c ctx) {}
  modify fun t => if p.needsRollback then s else t
  return p

/-! ## Footprints -/

section Footprint

variable {R : State → State → Prop} [IsPreorder State R]

lemma within_setOpeningStock
    (hm : ∀ m, m.movementType = .opening → m.reference.type = .opening →
      Within R (recordMovement m)) (c : Call)
    (k : StockKey) (quantity unitCost : ℚ) : Within R (setOpeningStock c k quantity unitCost) :=
  within_bind within_reads fun _ => hm _ rfl rfl

lemma within_ensureBranchOpeningStock
    (hm : ∀ m, m.movementType = .opening → m.reference.type = .opening →
      Within R (recordMovement m))
    (hlevel : ∀ s k, s.stock.levels.lookup k = none →
      R s { s with stock.levels := s.stock.levels.insert k 0 })
    (c : Call) (k : StockKey) (quantity unitCost : ℚ) :
    Within R (ensureBranchOpeningStock c k quantity unitCost) := by
  -- the new level row is only written where the key has none
  intro s u t h
  unfold ensureBranchOpeningStock at h
  simp only [runs_bind, runs_reads, runs_get] at h
  obtain ⟨-, _, ⟨-, rfl⟩, _, s, ⟨rfl, rfl⟩, h⟩ := h
  by_cases hlevels : (s.stock.levels.lookup k).isSome = true
  · rw [if_pos hlevels] at h
    exact within_pure h
  · rw [if_neg hlevels] at h
    by_cases hq : 0 < quantity
    · rw [if_pos hq] at h
      exact within_setOpeningStock hm c k quantity unitCost h
    · rw [if_neg hq, runs_modify] at h
      rw [h]
      exact hlevel _ _ (by simpa using hlevels)

lemma type_of_mem_rowMovement {c : Call} {s : State} {ctx : ImportContext} {k : StockKey}
    {quantity override : ℚ} {m : Movement}
    (h : m ∈ rowMovement c s ctx k quantity override) :
    (ctx.mode = .opening → m.movementType = .opening) ∧ m.reference.type = .importRow := by
  unfold rowMovement at h
  cases hmode : ctx.mode <;> simp only [hmode, Option.mem_def, Option.ite_none_right_eq_some,
    Option.ite_none_left_eq_some, reduceCtorEq, Option.some.injEq] at h
  all_goals
    obtain ⟨-, rfl⟩ := h
    simp [Reference.type]

lemma type_of_mem_planRow {c : Call} {s : State} {ctx : ImportContext} {row : ImportRow}
    {product : Product} {k : StockKey} {plan : RowPlan}
    (h : planRow c s ctx row product k = .ok plan) :
    ∀ m ∈ plan.movement,
      (ctx.mode = .opening → m.movementType = .opening) ∧ m.reference.type = .importRow := by
  unfold planRow at h
  split at h
  · simp only [except_bind_eq_ok, pure, Except.pure, Except.ok.injEq] at h
    obtain ⟨level, -, rfl⟩ := h
    exact fun m hm => by cases hm
  · simp only [except_bind_eq_ok, pure, Except.pure, Except.ok.injEq] at h
    obtain ⟨quantity, -, override, -, -, -, rfl⟩ := h
    exact fun m hm => type_of_mem_rowMovement hm

section Import

variable {ctx : ImportContext}
  (hm : ∀ m, (ctx.mode = .opening → m.movementType = .opening) → m.reference.type = .importRow →
    Within R (recordMovement m))
  (hc : ∀ (s : State) product level, R s { s with
    catalog.products := s.catalog.products.modify product ({ · with reorderLevel := level }) })

include hm hc

lemma within_executeRow {plan : RowPlan}
    (hplan : ∀ m ∈ plan.movement,
      (ctx.mode = .opening → m.movementType = .opening) ∧ m.reference.type = .importRow) :
    Within R (executeRow plan) := by
  refine within_bind (within_recordOptional fun m h => ?_) fun _ => within_modify fun s => ?_
  · exact hm m (hplan m h).1 (hplan m h).2
  · cases plan.minimum with
    | store level => exact hc s plan.product level
    | keep => exact refl s
    | refused => exact refl s

lemma within_importRow (c : Call) (p : ImportProgress)
    (row : ℕ × ImportRow) : Within R (importRow c ctx p row) := by
  refine within_bind within_get fun s => within_bind within_reads fun _ => ?_
  cases rowTarget s ctx row.2 with
  | error e => exact within_pure
  | ok target =>
    obtain ⟨product, k⟩ := target
    refine within_bind within_reads fun _ => ?_
    cases checkRowKey s ctx row.2 product k with
    | error e => exact within_pure
    | ok _ =>
      refine within_ite (fun _ => within_pure) fun _ => ?_
      cases hplan : planRow c s ctx row.2 product k with
      | error e => exact within_pure
      | ok plan =>
        have hrow := within_executeRow hm hc (type_of_mem_planRow hplan)
        refine within_bind (within_attempt hrow) fun r => ?_
        cases r with
        | ok _ => exact within_pure
        | error e => exact within_pure

lemma within_importInventory (c : Call) (rows : List ImportRow) :
    Within R (importInventory c ctx rows) := by
  refine within_bind within_reads fun _ => ?_
  intro s p t h
  simp only [runs_bind, runs_get, runs_modify, runs_pure] at h
  obtain ⟨_, _, ⟨rfl, rfl⟩, p, u, hrows, _, _, rfl, -, rfl⟩ := h
  split
  · exact refl _
  · exact within_foldlM (within_importRow hm hc c) _ _ hrows

end Import

end Footprint

end NexaPos
