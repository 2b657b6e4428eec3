import NexaPos.Core.State
import NexaPos.Lib.RunningLedger

/-!
# The stock ledger service

`record_movement` is the only writer of stock: it validates one change, moves the cached level
and appends the ledger row that says so.  Here the validation is a read-only function that
builds the row (`movementRow`), and the write is `Stock.post` of that row followed by the
moving-average cost update.

The spec lemma is `runs_recordMovement`; together with `Stock.posts_book_post` it is what every
caller's proof uses.  The low-stock notification writes no modelled table and is left out.
-/

namespace NexaPos

open Tx RunningLedger

/-! ## Reading stock -/

namespace Stock

/-- `get_stock`: the cached quantity, zero when there is no row. -/
def quantityOf (st : Stock) (k : StockKey) : ℤ := (st.levels.lookup k).getD 0

/-- Append a ledger row and let the level follow its running balance. -/
def post (st : Stock) (row : StockMovement) : Stock where
  levels := st.levels.insert row.key row.balanceAfter
  movements := st.movements ++ [row]

/-- `total_stock(business, product, variant)`: the sum over every warehouse. -/
def total (st : Stock) (product : ℕ) (variant : Option ℕ) : ℤ :=
  ((st.levels.entries.filter fun e => e.1.product = product ∧ e.1.variant = variant).map
    fun e => e.2).sum

/-- The ledger entry a movement row is. -/
def entry (row : StockMovement) : Entry StockKey ℤ := ⟨row.key, row.quantity, row.balanceAfter⟩

/-- Levels and movements as a book of running balances. -/
def book (st : Stock) : Book StockKey ℤ := ⟨st.movements.map entry, st.quantityOf⟩

@[simp] lemma quantityOf_post (st : Stock) (row : StockMovement) (k : StockKey) :
    (st.post row).quantityOf k = if row.key = k then row.balanceAfter else st.quantityOf k := by
  unfold quantityOf post
  by_cases h : row.key = k
  · subst h
    simp
  · simp [h, AList.lookup_insert_ne (Ne.symm h)]

@[simp] lemma movements_post (st : Stock) (row : StockMovement) :
    (st.post row).movements = st.movements ++ [row] := rfl

/-- The sum of the levels whose key satisfies a predicate. -/
def sumOver (p : StockKey → Bool) (l : List (Sigma fun _ : StockKey => ℤ)) : ℤ :=
  ((l.filter fun e => p e.1).map fun e => e.2).sum

lemma sumOver_kerase (p : StockKey → Bool) (k : StockKey)
    (l : List (Sigma fun _ : StockKey => ℤ)) :
    sumOver p l =
      sumOver p (List.kerase k l) + if p k = true then (List.dlookup k l).getD 0 else 0 := by
  induction l with
  | nil => simp [sumOver]
  | cons e l ih =>
    obtain ⟨k', q⟩ := e
    by_cases hk : k = k'
    · subst hk
      have herase : List.kerase k (⟨k, q⟩ :: l) = l := List.kerase_cons_eq rfl
      rw [herase]
      by_cases hp : p k = true <;> simp [sumOver, hp, add_comm]
    · have herase : List.kerase k (⟨k', q⟩ :: l) = ⟨k', q⟩ :: List.kerase k l :=
        List.kerase_cons_ne hk
      have hlookup : List.dlookup k (⟨k', q⟩ :: l) = List.dlookup k l :=
        List.dlookup_cons_ne l _ hk
      rw [herase, hlookup]
      unfold sumOver at ih ⊢
      by_cases hp : p k' = true <;> simp [hp, ih, add_assoc]

/-- What the rows move of one product or variant, over every warehouse. -/
def productTotal (rows : List StockMovement) (product : ℕ) (variant : Option ℕ) : ℤ :=
  ((rows.filter fun row => row.key.product = product ∧ row.key.variant = variant).map
    StockMovement.quantity).sum

@[simp] lemma productTotal_nil (product : ℕ) (variant : Option ℕ) :
    productTotal [] product variant = 0 := rfl

lemma productTotal_cons (row : StockMovement) (rows : List StockMovement) (product : ℕ)
    (variant : Option ℕ) :
    productTotal (row :: rows) product variant =
      (if row.key.product = product ∧ row.key.variant = variant then row.quantity else 0) +
        productTotal rows product variant := by
  by_cases h : row.key.product = product ∧ row.key.variant = variant <;>
    simp [productTotal, h]

/-- A posted row moves the total stock of its product and variant by its quantity. -/
lemma total_post (st : Stock) (row : StockMovement)
    (h : row.balanceAfter = st.quantityOf row.key + row.quantity) (product : ℕ)
    (variant : Option ℕ) :
    (st.post row).total product variant =
      st.total product variant +
        if row.key.product = product ∧ row.key.variant = variant then row.quantity else 0 := by
  let p : StockKey → Bool := fun k => k.product = product ∧ k.variant = variant
  have hnew : (st.post row).total product variant =
      sumOver p (⟨row.key, row.balanceAfter⟩ :: List.kerase row.key st.levels.entries) := rfl
  have hold : st.total product variant = sumOver p st.levels.entries := rfl
  have hquantity : st.quantityOf row.key = (List.dlookup row.key st.levels.entries).getD 0 := rfl
  rw [hnew, hold, sumOver_kerase p row.key st.levels.entries, ← hquantity]
  by_cases hp : row.key.product = product ∧ row.key.variant = variant
  · simp only [sumOver, p, hp, and_self, decide_true, List.filter_cons_of_pos, List.map_cons,
      List.sum_cons, if_true, h]
    ring
  · simp [sumOver, p, hp]

/-- A row whose running balance continues its key's balance is one posting. -/
lemma posts_book_post (st : Stock) (row : StockMovement)
    (h : row.balanceAfter = st.quantityOf row.key + row.quantity) :
    Book.Posts st.book (st.post row).book := by
  have hpost : (st.post row).book = st.book.post row.key row.quantity := by
    unfold book Book.post
    congr 1
    · simp [entry, h]
    · funext k
      by_cases hk : row.key = k
      · subst hk
        simp [h]
      · simp [hk, Function.update_of_ne (Ne.symm hk)]
  rw [hpost]
  exact Book.posts_post _ _ _

end Stock

/-! ## Routing fabric to the workshop -/

/-- `configured_shared_fabric_warehouse`: the workshop warehouse, when it is usable. -/
def configuredSharedFabricWarehouse (s : State) : Option ℕ := do
  let id ← s.tenant.settings.sharedFabricWarehouse
  let warehouse ← s.tenant.warehouses[id]?
  let branch ← s.tenant.branches[← warehouse.branch]?
  if warehouse.isActive && branch.isActive && branch.usageType == .workshopStock then
    some id
  else
    none

/-- `stock_warehouse_for_sale_product`: meter tailoring stock is kept at the workshop. -/
def stockWarehouseForSaleProduct (s : State) (saleWarehouse : ℕ) (product : Product) :
    Except PosError ℕ :=
  if !product.isMeterTailoring then
    .ok saleWarehouse
  else
    match configuredSharedFabricWarehouse s with
    | some shared => .ok shared
    | none =>
      if s.tenant.settings.sharedFabricWarehouse.isSome then
        .error (.validation "The configured Shared Fabric Location is unavailable.")
      else
        .ok saleWarehouse

/-! ## One movement -/

/-- The arguments of `record_movement`. -/
structure Movement where
  key : StockKey
  movementType : MovementType
  quantity : ℚ
  unitCost : ℚ := 0
  reference : Reference
  user : ℕ
  enforcePolicy : Bool := true
  /-- Copied into the row's history variable. -/
  saleItem : Option ℕ := none

/-- `METER_PARENT_REPAIR_TYPES`. -/
def isMeterParentRepair : MovementType → Bool
  | .adjustIn | .adjustOut | .count | .damage | .wastage | .internal => true
  | _ => false

/-- The variant a key names, which must be one of the product's own. -/
def variantOf (s : State) (product : ℕ) (variant : Option ℕ) (e : PosError) :
    Except PosError (Option ProductVariant) :=
  match variant with
  | none => .ok none
  | some id =>
    match s.catalog.variants[id]? with
    | some v => if v.product = product then .ok (some v) else .error e
    | none => .error e

/-- A fabric product sold by the metre is only stocked through its variants. -/
def isMeterVariantParent (product : Product) (variant : Option ℕ) : Bool :=
  product.isMeterTailoring && product.hasVariants && variant.isNone

/-- The checks of `record_movement` and the ledger row they admit. -/
def movementRow (m : Movement) (s : State) : Except PosError StockMovement := do
  let quantity := qty m.quantity
  require (quantity ≠ 0) (.validation "Stock movement quantity cannot be zero.")
  require (s.tenant.warehouses[m.key.warehouse]?).isSome
    (.validation "Cross-tenant stock movement blocked.")
  let product ← found s.catalog.products[m.key.product]? .notFound
  let variant ← variantOf s m.key.product m.key.variant
    (.validation "Variant does not belong to product.")
  let level := s.stock.quantityOf m.key
  let newQuantity := level + quantity
  require (!isMeterVariantParent product m.key.variant ||
      (level ≠ 0 && newQuantity = 0 && isMeterParentRepair m.movementType))
    (.validation (s!"Select a variant/color for {product.name}. A legacy parent balance " ++
      "may only be corrected exactly to zero."))
  require (!(quantity < 0 && newQuantity < 0 && m.enforcePolicy && m.movementType ≠ .count &&
      s.tenant.settings.negativeStockPolicy = .block))
    (.insufficientStock (displayName product variant) level (-quantity))
  return {
    key := m.key
    movementType := m.movementType
    quantity := quantity
    unitCost := money m.unitCost
    balanceAfter := newQuantity
    reference := m.reference
    user := m.user
    saleItem := m.saleItem }

/-! ## Moving-average cost -/

/-- Rewrite the `average_cost` of the variant, or of the product when there is none. -/
def Catalog.setAverageCost (c : Catalog) (k : StockKey) (cost : ℤ) : Catalog :=
  match k.variant with
  | some v => { c with variants := c.variants.modify v ({ · with averageCost := cost }) }
  | none => { c with products := c.products.modify k.product ({ · with averageCost := cost }) }

/-- `target.average_cost` of a stock key. -/
def Catalog.averageCost (c : Catalog) (k : StockKey) : ℤ :=
  match k.variant with
  | some v => (c.variants[v]?.map ProductVariant.averageCost).getD 0
  | none => (c.products[k.product]?.map Product.averageCost).getD 0

/-- The new average after `inQty` came in at `inCost`; `totalQty` already includes it. -/
def newAverageCost (totalQty : ℤ) (oldCost : ℤ) (inQty : ℤ) (inCost : ℚ) : ℚ :=
  let existing := max 0 (totalQty - inQty)
  let denom := existing + inQty
  if denom ≤ 0 then
    inCost
  else
    (dec existing * dec oldCost + dec inQty * inCost) / dec denom

/-- `_update_average_cost`. -/
def updateAverageCost (k : StockKey) (inQty : ℤ) (inCost : ℚ) (s : State) : State :=
  let average := newAverageCost (s.stock.total k.product k.variant) (s.catalog.averageCost k)
    inQty inCost
  { s with catalog := s.catalog.setAverageCost k (money average) }

/-- `INBOUND_AVERAGES_COST`. -/
def averagesCost : MovementType → Bool
  | .opening | .purchase => true
  | _ => false

/-! ## The service -/

/-- The writes of `record_movement` for an admitted row. -/
def applyMovement (m : Movement) (row : StockMovement) (s : State) : State :=
  let s' := { s with stock := s.stock.post row }
  if averagesCost m.movementType && row.quantity > 0 && m.unitCost ≠ 0 then
    updateAverageCost m.key row.quantity m.unitCost s'
  else
    s'

/-- `record_movement`. -/
def recordMovement (m : Movement) : Service Unit := do
  let row ← reads (movementRow m)
  modify (applyMovement m row)

/-- A line that may have no stock effect. -/
def recordOptional : Option Movement → Service Unit
  | none => pure ()
  | some m => recordMovement m

/-! ## What a movement does -/

/-- The row repeats what was asked for. -/
structure RowFor (m : Movement) (row : StockMovement) : Prop where
  key : row.key = m.key
  movementType : row.movementType = m.movementType
  quantity : row.quantity = qty m.quantity
  reference : row.reference = m.reference
  saleItem : row.saleItem = m.saleItem
  quantity_ne_zero : row.quantity ≠ 0

/-- What a ledger row says about where goods went and on whose account. -/
structure Posting where
  key : StockKey
  movementType : MovementType
  quantity : ℤ
  reference : Reference
  saleItem : Option ℕ := none
  deriving DecidableEq, Repr

def StockMovement.posting (row : StockMovement) : Posting where
  key := row.key
  movementType := row.movementType
  quantity := row.quantity
  reference := row.reference
  saleItem := row.saleItem

/-- What a movement asks the ledger to say. -/
def Movement.posting (m : Movement) : Posting where
  key := m.key
  movementType := m.movementType
  quantity := qty m.quantity
  reference := m.reference
  saleItem := m.saleItem

lemma RowFor.posting_eq {m : Movement} {row : StockMovement} (h : RowFor m row) :
    row.posting = m.posting := by
  unfold StockMovement.posting Movement.posting
  rw [h.key, h.movementType, h.quantity, h.reference, h.saleItem]

lemma postings_eq {ms : List Movement} {rows : List StockMovement}
    (h : List.Forall₂ RowFor ms rows) :
    rows.map StockMovement.posting = ms.map Movement.posting := by
  induction h with
  | nil => rfl
  | cons hrow _ ih => rw [List.map_cons, List.map_cons, hrow.posting_eq, ih]

/-- An admitted row repeats the request, continues the balance of its key, and respects the
`block` policy wherever the movement is subject to it. -/
structure Admitted (m : Movement) (s : State) (row : StockMovement) : Prop extends
    RowFor m row where
  balanceAfter : row.balanceAfter = s.stock.quantityOf row.key + row.quantity
  policy : row.quantity < 0 → m.enforcePolicy = true → m.movementType ≠ .count →
    s.tenant.settings.negativeStockPolicy = .block → 0 ≤ row.balanceAfter

lemma admitted_of_movementRow {m : Movement} {s : State} {row : StockMovement}
    (h : movementRow m s = .ok row) : Admitted m s row := by
  unfold movementRow at h
  simp only [except_bind_eq_ok, require_eq_ok, pure, Except.pure, Except.ok.injEq,
    decide_eq_true_eq] at h
  obtain ⟨-, hne, -, -, product, -, variant, -, -, -, -, hpolicy, rfl⟩ := h
  refine ⟨⟨rfl, rfl, rfl, rfl, rfl, hne⟩, rfl, fun hneg henf htype hblock => ?_⟩
  dsimp only at hneg ⊢
  by_contra hlt
  simp [hneg, henf, htype, hblock, not_le.mp hlt] at hpolicy

/-- A catalogue with its cost caches blanked. -/
def Catalog.shape (c : Catalog) : Catalog where
  products := c.products.map ({ · with averageCost := 0 })
  variants := c.variants.map ({ · with averageCost := 0 })

lemma Catalog.shape_setAverageCost (c : Catalog) (k : StockKey) (cost : ℤ) :
    (c.setAverageCost k cost).shape = c.shape := by
  unfold Catalog.setAverageCost Catalog.shape
  cases k.variant with
  | none =>
    simp only [Catalog.mk.injEq, and_true]
    refine map_modify_of_eq ?_ _ _
    intro _
    rfl
  | some v =>
    simp only [Catalog.mk.injEq, true_and]
    refine map_modify_of_eq ?_ _ _
    intro _
    rfl

/-- Everything outside the stock tables, up to the cost caches of the catalogue. -/
def State.rest (s : State) :
    Tenant × Catalog × Parties × Documents × SalesTables × PurchaseTables :=
  (s.tenant, s.catalog.shape, s.parties, s.documents, s.sales, s.purchases)

lemma documents_of_rest {s t : State} (h : t.rest = s.rest) : t.documents = s.documents :=
  congrArg (fun r => r.2.2.2.1) h

lemma parties_of_rest {s t : State} (h : t.rest = s.rest) : t.parties = s.parties :=
  congrArg (fun r => r.2.2.1) h

lemma purchases_of_rest {s t : State} (h : t.rest = s.rest) : t.purchases = s.purchases :=
  congrArg (fun r => r.2.2.2.2.2) h

lemma sales_of_rest {s t : State} (h : t.rest = s.rest) : t.sales = s.sales :=
  congrArg (fun r => r.2.2.2.2.1) h

@[simp] lemma stock_applyMovement (m : Movement) (row : StockMovement) (s : State) :
    (applyMovement m row s).stock = s.stock.post row := by
  unfold applyMovement updateAverageCost
  split <;> rfl

@[simp] lemma rest_applyMovement (m : Movement) (row : StockMovement) (s : State) :
    (applyMovement m row s).rest = s.rest := by
  unfold applyMovement updateAverageCost State.rest
  split
  · simp only [Catalog.shape_setAverageCost]
  · rfl

/-- A movement posts one admitted row and touches nothing else but a cost cache. -/
lemma runs_recordMovement {m : Movement} {s t : State} {u : Unit}
    (h : Runs (recordMovement m) s u t) :
    ∃ row, Admitted m s row ∧ t.stock = s.stock.post row ∧ t.rest = s.rest := by
  unfold recordMovement at h
  simp only [runs_bind, runs_reads, runs_modify] at h
  obtain ⟨row, _, ⟨hrow, rfl⟩, rfl⟩ := h
  exact ⟨row, admitted_of_movementRow hrow, stock_applyMovement m row _,
    rest_applyMovement m row _⟩

/-- The step relation of the stock ledger. -/
def Posted (s t : State) : Prop := Book.Posts s.stock.book t.stock.book

instance : IsPreorder State Posted where
  refl s := refl (r := Book.Posts) s.stock.book
  trans _ _ _ h₁ h₂ := IsTrans.trans (r := Book.Posts) _ _ _ h₁ h₂

lemma posted_of_stock_eq {s t : State} (h : t.stock = s.stock) : Posted s t := by
  unfold Posted
  rw [h]
  exact refl _

lemma within_recordMovement (m : Movement) : Within Posted (recordMovement m) := by
  intro s u t h
  obtain ⟨row, hrow, hstock, -⟩ := runs_recordMovement h
  unfold Posted
  rw [hstock]
  exact Stock.posts_book_post _ _ hrow.balanceAfter

/-- A movement leaves the other tables alone. -/
lemma within_rest_recordMovement (m : Movement) :
    Within (Frame State.rest) (recordMovement m) := by
  intro s u t h
  obtain ⟨-, -, -, hrest⟩ := runs_recordMovement h
  exact hrest

/-- The movement of a line that may have none. -/
lemma eq_of_mem_ite {b : Bool} {m x : Movement}
    (h : x ∈ (if b = true then some m else none : Option Movement)) : x = m := by
  split at h
  · exact (Option.some.inj h).symm
  · exact nomatch h

/-- It keeps its reference type. -/
lemma type_of_mem_ite {b : Bool} {m x : Movement} {ty : ReferenceType}
    (h : x ∈ (if b = true then some m else none : Option Movement)) (hm : m.reference.type = ty) :
    x.reference.type = ty := by
  obtain rfl := eq_of_mem_ite h
  exact hm

lemma within_recordOptional {R : State → State → Prop} [IsPreorder State R]
    {m : Option Movement} (hm : ∀ x ∈ m, Within R (recordMovement x)) :
    Within R (recordOptional m) := by
  cases m with
  | none => exact within_pure
  | some m => exact hm m rfl

/-- The rows were appended to the ledger, and the total stocks moved by them. -/
structure Moved (rows : List StockMovement) (s t : State) : Prop where
  movements : t.stock.movements = s.stock.movements ++ rows
  total : ∀ product variant, t.stock.total product variant =
    s.stock.total product variant + Stock.productTotal rows product variant
  rest : t.rest = s.rest

lemma Moved.nil (s : State) : Moved [] s s := ⟨by simp, by simp, rfl⟩

/-- A list of movements appends one row for each, in order. -/
lemma runs_forM_recordMovement {ms : List Movement} {s t : State} {u : Unit}
    (h : Runs (ms.forM recordMovement) s u t) :
    ∃ rows, List.Forall₂ RowFor ms rows ∧ Moved rows s t := by
  induction ms generalizing s with
  | nil =>
    rw [runs_forM_nil] at h
    subst h
    exact ⟨[], .nil, .nil t⟩
  | cons m ms ih =>
    obtain ⟨v, h₁, h₂⟩ := runs_forM_cons.mp h
    obtain ⟨row, hrow, hstock, hrest⟩ := runs_recordMovement h₁
    obtain ⟨rows, hrows, hmoved⟩ := ih h₂
    refine ⟨row :: rows, .cons hrow.toRowFor hrows, ?_, fun product variant => ?_,
      hmoved.rest.trans hrest⟩
    · rw [hmoved.movements, hstock, Stock.movements_post, List.append_assoc,
        List.singleton_append]
    · rw [hmoved.total, hstock, Stock.total_post _ _ hrow.balanceAfter,
        Stock.productTotal_cons, add_assoc]

end NexaPos
