import NexaPos.Inventory.Services

/-!
# Purchases

Goods are ordered, received in parts, and sent back.  Stock and the supplier's payable move when
goods are received, by the received value, and the extra charges are added by the receipt that
completes the order.
-/

namespace NexaPos

open Tx

/-! ## Guards -/

/-- `_ensure_purchases_scope`: the location must be in the member's scope. -/
def ensurePurchasesScope (c : Call) (s : State) (branch warehouse : ℕ) : Except PosError Unit :=
  require (c.actor.canAccessBranch branch && c.actor.canAccessWarehouse warehouse &&
    (s.tenant.warehouses[warehouse]?).any fun w => w.branch.all (· = branch)) .notFound

/-- `_authorized_purchase`. -/
def authorizedPurchase (c : Call) (purchase : ℕ) (s : State) : Except PosError Purchase := do
  let row ← found s.purchases.purchases[purchase]? .notFound
  requireActorAccess c .purchases "purchases.manage"
  ensurePurchasesScope c s row.branch row.warehouse
  return row

/-- The requested quantity of a purchase line; a line that is not named is not touched. -/
def requestedQuantity (quantities : List (ℕ × ℚ)) (item : ℕ) : ℚ :=
  ((quantities.find? fun q => q.1 = item).map Prod.snd).getD 0

/-- Lines of a purchase, with their keys. -/
def itemsOfPurchase (s : State) (purchase : ℕ) : List (ℕ × PurchaseItem) :=
  childrenOf PurchaseItem.purchase s.purchases.items purchase

/-- `_positive_requested_ids(quantities).issubset(locked_item_ids)`. -/
def requestsOnlyItemsOf (s : State) (purchase : ℕ) (quantities : List (ℕ × ℚ)) : Bool :=
  quantities.all fun q => q.2 ≤ 0 ||
    (s.purchases.items[q.1]?).any fun i => i.purchase = purchase

/-- Tailoring products need their own permission. -/
def requireTailoringPurchase (c : Call) (s : State) (products : List ℕ) :
    Except PosError Unit :=
  if products.any fun p => (s.catalog.products[p]?).any Product.isTailoringItem then
    requireActorAccess c .tailoring "purchases.manage"
  else
    .ok ()

/-! ## Ordering -/

/-- One requested row of a purchase. -/
structure PurchaseRow where
  product : ℕ
  variant : Option ℕ := none
  quantity : ℚ
  unitCost : ℚ := 0

/-- The arguments of `create_purchase`. -/
structure PurchaseRequest where
  supplier : ℕ
  branch : ℕ
  warehouse : ℕ
  rows : List PurchaseRow
  discount : ℚ := 0
  shipping : ℚ := 0
  other : ℚ := 0

/-- One validated row: the stored line, still without its purchase. -/
def validatePurchaseRow (s : State) (purchase : ℕ) (row : PurchaseRow) :
    Except PosError PurchaseItem := do
  let product ← found s.catalog.products[row.product]? .notFound
  let variant ← variantOf s row.product row.variant .notFound
  require (0 < row.quantity) (.validation "Purchase quantities must be positive.")
  let cost := money row.unitCost
  require (0 ≤ cost) (.validation "Purchase unit costs cannot be negative.")
  require (!isMeterVariantParent product row.variant)
    (.validation s!"Select a variant/color for {product.name}.")
  return {
    purchase := purchase
    product := row.product
    variant := row.variant
    productName := displayName product variant
    quantityOrdered := qty row.quantity
    unitCost := cost
    lineTotal := money (row.quantity * dec cost) }

/-- The checks of `create_purchase`: the purchase row and its lines. -/
def checkPurchase (c : Call) (r : PurchaseRequest) (s : State) :
    Except PosError (Purchase × List PurchaseItem) := do
  requireActorAccess c .purchases "purchases.manage"
  require (!r.rows.isEmpty) (.validation "Enter at least one purchase item.")
  let supplier ← found s.parties.suppliers[r.supplier]? .notFound
  let branch ← found s.tenant.branches[r.branch]? .notFound
  let warehouse ← found s.tenant.warehouses[r.warehouse]? .notFound
  require (supplier.isActive && branch.isActive && warehouse.isActive)
    (.validation ("Purchase supplier and location must be active and belong to this " ++
      "business."))
  ensurePurchasesScope c s r.branch r.warehouse
  let discount := money r.discount
  let shipping := money r.shipping
  let other := money r.other
  require (0 ≤ discount && 0 ≤ shipping && 0 ≤ other)
    (.validation "Purchase adjustments cannot be negative.")
  let items ← r.rows.mapM (validatePurchaseRow s s.purchases.purchases.length)
  requireTailoringPurchase c s (r.rows.map PurchaseRow.product)
  let subtotal := (items.map PurchaseItem.lineTotal).sum
  let total := subtotal - discount + shipping + other
  require (0 ≤ total) (.validation "Purchase total cannot be negative.")
  return ({
    purchaseNumber := nextNumber (s.purchases.purchases.map Purchase.purchaseNumber)
    supplier := r.supplier
    branch := r.branch
    warehouse := r.warehouse
    subtotal := subtotal
    discountAmount := discount
    shippingCost := shipping
    otherCharges := other
    total := total }, items)

/-- `create_purchase`. -/
def createPurchase (c : Call) (r : PurchaseRequest) : Service Unit := do
  let (purchase, items) ← reads (checkPurchase c r)
  modify fun s => { s with
    purchases.purchases := s.purchases.purchases ++ [purchase]
    purchases.items := s.purchases.items ++ items }

/-! ## Receiving -/

/-- Rewrite one supplier's payable. -/
def changeSupplierBalance (supplier : ℕ) (delta : ℤ) (s : State) : State :=
  { s with
    parties.suppliers := s.parties.suppliers.modify supplier
      fun x => { x with balance := x.balance + delta } }

/-- The purchase price of a line's product or variant, as it was locked. -/
def purchasePriceOf (s : State) (item : PurchaseItem) : ℤ :=
  match item.variant with
  | some v => (s.catalog.variants[v]?.map ProductVariant.purchasePrice).getD 0
  | none => (s.catalog.products[item.product]?.map Product.purchasePrice).getD 0

/-- Keep the latest purchase price on the product or variant. -/
def setPurchasePrice (item : PurchaseItem) (s : State) : State :=
  match item.variant with
  | some v =>
    { s with
      catalog.variants := s.catalog.variants.modify v
        ({ · with purchasePrice := item.unitCost }) }
  | none =>
    { s with
      catalog.products := s.catalog.products.modify item.product
        ({ · with purchasePrice := item.unitCost }) }

/-- The goods of a line come in or go back. -/
def purchaseMovement (c : Call) (purchase : Purchase) (movementType : MovementType)
    (reference : Reference) (item : PurchaseItem) (quantity : ℚ) : Movement where
  key := ⟨purchase.warehouse, item.product, item.variant⟩
  movementType := movementType
  quantity := quantity
  unitCost := dec item.unitCost
  reference := reference
  user := c.actor.user

/-- One iteration of the receiving loop; the rows were locked in the state `s₀`.  Returns the
received value, if anything was received. -/
def receiveLine (c : Call) (s₀ : State) (purchase : Purchase) (quantities : List (ℕ × ℚ))
    (received : Option ℤ) (entry : ℕ × PurchaseItem) : Service (Option ℤ) :=
  let (id, item) := entry
  let quantity := requestedQuantity quantities id
  if quantity ≤ 0 then
    pure received
  else do
    check (quantity ≤ dec item.quantityPending)
      (.cannotReceive quantity item.productName item.quantityPending)
    let product ← reads fun _ => found s₀.catalog.products[item.product]? .notFound
    check (!isMeterVariantParent product item.variant)
      (.validation s!"Select a variant/color for {product.name} before receipt.")
    recordOptional (if product.isStocked then
      some (purchaseMovement c purchase .purchase (.purchase purchase.purchaseNumber) item
        quantity) else none)
    -- the comparison is with the row as it was locked, not with what this call already wrote
    modify fun s =>
      if purchasePriceOf s₀ item = item.unitCost then s else setPurchasePrice item s
    modify fun s => { s with
      purchases.items := s.purchases.items.modify id
        ({ · with quantityReceived := qty (dec item.quantityReceived + quantity) }) }
    return some (received.getD 0 + money (quantity * dec item.unitCost))

/-- The order is fully received. -/
def isFullyReceived (s : State) (purchase : ℕ) : Bool :=
  let items := (itemsOfPurchase s purchase).map Prod.snd
  decide ((items.map PurchaseItem.quantityOrdered).sum ≤
    (items.map PurchaseItem.quantityReceived).sum)

/-- The payable and the status after a receipt of the given value. -/
def finishReceipt (id : ℕ) (purchase : Purchase) (value : ℤ) (s : State) : State :=
  let fully := isFullyReceived s id
  let extra := if fully then
    purchase.shippingCost + purchase.otherCharges - purchase.discountAmount else 0
  let s := changeSupplierBalance purchase.supplier (value + extra) s
  { s with
    purchases.purchases := s.purchases.purchases.modify id
      ({ · with status := if fully then .received else .partiallyReceived }) }

/-- `receive_purchase`. -/
def receivePurchase (c : Call) (purchase : ℕ) (quantities : List (ℕ × ℚ)) : Service Unit := do
  let row ← reads (authorizedPurchase c purchase)
  check (row.status ≠ .cancelled) (.validation "Cancelled purchases cannot be received.")
  let s ← get
  check (requestsOnlyItemsOf s purchase quantities) .notFound
  let items := itemsOfPurchase s purchase
  reads fun s => requireTailoringPurchase c s
    ((items.filter fun i => 0 < requestedQuantity quantities i.1).map fun i => i.2.product)
  match ← items.foldlM (receiveLine c s row quantities) none with
  | none => throw (.validation "Enter at least one quantity to receive.")
  | some value => modify (finishReceipt purchase row value)

/-! ## Sending back -/

/-- The rows that `_locked_returned_quantities` locks: those of the purchase's returns, and those
of its lines. -/
def returnItemsOfPurchase (s : State) (purchase : ℕ) : List PurchaseReturnItem :=
  s.purchases.returnItems.filter fun r =>
    (s.purchases.returns[r.purchaseReturn]?).any (·.purchase = purchase) ||
      (s.purchases.items[r.purchaseItem]?).any (·.purchase = purchase)

/-- The checks of `_locked_returned_quantities`: the returns are from the purchase's supplier and
warehouse, the rows belong to them and to the purchase's lines, and none is stored as zero. -/
def requireOwnReturns (s : State) (id : ℕ) (purchase : Purchase) : Except PosError Unit := do
  require ((s.purchases.returns.filter fun r => r.purchase = id).all fun r =>
    r.supplier = purchase.supplier && r.warehouse = purchase.warehouse) .notFound
  require ((returnItemsOfPurchase s id).all fun r =>
    (s.purchases.returns[r.purchaseReturn]?).any (·.purchase = id) &&
      (s.purchases.items[r.purchaseItem]?).any (·.purchase = id) && 0 < r.quantity) .notFound

/-- The quantity that `_locked_returned_quantities` returns for a line. -/
def sentBack (s : State) (item : ℕ) : ℤ :=
  ((s.purchases.returnItems.filter fun r => r.purchaseItem = item).map
    PurchaseReturnItem.quantity).sum

/-- One line of `return_purchase`, when a positive quantity is requested. -/
def checkSendBack (s : State) (quantities : List (ℕ × ℚ)) (entry : ℕ × PurchaseItem) :
    Except PosError (Option ((ℕ × PurchaseItem) × ℚ)) := do
  let quantity := requestedQuantity quantities entry.1
  if quantity ≤ 0 then
    return none
  else
    let returnable := entry.2.quantityReceived - sentBack s entry.1
    require (quantity ≤ dec returnable)
      (.cannotSendBack quantity entry.2.productName returnable)
    return some (entry, quantity)

/-- The value of the goods sent back. -/
def sendBackValue (e : (ℕ × PurchaseItem) × ℚ) : ℤ := money (e.2 * dec e.1.2.unitCost)

/-- One iteration of the return loop. -/
def sendBackLine (c : Call) (purchase : Purchase) (purchaseReturn number : ℕ)
    (e : (ℕ × PurchaseItem) × ℚ) : Service Unit := do
  let row : PurchaseReturnItem := {
    purchaseReturn := purchaseReturn
    purchaseItem := e.1.1
    quantity := qty e.2
    unitCost := e.1.2.unitCost
    lineTotal := sendBackValue e }
  modify fun s => { s with purchases.returnItems := s.purchases.returnItems ++ [row] }
  let product ← reads fun s => found s.catalog.products[e.1.2.product]? .notFound
  recordOptional (if product.isStocked then
    some (purchaseMovement c purchase .purchaseReturn (.purchaseReturn number) e.1.2 (-e.2))
    else none)

/-- `return_purchase`. -/
def returnPurchase (c : Call) (purchase : ℕ) (quantities : List (ℕ × ℚ)) : Service Unit := do
  let row ← reads (authorizedPurchase c purchase)
  let s ← get
  check (requestsOnlyItemsOf s purchase quantities) .notFound
  reads fun s => requireOwnReturns s purchase row
  let lines ← reads fun s => (itemsOfPurchase s purchase).mapM (checkSendBack s quantities)
  let items := lines.filterMap id
  check (!items.isEmpty) (.validation "Enter at least one quantity to return.")
  reads fun s => requireTailoringPurchase c s (items.map fun e => e.1.2.product)
  let total := (items.map sendBackValue).sum
  let number := nextNumber (s.purchases.returns.map PurchaseReturn.returnNumber)
  let header : PurchaseReturn := {
    returnNumber := number
    purchase := purchase
    supplier := row.supplier
    warehouse := row.warehouse
    total := total
    processedBy := c.actor.user }
  modify fun s => { s with purchases.returns := s.purchases.returns ++ [header] }
  items.forM (sendBackLine c row s.purchases.returns.length number)
  modify (changeSupplierBalance row.supplier (-total))

/-! ## Footprints -/

section Footprint

variable {R : State → State → Prop} [IsPreorder State R]

lemma within_createPurchase (hb : ∀ s x, R s { s with purchases := x }) (c : Call)
    (r : PurchaseRequest) : Within R (createPurchase c r) :=
  within_bind within_reads fun ⟨_, _⟩ => within_modify fun s => hb s _

omit [IsPreorder State R] in
lemma setPurchasePrice_within (hc : ∀ s x, R s { s with catalog := x }) (item : PurchaseItem)
    (s : State) : R s (setPurchasePrice item s) := by
  unfold setPurchasePrice
  split
  · exact hc s _
  · exact hc s _

lemma within_receiveLine
    (hm : ∀ m, m.movementType = .purchase → m.reference.type = .purchase →
      Within R (recordMovement m))
    (hc : ∀ s item, R s (setPurchasePrice item s)) (hb : ∀ s x, R s { s with purchases := x })
    (c : Call) (s₀ : State) (purchase : Purchase) (quantities : List (ℕ × ℚ))
    (received : Option ℤ) (entry : ℕ × PurchaseItem) :
    Within R (receiveLine c s₀ purchase quantities received entry) := by
  obtain ⟨id, item⟩ := entry
  refine within_ite (fun _ => within_pure) fun _ => ?_
  refine within_bind within_check fun _ => within_bind within_reads fun product => ?_
  refine within_bind within_check fun _ => ?_
  refine within_bind (within_recordOptional fun m h => ?_) fun _ => ?_
  · obtain rfl := eq_of_mem_ite h
    exact hm _ rfl rfl
  · refine within_bind (within_modify fun s => ?_) fun _ =>
      within_bind (within_modify fun s => hb s _) fun _ => within_pure
    split
    · exact refl s
    · exact hc s item

lemma within_receivePurchase
    (hm : ∀ m, m.movementType = .purchase → m.reference.type = .purchase →
      Within R (recordMovement m))
    (hc : ∀ s item, R s (setPurchasePrice item s)) (hb : ∀ s x, R s { s with purchases := x })
    (hsup : ∀ s x, R s { s with parties.suppliers := x }) (c : Call) (purchase : ℕ)
    (quantities : List (ℕ × ℚ)) : Within R (receivePurchase c purchase quantities) := by
  refine within_bind within_reads fun row => within_bind within_check fun _ => ?_
  refine within_bind within_get fun s => within_bind within_check fun _ => ?_
  refine within_bind within_reads fun _ => ?_
  refine within_bind (within_foldlM (within_receiveLine hm hc hb c s row quantities) _ _)
    fun value => ?_
  cases value with
  | none => exact within_throw
  | some value =>
    exact within_modify fun s => IsTrans.trans _ _ _ (hsup s _) (hb _ _)

lemma within_sendBackLine
    (hm : ∀ m, m.movementType = .purchaseReturn → m.reference.type = .purchaseReturn →
      Within R (recordMovement m))
    (hb : ∀ s x, R s { s with purchases := x }) (c : Call) (purchase : Purchase)
    (purchaseReturn number : ℕ) (e : (ℕ × PurchaseItem) × ℚ) :
    Within R (sendBackLine c purchase purchaseReturn number e) := by
  refine within_bind (within_modify fun s => hb s _) fun _ => ?_
  refine within_bind within_reads fun product => ?_
  refine within_recordOptional fun m h => ?_
  obtain rfl := eq_of_mem_ite h
  exact hm _ rfl rfl

lemma within_returnPurchase
    (hm : ∀ m, m.movementType = .purchaseReturn → m.reference.type = .purchaseReturn →
      Within R (recordMovement m))
    (hb : ∀ s x, R s { s with purchases := x })
    (hsup : ∀ s x, R s { s with parties.suppliers := x }) (c : Call) (purchase : ℕ)
    (quantities : List (ℕ × ℚ)) : Within R (returnPurchase c purchase quantities) := by
  refine within_bind within_reads fun row => within_bind within_get fun s => ?_
  refine within_bind within_check fun _ => within_bind within_reads fun _ => ?_
  refine within_bind within_reads fun lines => within_bind within_check fun _ => ?_
  refine within_bind within_reads fun _ => within_bind (within_modify fun s => hb s _) fun _ => ?_
  refine within_bind (within_forM fun e _ => within_sendBackLine hm hb c row _ _ e) fun _ => ?_
  exact within_modify fun s => hsup s _

end Footprint

/-! ## What an accepted call did -/

/-- The lines a call asks a quantity of. -/
def askedLines (quantities : List (ℕ × ℚ)) (lines : List (ℕ × PurchaseItem)) :
    List (ℕ × PurchaseItem) :=
  lines.filter fun e => 0 < requestedQuantity quantities e.1

/-- The value of the quantity a call asks of a line. -/
def goodsValue (quantities : List (ℕ × ℚ)) (e : ℕ × PurchaseItem) : ℤ :=
  money (requestedQuantity quantities e.1 * dec e.2.unitCost)

/-- A line after its quantity came in. -/
def receivedItem (quantities : List (ℕ × ℚ)) (line : ℕ) (item : PurchaseItem) : PurchaseItem :=
  { item with
    quantityReceived := qty (dec item.quantityReceived + requestedQuantity quantities line) }

/-- The tables that a receipt leaves alone. -/
def PurchaseTables.returnTables (p : PurchaseTables) :
    List PurchaseReturn × List PurchaseReturnItem × List SupplierPayment :=
  (p.returns, p.returnItems, p.payments)

/-- The charges that the completing receipt adds. -/
def Purchase.charges (p : Purchase) : ℤ := p.shippingCost + p.otherCharges - p.discountAmount

lemma setPurchasePrice_kept (item : PurchaseItem) (s : State) :
    (setPurchasePrice item s).purchases = s.purchases ∧
      (setPurchasePrice item s).parties = s.parties := by
  unfold setPurchasePrice
  split <;> exact ⟨rfl, rfl⟩

lemma kept_recordOptional {m : Option Movement} {s t : State} {u : Unit}
    (h : Runs (recordOptional m) s u t) : t.purchases = s.purchases ∧ t.parties = s.parties := by
  have hrest : t.rest = s.rest :=
    within_recordOptional (R := Frame State.rest) (fun x _ => within_rest_recordMovement x) h
  exact ⟨purchases_of_rest hrest, parties_of_rest hrest⟩

/-- One iteration of the receiving loop. -/
lemma runs_receiveLine {c : Call} {s₀ u v : State} {purchase : Purchase}
    {quantities : List (ℕ × ℚ)} {received next : Option ℤ} {id : ℕ} {item : PurchaseItem}
    (h : Runs (receiveLine c s₀ purchase quantities received (id, item)) u next v) :
    requestedQuantity quantities id ≤ 0 ∧ next = received ∧ v = u ∨
    0 < requestedQuantity quantities id ∧
      requestedQuantity quantities id ≤ dec item.quantityPending ∧
      next = some (received.getD 0 + goodsValue quantities (id, item)) ∧
      v.parties = u.parties ∧
      v.purchases.purchases = u.purchases.purchases ∧
      v.purchases.returnTables = u.purchases.returnTables ∧
      v.purchases.items = u.purchases.items.modify id ({ · with
        quantityReceived := (receivedItem quantities id item).quantityReceived }) := by
  unfold receiveLine at h
  rcases runs_ite.mp h with ⟨hnone, h⟩ | ⟨hsome, h⟩
  · obtain ⟨rfl, rfl⟩ := runs_pure.mp h
    exact .inl ⟨hnone, rfl, rfl⟩
  · simp only [runs_bind, runs_check, runs_reads, runs_modify, runs_pure, decide_eq_true_eq] at h
    obtain ⟨_, _, ⟨hpending, rfl⟩, product, _, ⟨-, rfl⟩, _, _, ⟨-, rfl⟩, _, w, hmove, _, x, hx, _, y,
      hy, rfl, rfl⟩ := h
    obtain ⟨hpurchases, hparties⟩ := kept_recordOptional hmove
    have hprice : x.purchases = w.purchases ∧ x.parties = w.parties := by
      rw [hx]
      split
      · exact ⟨rfl, rfl⟩
      · exact setPurchasePrice_kept item w
    subst hy
    have hkept := hprice.1.trans hpurchases
    have hpurchase := congrArg PurchaseTables.purchases hkept
    have hothers := congrArg PurchaseTables.returnTables hkept
    have hitems := congrArg PurchaseTables.items hkept
    exact .inr ⟨not_le.mp hsome, hpending, rfl, hprice.2.trans hparties, hpurchase, hothers,
      congrArg (List.modify · id _) hitems⟩

/-- The receiving loop after the lines `done`. -/
structure ReceiptLoop (quantities : List (ℕ × ℚ)) (s : State) (done : List (ℕ × PurchaseItem))
    (received : Option ℤ) (u : State) : Prop where
  parties : u.parties = s.parties
  purchases : u.purchases.purchases = s.purchases.purchases
  others : u.purchases.returnTables = s.purchases.returnTables
  items : ∀ j, u.purchases.items[j]? = s.purchases.items[j]?.map fun i =>
    if j ∈ (askedLines quantities done).map Prod.fst then receivedItem quantities j i else i
  pending : ∀ e ∈ askedLines quantities done,
    requestedQuantity quantities e.1 ≤ dec e.2.quantityPending
  value : received = if askedLines quantities done = [] then none else
    some ((askedLines quantities done).map (goodsValue quantities)).sum

lemma ReceiptLoop.next {c : Call} {s u v : State} {purchase : Purchase}
    {quantities : List (ℕ × ℚ)} {done : List (ℕ × PurchaseItem)} {received next : Option ℤ}
    {id : ℕ} {item : PurchaseItem} (hitem : s.purchases.items[id]? = some item)
    (h : Runs (receiveLine c s purchase quantities received (id, item)) u next v)
    (hu : ReceiptLoop quantities s done received u) :
    ReceiptLoop quantities s (done ++ [(id, item)]) next v := by
  rcases runs_receiveLine h with
    ⟨hnone, rfl, rfl⟩ | ⟨hsome, hpending, rfl, hparties, hpurchases, hothers, hitems⟩
  · have hasked : askedLines quantities (done ++ [(id, item)]) = askedLines quantities done := by
      unfold askedLines
      rw [List.filter_append, List.filter_cons_of_neg (by simpa using hnone), List.filter_nil,
        List.append_nil]
    exact ⟨hu.parties, hu.purchases, hu.others, by rw [hasked]; exact hu.items,
      by rw [hasked]; exact hu.pending, by rw [hasked]; exact hu.value⟩
  · have hasked : askedLines quantities (done ++ [(id, item)]) =
        askedLines quantities done ++ [(id, item)] := by
      unfold askedLines
      rw [List.filter_append, List.filter_cons_of_pos (by simpa using hsome), List.filter_nil]
    refine ⟨hparties.trans hu.parties, hpurchases.trans hu.purchases, hothers.trans hu.others,
      ?_, ?_, ?_⟩
    · intro j
      rw [hitems, hasked, List.getElem?_modify, hu.items, List.map_append]
      by_cases hj : id = j
      · subst hj
        rw [hitem]
        -- the row is set to what was computed from the locked one, so a second write is the same
        by_cases hdone : id ∈ (askedLines quantities done).map Prod.fst <;>
          simp [hdone, receivedItem]
      · have hne : j ≠ id := fun h => hj h.symm
        cases s.purchases.items[j]? with
        | none => simp
        | some i =>
          simp only [Option.map_some, List.mem_append, List.map_cons, List.map_nil,
            List.mem_singleton, hj, hne, if_false, or_false]
          rfl
    · intro e he
      rw [hasked, List.mem_append, List.mem_singleton] at he
      rcases he with he | rfl
      · exact hu.pending e he
      · exact hpending
    · rw [hasked, if_neg (by simp), List.map_append, List.sum_append, hu.value]
      split
      · rename_i hempty
        simp [hempty]
      · simp

/-- An accepted `receive_purchase` of the purchase `row`. -/
structure PurchaseReceived (id : ℕ) (quantities : List (ℕ × ℚ)) (row : Purchase) (s t : State) :
    Prop where
  found : s.purchases.purchases[id]? = some row
  notCancelled : row.status ≠ .cancelled
  asked : askedLines quantities (itemsOfPurchase s id) ≠ []
  pending : ∀ e ∈ askedLines quantities (itemsOfPurchase s id),
    requestedQuantity quantities e.1 ≤ dec e.2.quantityPending
  items : ∀ j, t.purchases.items[j]? = s.purchases.items[j]?.map fun i =>
    if i.purchase = id ∧ 0 < requestedQuantity quantities j then receivedItem quantities j i else i
  purchases : t.purchases.purchases = s.purchases.purchases.modify id
    ({ · with status := if isFullyReceived t id then .received else .partiallyReceived })
  others : t.purchases.returnTables = s.purchases.returnTables
  suppliers : t.parties.suppliers = s.parties.suppliers.modify row.supplier fun x =>
    { x with balance := x.balance +
      (((askedLines quantities (itemsOfPurchase s id)).map (goodsValue quantities)).sum +
        if isFullyReceived t id then row.charges else 0) }

lemma authorizedPurchase_ok {c : Call} {purchase : ℕ} {s : State} {row : Purchase}
    (h : authorizedPurchase c purchase s = .ok row) :
    s.purchases.purchases[purchase]? = some row := by
  unfold authorizedPurchase at h
  simp only [except_bind_eq_ok, found_eq_ok, pure, Except.pure, Except.ok.injEq] at h
  obtain ⟨row', hrow, -, -, -, -, rfl⟩ := h
  exact hrow

lemma mem_askedLines {quantities : List (ℕ × ℚ)} {s : State} {id line : ℕ} {item : PurchaseItem} :
    (line, item) ∈ askedLines quantities (itemsOfPurchase s id) ↔
      (s.purchases.items[line]? = some item ∧ item.purchase = id) ∧
        0 < requestedQuantity quantities line := by
  unfold askedLines itemsOfPurchase
  rw [List.mem_filter, mem_childrenOf, decide_eq_true_eq]

theorem runs_receivePurchase {c : Call} {id : ℕ} {quantities : List (ℕ × ℚ)} {s t : State}
    {u : Unit} (h : Runs (receivePurchase c id quantities) s u t) :
    ∃ row, PurchaseReceived id quantities row s t := by
  unfold receivePurchase at h
  simp only [runs_bind, runs_check, runs_reads, runs_get, decide_eq_true_eq] at h
  obtain ⟨row, _, ⟨hrow, rfl⟩, _, _, ⟨hstatus, rfl⟩, _, _, ⟨rfl, rfl⟩, _, _, ⟨-, rfl⟩, _, s, ⟨-, rfl⟩,
    received, w, hloop, h⟩ := h
  have hstart : ReceiptLoop quantities s [] none s :=
    ⟨rfl, rfl, rfl, fun j => by simp [askedLines], by simp [askedLines], by simp [askedLines]⟩
  have hdone : ReceiptLoop quantities s (itemsOfPurchase s id) received w := by
    refine runs_foldlM_induct (I := ReceiptLoop quantities s) ?_ hloop hstart
    rintro done ⟨line, item⟩ b u₁ d u₂ hmem hrun hu
    exact hu.next (mem_childrenOf.mp hmem).1 hrun
  have hvalue := hdone.value
  cases received with
  | none => exact (runs_throw h).elim
  | some value =>
    obtain rfl := runs_modify.mp h
    have hasked : askedLines quantities (itemsOfPurchase s id) ≠ [] := by
      intro hempty
      rw [if_pos hempty] at hvalue
      cases hvalue
    rw [if_neg hasked, Option.some.injEq] at hvalue
    refine ⟨row, authorizedPurchase_ok hrow, hstatus, hasked, hdone.pending, ?_, ?_, ?_, ?_⟩
    · intro j
      change w.purchases.items[j]? = _
      rw [hdone.items]
      cases hitem : s.purchases.items[j]? with
      | none => rfl
      | some i =>
        have hiff : j ∈ (askedLines quantities (itemsOfPurchase s id)).map Prod.fst ↔
            i.purchase = id ∧ 0 < requestedQuantity quantities j := by
          constructor
          · intro hj
            obtain ⟨⟨line, item⟩, he, rfl⟩ := List.mem_map.mp hj
            obtain ⟨⟨hline, hof⟩, hpos⟩ := mem_askedLines.mp he
            obtain rfl : i = item := Option.some.inj (hitem.symm.trans hline)
            exact ⟨hof, hpos⟩
          · rintro ⟨hof, hpos⟩
            exact List.mem_map.mpr ⟨(j, i), mem_askedLines.mpr ⟨⟨hitem, hof⟩, hpos⟩, rfl⟩
        simp only [Option.map_some, hiff]
    · change w.purchases.purchases.modify id _ = _
      rw [hdone.purchases]
      rfl
    · exact hdone.others
    · change w.parties.suppliers.modify row.supplier _ = _
      rw [hdone.parties, hvalue]
      rfl

/-- The row of a return for one line. -/
def returnItemFor (purchaseReturn : ℕ) (e : (ℕ × PurchaseItem) × ℚ) : PurchaseReturnItem where
  purchaseReturn := purchaseReturn
  purchaseItem := e.1.1
  quantity := qty e.2
  unitCost := e.1.2.unitCost
  lineTotal := sendBackValue e

/-- The loop of a return appends its rows. -/
lemma runs_sendBackLines {c : Call} {purchase : Purchase} {purchaseReturn number : ℕ}
    {lines : List ((ℕ × PurchaseItem) × ℚ)} {s t : State} {u : Unit}
    (h : Runs (lines.forM (sendBackLine c purchase purchaseReturn number)) s u t) :
    t.parties = s.parties ∧
      t.purchases = { s.purchases with
        returnItems := s.purchases.returnItems ++ lines.map (returnItemFor purchaseReturn) } := by
  induction lines generalizing s with
  | nil =>
    obtain rfl := runs_forM_nil.mp h
    simp
  | cons e lines ih =>
    obtain ⟨w, hline, hrest⟩ := runs_forM_cons.mp h
    unfold sendBackLine at hline
    simp only [runs_bind, runs_modify, runs_reads] at hline
    obtain ⟨_, v, rfl, product, _, ⟨-, rfl⟩, hmove⟩ := hline
    obtain ⟨hpurchases, hparties⟩ := kept_recordOptional hmove
    obtain ⟨hparties', hpurchases'⟩ := ih hrest
    refine ⟨hparties'.trans hparties, ?_⟩
    rw [hpurchases', hpurchases]
    simp [returnItemFor]

/-- The lines that pass the check of a return: the asked ones, each within what is left. -/
lemma checkSendBack_ok {s : State} {quantities : List (ℕ × ℚ)} {lines : List (ℕ × PurchaseItem)}
    {rows : List (Option ((ℕ × PurchaseItem) × ℚ))}
    (h : lines.mapM (checkSendBack s quantities) = .ok rows) :
    rows.filterMap id =
        (askedLines quantities lines).map (fun e => (e, requestedQuantity quantities e.1)) ∧
      ∀ e ∈ askedLines quantities lines,
        requestedQuantity quantities e.1 ≤ dec (e.2.quantityReceived - sentBack s e.1) := by
  have hrows := mapM_eq_ok.mp h
  clear h
  unfold askedLines
  induction hrows with
  | nil => simp
  | @cons e row lines rows hrow _ ih =>
    unfold checkSendBack at hrow
    by_cases hnone : requestedQuantity quantities e.1 ≤ 0
    · rw [if_pos hnone] at hrow
      simp only [pure, Except.pure, Except.ok.injEq] at hrow
      subst hrow
      rw [List.filter_cons_of_neg (by simpa using hnone)]
      exact ih
    · rw [if_neg hnone] at hrow
      simp only [except_bind_eq_ok, require_eq_ok, decide_eq_true_eq, pure, Except.pure,
        Except.ok.injEq] at hrow
      obtain ⟨-, hle, rfl⟩ := hrow
      rw [List.filter_cons_of_pos (by simpa using hnone)]
      refine ⟨?_, ?_⟩
      · rw [List.filterMap_cons, ih.1]
        rfl
      · intro e' he'
        rcases List.mem_cons.mp he' with rfl | he'
        · exact hle
        · exact ih.2 e' he'

/-- An accepted `return_purchase` of the purchase `row`. -/
structure PurchaseSentBack (id : ℕ) (quantities : List (ℕ × ℚ)) (row : Purchase) (s t : State) :
    Prop where
  found : s.purchases.purchases[id]? = some row
  within : ∀ e ∈ askedLines quantities (itemsOfPurchase s id),
    requestedQuantity quantities e.1 ≤ dec (e.2.quantityReceived - sentBack s e.1)
  purchases : t.purchases.purchases = s.purchases.purchases
  items : t.purchases.items = s.purchases.items
  payments : t.purchases.payments = s.purchases.payments
  returnItems : t.purchases.returnItems = s.purchases.returnItems ++
    (askedLines quantities (itemsOfPurchase s id)).map fun e =>
      returnItemFor s.purchases.returns.length (e, requestedQuantity quantities e.1)
  suppliers : t.parties.suppliers = s.parties.suppliers.modify row.supplier fun x =>
    { x with balance := x.balance +
      -((askedLines quantities (itemsOfPurchase s id)).map (goodsValue quantities)).sum }

theorem runs_returnPurchase {c : Call} {id : ℕ} {quantities : List (ℕ × ℚ)} {s t : State}
    {u : Unit} (h : Runs (returnPurchase c id quantities) s u t) :
    ∃ row, PurchaseSentBack id quantities row s t := by
  unfold returnPurchase at h
  simp only [runs_bind, runs_check, runs_reads, runs_get, runs_modify] at h
  obtain ⟨row, _, ⟨hrow, rfl⟩, _, _, ⟨rfl, rfl⟩, _, _, ⟨-, rfl⟩, _, _, ⟨-, rfl⟩, lines, _,
    ⟨hlines, rfl⟩, _, _, ⟨-, rfl⟩, _, s, ⟨-, rfl⟩, _, v, rfl, _, w, hloop, rfl⟩ := h
  obtain ⟨hitems, hwithin⟩ := checkSendBack_ok hlines
  rw [hitems] at hloop
  obtain ⟨hparties, hpurchases⟩ := runs_sendBackLines hloop
  refine ⟨row, authorizedPurchase_ok hrow, hwithin, ?_, ?_, ?_, ?_, ?_⟩
  · have hkept := congrArg PurchaseTables.purchases hpurchases
    exact hkept
  · have hkept := congrArg PurchaseTables.items hpurchases
    exact hkept
  · have hkept := congrArg PurchaseTables.payments hpurchases
    exact hkept
  · change w.purchases.returnItems = _
    rw [hpurchases]
    exact congrArg (s.purchases.returnItems ++ ·) List.map_map
  · change w.parties.suppliers.modify row.supplier _ = _
    rw [hparties, hitems, List.map_map]
    rfl

end NexaPos
