import NexaPos.Sales.Cart
import NexaPos.Sales.InvoiceNumber
import NexaPos.Customers.Services

/-!
# Completing a sale

`complete_sale` runs in four stages, and so does the model.

* `checkoutContext` reloads the branch, warehouse, customer, register and shift and authorises
  the cashier; `replayedSale` answers a retry whose checkout token already has a sale.
* `prepareSale` validates the cart and the tenders and computes everything that will be stored.
  It reads and writes nothing else, so all its refusals leave the database alone.
* `createSale` numbers the invoice and inserts the sale row, in a savepoint of its own.
* `finishSale` writes the lines with their stock movements, the payments and the account changes.

`completeSale` puts them together, including the recovery from a lost race on the token.
-/

namespace NexaPos

open Tx

/-! ## The request -/

/-- One tender of the request. -/
structure PaymentInput where
  method : ℕ
  amount : ℚ

/-- The arguments of `complete_sale`. -/
structure CheckoutRequest where
  branch : ℕ
  warehouse : ℕ
  customer : ℕ
  register : Option ℕ := none
  shift : Option ℕ := none
  items : List CartLine
  payments : List PaymentInput
  invoiceDiscount : ℚ := 0
  salesperson : Option ℕ := none
  deliveryDate : Option ℤ := none
  priority : RawChoice Priority := .missing
  checkoutToken : Option Text := none

/-- `_require_tailoring_write`. -/
def requireTailoringWrite (c : Call) (permission : String) : Except PosError Unit :=
  requireActorAccess c .tailoring permission

/-- Ask for a guard only under a condition. -/
def requireWhen (b : Bool) (guard : Except PosError Unit) : Except PosError Unit :=
  if b then guard else .ok ()

/-! ## Authorisation -/

/-- `_validate_sale_context`. -/
def validateSaleContext (c : Call) (r : CheckoutRequest) (s : State) (branch : Branch)
    (warehouse : Warehouse) (customer : Customer) : Except PosError Unit := do
  require (branch.isActive && branch.usageType = .salesBranch) (SaleError "Invalid branch.")
  require warehouse.isActive (SaleError "Invalid warehouse.")
  require (warehouse.branch.all (· = r.branch))
    (SaleError "Warehouse does not belong to this branch.")
  require customer.isActive (SaleError "Invalid customer.")
  require (c.actor.hasPerm "sales.create")
    (SaleError "You do not have permission to complete sales.")
  require (c.actor.canAccessBranch r.branch) (SaleError "You cannot sell from this branch.")
  require (r.register.all fun id =>
      (s.tenant.registers[id]?).any fun x => x.branch = r.branch && x.isActive)
    (SaleError "Invalid or inactive register.")
  require (r.shift.all fun id => isOpenShiftAt c s r.branch id &&
      (s.tenant.shifts[id]?).any fun x => r.register = some x.register)
    (SaleError "Invalid open shift for this branch.")

/-- `_locked_checkout_context`: the customer row of an authorised checkout. -/
def checkoutContext (c : Call) (r : CheckoutRequest) (s : State) : Except PosError Customer := do
  requireActorAccess c .posCore "sales.create"
  let branch ← found s.tenant.branches[r.branch]? .scopeDenied
  require (c.actor.canAccessBranch r.branch) .scopeDenied
  let warehouse ← found s.tenant.warehouses[r.warehouse]? .scopeDenied
  let customer ← found s.parties.customers[r.customer]? .scopeDenied
  require (customer.homeBranch = some r.branch) .scopeDenied
  require (r.register.all fun id => (s.tenant.registers[id]?).isSome) .scopeDenied
  require (r.shift.all fun id => (s.tenant.shifts[id]?).isSome) .scopeDenied
  validateSaleContext c r s branch warehouse customer
  return customer

/-- `_clean_checkout_token`. -/
def cleanCheckoutToken (raw : Option Text) : Except PosError (Option Text) :=
  match raw.map Text.strip with
  | none => .ok none
  | some token =>
    if token = [] then
      .ok none
    else if 64 < token.length then
      .error (SaleError "Invalid checkout token.")
    else
      .ok (some token)

/-! ## Replays -/

/-- The sale that already carries a checkout token. -/
def saleWithToken (s : State) (token : Text) : Option ℕ :=
  s.sales.sales.findIdx? fun x => x.checkoutToken = some token

/-- The lines of a sale, with their keys. -/
def itemsOfSale (s : State) (sale : ℕ) : List (ℕ × SaleItem) :=
  childrenOf SaleItem.sale s.sales.items sale

/-- The payments of a sale. -/
def paymentsOfSale (s : State) (sale : ℕ) : List SalePayment :=
  s.sales.payments.filter fun x => x.sale = sale

/-- `method.kind` of a stored payment. -/
def paymentKind (s : State) (p : SalePayment) : Option PaymentKind :=
  s.sales.paymentMethods[p.method]?.map PaymentMethod.kind

/-- `sale_has_tailoring_lines`. -/
def saleHasTailoringLines (s : State) (sale : ℕ) : Bool :=
  (itemsOfSale s sale).any fun i => i.2.isTailoringLine

/-- `_validate_checkout_replay`: a token belongs to one cashier, branch and customer. -/
def validateCheckoutReplay (c : Call) (r : CheckoutRequest) (existing : Sale) :
    Except PosError Unit :=
  require (existing.cashier = c.actor.user && existing.branch = r.branch &&
    existing.customer = r.customer) (SaleError "Invalid checkout token.")

/-- The replay check at the start of `complete_sale`: the sale to return, if there is one. -/
def replayedSale (c : Call) (r : CheckoutRequest) (token : Option Text) (s : State) :
    Except PosError (Option ℕ) :=
  match token.bind (saleWithToken s) with
  | none => .ok none
  | some id => do
    let existing ← found s.sales.sales[id]? .notFound
    requireWhen (saleHasTailoringLines s id || existing.deliveryDate.isSome ||
      existing.priority ≠ .normal) (requireTailoringWrite c "sales.create")
    let kinds := (paymentsOfSale s id).map (paymentKind s)
    requireWhen (kinds.contains (some .customerCredit))
      (requireActorAccess c .customerCredit "sales.credit")
    requireWhen (!kinds.contains (some .customerCredit) && kinds.contains (some .storeCredit))
      (requireActorAccess c .customerCredit "sales.create")
    validateCheckoutReplay c r existing
    return some id

/-! ## Preparing the sale -/

/-- The family member a raw line names. -/
def familyMemberId (customer : Customer) (entry : CartLine × ℕ) : Except PosError (Option ℕ) :=
  let key := s!"{fieldPrefix entry.2}.family_member_id"
  match entry.1.familyMemberId with
  | .missing => .ok none
  | .blank => .ok none
  | raw =>
    if customer.isWalkIn then
      .error (SaleError.onField key "A walk-in sale cannot use a family profile.")
    else
      match raw with
      | .value id => .ok (some id)
      | _ => .error (SaleError.onField key "Select a valid family member.")

/-- The order priority; a missing or empty one is normal. -/
def cleanPriority (raw : RawChoice Priority) : Except PosError Priority :=
  match raw with
  | .missing => .ok .normal
  | .blank => .ok .normal
  | raw => found raw.toOption (SaleError.onField "priority" "Select a valid order priority.")

/-- The discount permission and the cap on the total discount. -/
def checkDiscount (c : Call) (settings : BusinessSettings) (totals : SaleTotals) :
    Except PosError Unit :=
  if totals.discountTotal ≤ 0 then
    .ok ()
  else do
    require (c.actor.hasPerm "sales.discount")
      (SaleError "You do not have permission to apply discounts.")
    let gross := totals.subtotal + totals.lineDiscounts
    let pct := dec totals.discountTotal / dec gross * 100
    let cap : ℚ := settings.maxDiscountPercent / 100
    require (100 ≤ cap || gross ≤ 0 || pct ≤ cap) (.discountAboveCap pct cap)

/-- `_locked_payment_methods`: the tenders with their active method rows. -/
def lockedPaymentMethods (s : State) (payments : List PaymentInput) :
    Except PosError (List Tender) :=
  payments.mapM fun p => do
    let method ← found s.sales.paymentMethods[p.method]? .scopeDenied
    require method.isActive (SaleError "Invalid payment method.")
    return { methodId := p.method, method := method, amount := p.amount }

/-- The change due: only cash may be overpaid. -/
def changeDue (totals : SaleTotals) (p : PaymentTotals) : Except PosError ℤ :=
  if totals.total < p.payTotal then
    if p.payTotal - totals.total ≤ p.cashTendered then
      .ok (p.payTotal - totals.total)
    else
      .error (SaleError "Overpayment is only allowed for cash (change due).")
  else if p.payTotal < totals.total then
    .error (SaleError ("Payments do not cover the total. Use Customer Credit for the unpaid " ++
      "balance."))
  else
    .ok 0

/-- Credit and store credit checks against the customer's account. -/
def checkAccountTenders (c : Call) (settings : BusinessSettings) (customer : Customer)
    (p : PaymentTotals) : Except PosError Unit := do
  if 0 < p.creditAmount then
    require (!(customer.isWalkIn && settings.requireCustomerForCredit))
      (SaleError "Credit sales require a named customer.")
    require (c.actor.hasPerm "sales.credit")
      (SaleError "You do not have permission to make credit sales.")
    require (customer.creditLimit ≤ 0 ||
        customer.balance + p.creditAmount ≤ customer.creditLimit ||
        c.actor.hasPerm "credit.approve")
      (SaleError "This sale would exceed the customer's credit limit.")
  require (p.storeCreditAmount ≤ 0 || p.storeCreditAmount ≤ customer.storeCredit)
    (SaleError "Customer does not have enough store credit.")

/-- A validated sale: what `create records` stores. -/
structure PreparedSale where
  token : Option Text
  priority : Priority
  totals : SaleTotals
  payments : List CleanPayment
  paymentTotals : PaymentTotals
  change : ℤ

/-- The cart of a request, validated against the locked catalogue rows. -/
def normalizeItems (c : Call) (r : CheckoutRequest) (customer : Customer) (s : State) :
    Except PosError (List NormalizedLine) := do
  let members ← r.items.zipIdx.mapM (familyMemberId customer)
  (r.items.zip members).zipIdx.mapM (normalizeLine c s r.branch r.customer)

/-- Everything between the replay check and the insert of the sale row. -/
def prepareSale (c : Call) (r : CheckoutRequest) (customer : Customer) (token : Option Text)
    (s : State) : Except PosError PreparedSale := do
  require (r.salesperson.all c.isMember) .scopeDenied
  require c.operational .subscriptionInactive
  require c.withinInvoiceLimit .limitExceeded
  require (!r.items.isEmpty) (SaleError "Cannot complete a sale with no items.")
  requireWhen (r.items.any fun line =>
      (s.catalog.products[line.product]?).any Product.isTailoringItem)
    (requireTailoringWrite c "sales.create")
  let priority ← cleanPriority r.priority
  requireWhen (priority ≠ .normal || r.deliveryDate.isSome)
    (requireTailoringWrite c "sales.create")
  let lines ← normalizeItems c r customer s
  require (!(lines.any fun l => l.product.isMeterTailoring || l.collectionType.isSome) ||
      r.deliveryDate.isSome)
    (SaleError.onField "delivery_date"
      "Please select delivery date before completing the tailoring booking.")
  let totals ← calculateSaleTotals s.tenant.settings lines (money r.invoiceDiscount)
  checkDiscount c s.tenant.settings totals
  let tenders ← lockedPaymentMethods s r.payments
  let (payments, paymentTotals) ← calculatePaymentTotals tenders
  requireWhen (0 < paymentTotals.creditAmount)
    (requireActorAccess c .customerCredit "sales.credit")
  requireWhen (paymentTotals.creditAmount ≤ 0 && 0 < paymentTotals.storeCreditAmount)
    (requireActorAccess c .customerCredit "sales.create")
  let change ← changeDue totals paymentTotals
  checkAccountTenders c s.tenant.settings customer paymentTotals
  require (r.shift.isSome || s.tenant.settings.allowSaleWithoutShift)
    (SaleError "An open shift is required before selling.")
  return {
    token := token
    priority := priority
    totals := totals
    payments := payments
    paymentTotals := paymentTotals
    change := change }

/-! ## The sale row -/

/-- The row `Sale.objects.create` inserts. -/
def saleRow (c : Call) (r : CheckoutRequest) (p : PreparedSale) (number : Text) : Sale where
  branch := r.branch
  warehouse := r.warehouse
  register := r.register
  shift := r.shift
  cashier := c.actor.user
  salesperson := r.salesperson
  customer := r.customer
  invoiceNumber := number
  checkoutToken := p.token
  status := .completed
  priority := p.priority
  saleDate := c.now
  deliveryDate := r.deliveryDate
  deliveryStatus := r.deliveryDate.map fun _ => .pending
  subtotal := p.totals.subtotal
  discountAmount := p.totals.discountTotal
  taxAmount := p.totals.taxTotal
  rounding := p.totals.rounding
  total := p.totals.total
  amountPaid := p.paymentTotals.payTotal - p.change - p.paymentTotals.creditAmount
  changeDue := p.change

/-- Insert a sale under the unique constraints on the invoice number and the token. -/
def insertSale (row : Sale) : Service ℕ := do
  let s ← get
  check (!(s.sales.sales.any fun x => x.invoiceNumber = row.invoiceNumber)) .integrity
  check (row.checkoutToken.all fun token => (saleWithToken s token).isNone) .integrity
  modify fun s => { s with sales.sales := s.sales.sales ++ [row] }
  return s.sales.sales.length

/-- The savepoint of `complete_sale`: the invoice number and the row that uses it. -/
def createSale (c : Call) (r : CheckoutRequest) (p : PreparedSale) : Service ℕ := do
  let number ← nextInvoiceNumber r.branch
  insertSale (saleRow c r p number)

/-- Rewrite one sale. -/
def updateSale (sale : ℕ) (f : Sale → Sale) (s : State) : State :=
  { s with sales.sales := s.sales.sales.modify sale f }

/-! ## Lines, payments and accounts -/

/-- The stock warehouse, unit cost and stock quantity of a line; customer fabric has none. -/
def lineStock (s : State) (r : CheckoutRequest) (line : NormalizedLine) (parts : LineParts) :
    Except PosError (Option ℕ × ℤ × ℚ) :=
  if line.customerSuppliedFabric then
    .ok (none, 0, 0)
  else do
    let warehouse ← stockWarehouseForSaleProduct s r.warehouse line.product
    return (some warehouse, resolveCost line.product line.variant,
      (line.fabricMeterUsed.map dec).getD parts.quantity)

/-- The row of a completed line. -/
def saleItemRow (sale : ℕ) (line : NormalizedLine) (parts : LineParts)
    (stockWarehouse : Option ℕ) (unitCost lineCost : ℤ) : SaleItem where
  sale := sale
  familyMember := line.familyMember
  product := line.productId
  variant := line.variantId
  stockWarehouse := if line.product.isStocked then stockWarehouse else none
  productName := displayName line.product line.variant
  quantity := qty parts.quantity
  unitPrice := parts.unitPrice
  discountAmount := parts.discountAmount
  taxRate := qty parts.taxRate
  taxAmount := parts.tax
  lineTotal := parts.total
  unitCost := unitCost
  grossProfit := parts.base - lineCost
  garmentClassification := line.garmentClassification
  collectionType := line.collectionType
  estimatedFabric := line.estimatedFabric
  fabricMeterUsed := line.fabricMeterUsed
  customerSuppliedFabric := line.customerSuppliedFabric
  tailoringDetails := line.tailoringDetails
  meter_pos := line.meter_pos
  customerFabric_noMeter := line.customerFabric_noMeter

/-- The deduction of a line that is kept in stock. -/
def saleMovement (c : Call) (number : Text) (item : ℕ) (line : NormalizedLine)
    (unitCost : ℤ) (quantity : ℚ) (warehouse : ℕ) : Movement where
  key := ⟨warehouse, line.productId, line.variantId⟩
  movementType := .sale
  quantity := -quantity
  unitCost := dec unitCost
  reference := .sale number
  user := c.actor.user
  saleItem := some item

/-- One iteration of the line loop; returns the cost accumulated so far. -/
def writeLine (c : Call) (r : CheckoutRequest) (sale : ℕ) (number : Text) (totalCost : ℤ)
    (entry : NormalizedLine × LineParts) : Service ℤ := do
  let (stockWarehouse, unitCost, quantity) ← reads fun s => lineStock s r entry.1 entry.2
  let lineCost := money (dec unitCost * quantity)
  let item := saleItemRow sale entry.1 entry.2 stockWarehouse unitCost lineCost
  let s ← get
  modify fun s => { s with sales.items := s.sales.items ++ [item] }
  -- the row's stock warehouse is set exactly for the lines that are deducted
  recordOptional (item.stockWarehouse.map
    (saleMovement c number s.sales.items.length entry.1 unitCost quantity))
  return totalCost + lineCost

/-- The payment rows: the change is taken out of the first cash tender only, and a tender that
nothing is left of is not stored. -/
def storedTenders : ℤ → List CleanPayment → List (CleanPayment × ℤ)
  | _, [] => []
  | change, p :: ps =>
    if p.kind = .cash ∧ 0 < change then
      if p.amount - change ≤ 0 then
        storedTenders 0 ps
      else
        (p, p.amount - change) :: storedTenders 0 ps
    else
      (p, p.amount) :: storedTenders change ps

/-- The stored row of a tender. -/
def paymentRow (c : Call) (r : CheckoutRequest) (sale : ℕ) (entry : CleanPayment × ℤ) :
    SalePayment where
  sale := sale
  method := entry.1.methodId
  amount := entry.2
  paymentDate := c.today
  receivedBy := c.actor.user
  shift := r.shift

/-- The status of a sale that was partly or wholly put on account. -/
def creditStatus (p : PreparedSale) : SaleStatus :=
  if p.totals.total ≤ p.paymentTotals.creditAmount then .credit else .partiallyPaid

/-- The final save of the sale row. -/
def settledSale (r : CheckoutRequest) (p : PreparedSale) (totalCost : ℤ) (sale : Sale) : Sale :=
  { sale with
    totalCost := totalCost
    grossProfit := p.totals.subtotal - money r.invoiceDiscount - totalCost
    status := if 0 < p.paymentTotals.creditAmount then creditStatus p else sale.status }

/-- Payments, account changes and the final save of the sale row. -/
def settleSale (c : Call) (r : CheckoutRequest) (p : PreparedSale) (sale : ℕ)
    (totalCost : ℤ) (s : State) : State :=
  let s := { s with
    sales.payments := s.sales.payments ++
      (storedTenders p.change p.payments).map (paymentRow c r sale) }
  let s := if 0 < p.paymentTotals.creditAmount then
    applyBalanceChange r.customer p.paymentTotals.creditAmount s else s
  let s := if 0 < p.paymentTotals.storeCreditAmount then
    applyStoreCreditChange r.customer (-p.paymentTotals.storeCreditAmount) s else s
  updateSale sale (settledSale r p totalCost) s

/-- Everything after the savepoint. -/
def finishSale (c : Call) (r : CheckoutRequest) (p : PreparedSale) (sale : ℕ) : Service Unit := do
  let row ← reads fun s => found s.sales.sales[sale]? .notFound
  let totalCost ← p.totals.lines.foldlM (writeLine c r sale row.invoiceNumber) 0
  modify (settleSale c r p sale totalCost)

/-! ## The service -/

/-- The recovery from a unique-constraint failure: another call owns the token. -/
def replayAfterConflict (c : Call) (r : CheckoutRequest) (token : Option Text) (s : State) :
    Except PosError ℕ := do
  let id ← found (token.bind (saleWithToken s)) .integrity
  let existing ← found s.sales.sales[id]? .integrity
  validateCheckoutReplay c r existing
  return id

/-- `complete_sale`; returns the key of the sale. -/
def completeSale (c : Call) (r : CheckoutRequest) : Service ℕ := do
  let customer ← reads (checkoutContext c r)
  let token ← reads fun _ => cleanCheckoutToken r.checkoutToken
  match ← reads (replayedSale c r token) with
  | some existing => return existing
  | none => do
    let p ← reads (prepareSale c r customer token)
    match ← attempt (createSale c r p) with
    | .ok sale => do
      finishSale c r p sale
      return sale
    | .error .integrity => reads (replayAfterConflict c r token)
    | .error e => throw e

/-! ## What a checkout does -/

/-- What a prepared sale was computed from. -/
lemma prepareSale_ok {c : Call} {r : CheckoutRequest} {customer : Customer} {token : Option Text}
    {s : State} {p : PreparedSale} (h : prepareSale c r customer token s = .ok p) :
    ∃ lines tenders,
      normalizeItems c r customer s = .ok lines ∧
      calculateSaleTotals s.tenant.settings lines (money r.invoiceDiscount) = .ok p.totals ∧
      lockedPaymentMethods s r.payments = .ok tenders ∧
      calculatePaymentTotals tenders = .ok (p.payments, p.paymentTotals) ∧
      changeDue p.totals p.paymentTotals = .ok p.change ∧ p.token = token := by
  unfold prepareSale at h
  simp only [except_bind_eq_ok, pure, Except.pure, Except.ok.injEq] at h
  obtain ⟨-, -, -, -, -, -, -, -, -, -, priority, -, -, -, lines, hlines, -, -, totals, htotals,
    -, -, tenders, htenders, ⟨payments, paymentTotals⟩, hpayments, -, -, -, -, change, hchange,
    -, -, -, -, rfl⟩ := h
  exact ⟨lines, tenders, hlines, htotals, htenders, hpayments, hchange, rfl⟩

/-- The savepoint numbers the invoice and appends one row whose token is new. -/
lemma runs_createSale {c : Call} {r : CheckoutRequest} {p : PreparedSale} {s t : State} {id : ℕ}
    (h : Runs (createSale c r p) s id t) :
    ∃ number u, Runs (nextInvoiceNumber r.branch) s number u ∧ id = u.sales.sales.length ∧
      (∀ token ∈ p.token, saleWithToken u token = none) ∧
      t = { u with sales.sales := u.sales.sales ++ [saleRow c r p number] } := by
  unfold createSale insertSale at h
  simp only [runs_bind, runs_get, runs_check, runs_modify, runs_pure] at h
  obtain ⟨number, u, hnumber, v, w, ⟨hv, hw⟩, _, w', ⟨-, hw'⟩, _, w'', ⟨htoken, hw''⟩, _, x, hx,
    hid, ht⟩ := h
  subst hw'' hw' hw
  subst v
  subst ht hx
  refine ⟨number, _, hnumber, hid, fun token hmem => ?_, rfl⟩
  have := Option.all_eq_true _ _ |>.mp htoken token (Option.mem_def.mp hmem)
  simpa using this

/-- The stored row of a validated line, up to its costs. -/
def ItemFor (sale : ℕ) (entry : NormalizedLine × LineParts) (item : SaleItem) : Prop :=
  ∃ warehouse unitCost lineCost,
    (warehouse.isSome = !entry.1.customerSuppliedFabric) ∧
      item = saleItemRow sale entry.1 entry.2 warehouse unitCost lineCost

/-- What a stored line takes out of stock: its inventory quantity, from its stock warehouse. -/
def deductionOf (number : Text) (entry : SaleItem × ℕ) : Option Posting :=
  entry.1.stockWarehouse.map fun warehouse => {
    key := ⟨warehouse, entry.1.product, entry.1.variant⟩
    movementType := .sale
    quantity := -entry.1.inventoryQuantity
    reference := .sale number
    saleItem := some entry.2 }

/-- The line loop from `s` to `t`: the stored lines with their deductions, and nothing else. -/
structure LinesWritten (sale : ℕ) (number : Text) (entries : List (NormalizedLine × LineParts))
    (items : List SaleItem) (s t : State) : Prop where
  stored : List.Forall₂ (ItemFor sale) entries items
  rest : t.rest = { s with sales.items := s.sales.items ++ items }.rest
  movements : ∃ rows, t.stock.movements = s.stock.movements ++ rows ∧
    rows.map StockMovement.posting =
      (items.zipIdx s.sales.items.length).filterMap (deductionOf number)

/-- The stock part of a line: no warehouse for customer fabric, and otherwise the quantity that
the stored row has as its inventory quantity. -/
lemma lineStock_ok {s : State} {r : CheckoutRequest} {line : NormalizedLine} {parts : LineParts}
    {warehouse : Option ℕ} {unitCost : ℤ} {quantity : ℚ}
    (h : lineStock s r line parts = .ok (warehouse, unitCost, quantity)) :
    (warehouse.isSome = !line.customerSuppliedFabric) ∧
      (line.customerSuppliedFabric = false →
        qty quantity = line.fabricMeterUsed.getD (qty parts.quantity)) := by
  unfold lineStock at h
  split at h
  · rename_i hfabric
    cases h
    simp [hfabric]
  · rename_i hfabric
    simp only [except_bind_eq_ok, pure, Except.pure, Except.ok.injEq, Prod.mk.injEq] at h
    obtain ⟨w, -, rfl, -, rfl⟩ := h
    refine ⟨by simp [hfabric], fun _ => ?_⟩
    cases line.fabricMeterUsed with
    | none => rfl
    | some m => exact qty_dec m

/-- One stored line with its deduction. -/
lemma runs_writeLine {c : Call} {r : CheckoutRequest} {sale : ℕ} {number : Text} {cost cost' : ℤ}
    {entry : NormalizedLine × LineParts} {s t : State}
    (h : Runs (writeLine c r sale number cost entry) s cost' t) :
    ∃ item, LinesWritten sale number [entry] [item] s t := by
  unfold writeLine at h
  simp only [runs_bind, runs_reads, runs_get, runs_modify, runs_pure] at h
  obtain ⟨⟨warehouse, unitCost, quantity⟩, _, ⟨hstock, rfl⟩, u, _, ⟨rfl, rfl⟩, _, _, rfl, _, _,
    hrecord, rfl, rfl⟩ := h
  obtain ⟨hwarehouse, hquantity⟩ := lineStock_ok hstock
  set item := saleItemRow sale entry.1 entry.2 warehouse unitCost
    (money (dec unitCost * quantity)) with hitem
  refine ⟨item, .cons ⟨warehouse, unitCost, _, hwarehouse, rfl⟩ .nil, ?_, ?_⟩
  · cases hw : item.stockWarehouse with
    | none =>
      rw [hw] at hrecord
      obtain ⟨-, rfl⟩ := runs_pure.mp hrecord
      rfl
    | some w =>
      rw [hw] at hrecord
      obtain ⟨row, -, -, hrest⟩ := runs_recordMovement hrecord
      exact hrest
  · cases hw : item.stockWarehouse with
    | none =>
      rw [hw] at hrecord
      obtain ⟨-, rfl⟩ := runs_pure.mp hrecord
      exact ⟨[], by simp, by simp [deductionOf, hw]⟩
    | some w =>
      rw [hw] at hrecord
      obtain ⟨row, hrow, hposted, -⟩ := runs_recordMovement hrecord
      -- only a line of the business's own material has a stock warehouse
      have hown : entry.1.customerSuppliedFabric = false := by
        have hsome : warehouse.isSome := by
          rw [hitem] at hw
          unfold saleItemRow at hw
          dsimp only at hw
          split at hw
          · rw [hw]
            rfl
          · cases hw
        rw [hwarehouse] at hsome
        simpa using hsome
      have hinventory : item.inventoryQuantity = qty quantity := by
        rw [hquantity hown]
        simp [SaleItem.inventoryQuantity, hitem, saleItemRow, hown]
      refine ⟨[row], ?_, ?_⟩
      · rw [hposted, Stock.movements_post]
      · have hdeduction : ∀ i, deductionOf number (item, i) =
            some (saleMovement c number i entry.1 unitCost quantity w).posting := by
          intro i
          unfold deductionOf Movement.posting saleMovement
          rw [hw, Option.map_some, hinventory, qty_neg]
          rfl
        rw [List.map_singleton, hrow.toRowFor.posting_eq, List.zipIdx_singleton,
          List.filterMap_cons_some (hdeduction _), List.filterMap_nil]

lemma LinesWritten.nil (sale : ℕ) (number : Text) (s : State) :
    LinesWritten sale number [] [] s s :=
  ⟨.nil, by simp, [], by simp, rfl⟩

lemma LinesWritten.append {sale : ℕ} {number : Text} {e₁ e₂ : List (NormalizedLine × LineParts)}
    {i₁ i₂ : List SaleItem} {s t u : State} (h₁ : LinesWritten sale number e₁ i₁ s t)
    (h₂ : LinesWritten sale number e₂ i₂ t u) :
    LinesWritten sale number (e₁ ++ e₂) (i₁ ++ i₂) s u := by
  have hsales : t.sales = { s.sales with items := s.sales.items ++ i₁ } :=
    sales_of_rest h₁.rest
  obtain ⟨rows₁, hrows₁, hpost₁⟩ := h₁.movements
  obtain ⟨rows₂, hrows₂, hpost₂⟩ := h₂.movements
  refine ⟨List.rel_append h₁.stored h₂.stored, ?_, rows₁ ++ rows₂, ?_, ?_⟩
  · have hrest := h₁.rest
    rw [h₂.rest]
    simp only [State.rest, Prod.mk.injEq] at hrest ⊢
    obtain ⟨htenant, hcatalog, hparties, hdocuments, hs, hpurchases⟩ := hrest
    refine ⟨htenant, hcatalog, hparties, hdocuments, ?_, hpurchases⟩
    rw [hsales]
    simp
  · rw [hrows₂, hrows₁, List.append_assoc]
  · rw [List.map_append, hpost₁, hpost₂, hsales, List.zipIdx_append, List.filterMap_append,
      List.length_append, Nat.add_comm]

/-- The line loop stores one line for each entry. -/
lemma runs_writeLines {c : Call} {r : CheckoutRequest} {sale : ℕ} {number : Text}
    {entries : List (NormalizedLine × LineParts)} {cost cost' : ℤ} {s t : State}
    (h : Runs (entries.foldlM (writeLine c r sale number) cost) s cost' t) :
    ∃ items, LinesWritten sale number entries items s t := by
  induction entries generalizing cost s with
  | nil =>
    obtain ⟨-, rfl⟩ := runs_foldlM_nil.mp h
    exact ⟨[], .nil sale number t⟩
  | cons entry entries ih =>
    obtain ⟨cost₁, u, h₁, h₂⟩ := runs_foldlM_cons.mp h
    obtain ⟨item, hitem⟩ := runs_writeLine h₁
    obtain ⟨items, hitems⟩ := ih h₂
    exact ⟨item :: items, hitem.append hitems⟩

/-- The account after a sale: what was put on account is owed, and store credit is used up. -/
def chargedCustomer (p : PreparedSale) (customer : Customer) : Customer :=
  { customer with
    balance := customer.balance + p.paymentTotals.creditAmount
    storeCredit := customer.storeCredit - p.paymentTotals.storeCreditAmount }

/-- The tables after the final step of a sale. -/
lemma settleSale_eq {c : Call} {r : CheckoutRequest} {p : PreparedSale} (sale : ℕ)
    (totalCost : ℤ) (s : State) (hcredit : 0 ≤ p.paymentTotals.creditAmount)
    (hstore : 0 ≤ p.paymentTotals.storeCreditAmount) :
    settleSale c r p sale totalCost s = { s with
      sales.payments := s.sales.payments ++
        (storedTenders p.change p.payments).map (paymentRow c r sale)
      sales.sales := s.sales.sales.modify sale (settledSale r p totalCost)
      parties.customers := s.parties.customers.modify r.customer (chargedCustomer p) } := by
  unfold settleSale
  dsimp only
  rw [ite_charge hcredit, ite_useCredit hstore]
  unfold applyBalanceChange applyStoreCreditChange updateCustomer updateSale
  simp only [List.modify_modify_eq]
  rfl

/-- A call that answers a retry: the sale that carries the token, and no write. -/
structure SaleReplayed (c : Call) (r : CheckoutRequest) (s t : State) (id : ℕ) : Prop where
  unchanged : t = s
  found : ∃ token sale, cleanCheckoutToken r.checkoutToken = .ok (some token) ∧
    saleWithToken s token = some id ∧ s.sales.sales[id]? = some sale ∧
    validateCheckoutReplay c r sale = .ok ()

/-- A call that completes a new sale: the rows it stores, and everything it leaves alone. -/
structure SaleMade (c : Call) (r : CheckoutRequest) (s t : State) (id : ℕ) (p : PreparedSale)
    (number : Text) (items : List SaleItem) : Prop where
  id_eq : id = s.sales.sales.length
  prepared : ∃ customer, checkoutContext c r s = .ok customer ∧
    prepareSale c r customer p.token s = .ok p
  token : cleanCheckoutToken r.checkoutToken = .ok p.token
  token_new : ∀ token ∈ p.token, saleWithToken s token = none
  numbered : ∃ u, Runs (nextInvoiceNumber r.branch) s number u ∧
    t.sales.sequences = u.sales.sequences
  stored : List.Forall₂ (ItemFor id) p.totals.lines items
  sales : ∃ totalCost sequences, t.sales = { s.sales with
    sequences := sequences
    sales := s.sales.sales ++ [settledSale r p totalCost (saleRow c r p number)]
    items := s.sales.items ++ items
    payments := s.sales.payments ++
      (storedTenders p.change p.payments).map (paymentRow c r id) }
  parties : t.parties = { s.parties with
    customers := s.parties.customers.modify r.customer (chargedCustomer p) }
  movements : ∃ rows, t.stock.movements = s.stock.movements ++ rows ∧
    rows.map StockMovement.posting =
      (items.zipIdx s.sales.items.length).filterMap (deductionOf number)
  rest : t.rest = { s with sales := t.sales, parties := t.parties }.rest

/-- The amounts put on account are not negative. -/
lemma accountTenders_nonneg {c : Call} {r : CheckoutRequest} {customer : Customer}
    {token : Option Text} {s : State} {p : PreparedSale}
    (h : prepareSale c r customer token s = .ok p) :
    0 ≤ p.paymentTotals.creditAmount ∧ 0 ≤ p.paymentTotals.storeCreditAmount := by
  obtain ⟨lines, tenders, -, -, -, htotals, -, -⟩ := prepareSale_ok h
  obtain ⟨-, htotals⟩ := calculatePaymentTotals_ok htotals
  rw [htotals]
  constructor
  · exact tendered_nonneg (· == .customerCredit) p.payments
  · exact tendered_nonneg (· == .storeCredit) p.payments

/-- A checkout of an accepted cart. -/
lemma saleMade_of_runs {c : Call} {r : CheckoutRequest} {customer : Customer} {p : PreparedSale}
    {s u t : State} {id : ℕ} {x : Unit} (hcontext : checkoutContext c r s = .ok customer)
    (htoken : cleanCheckoutToken r.checkoutToken = .ok p.token)
    (hprepared : prepareSale c r customer p.token s = .ok p)
    (hcreate : Runs (createSale c r p) s id u) (hfinish : Runs (finishSale c r p id) u x t) :
    ∃ number items, SaleMade c r s t id p number items := by
  obtain ⟨number, v, hnumber, rfl, hnew, rfl⟩ := runs_createSale hcreate
  obtain ⟨branch, last, -, -, -, -, rfl⟩ := runs_nextInvoiceNumber hnumber
  obtain ⟨hcredit, hstore⟩ := accountTenders_nonneg hprepared
  unfold finishSale at hfinish
  simp only [runs_bind, runs_reads, runs_modify, found_eq_ok] at hfinish
  obtain ⟨row, _, ⟨hrow, rfl⟩, totalCost, u, hlines, rfl⟩ := hfinish
  obtain rfl : saleRow c r p number = row := by simpa using hrow
  obtain ⟨items, hwritten⟩ := runs_writeLines hlines
  have hrest := hwritten.rest
  simp only [State.rest, Prod.mk.injEq] at hrest
  obtain ⟨htenant, hcatalog, hparties, hdocuments, hsales, hpurchases⟩ := hrest
  rw [settleSale_eq _ _ _ hcredit hstore]
  refine ⟨number, items, {
    id_eq := rfl
    prepared := ⟨customer, hcontext, hprepared⟩
    token := htoken
    token_new := hnew
    numbered := ⟨_, hnumber, ?_⟩
    stored := hwritten.stored
    sales := ⟨totalCost, u.sales.sequences, ?_⟩
    parties := ?_
    movements := hwritten.movements
    rest := ?_ }⟩
  · change u.sales.sequences = _
    rw [hsales]
  · rw [hsales, modify_concat]
  · rw [hparties]
  · simp only [State.rest, htenant, hcatalog, hdocuments, hpurchases]

lemma replayedSale_some {c : Call} {r : CheckoutRequest} {token : Option Text} {s : State}
    {id : ℕ} (htoken : cleanCheckoutToken r.checkoutToken = .ok token)
    (h : replayedSale c r token s = .ok (some id)) :
    ∃ token sale, cleanCheckoutToken r.checkoutToken = .ok (some token) ∧
      saleWithToken s token = some id ∧ s.sales.sales[id]? = some sale ∧
      validateCheckoutReplay c r sale = .ok () := by
  unfold replayedSale at h
  split at h
  · exact nomatch h
  · rename_i existing hexisting
    simp only [except_bind_eq_ok, found_eq_ok, pure, Except.pure, Except.ok.injEq,
      Option.some.injEq] at h
    obtain ⟨sale, hsale, -, -, -, -, -, -, ⟨⟩, hvalid, rfl⟩ := h
    obtain ⟨token, rfl, hwith⟩ := Option.bind_eq_some_iff.mp hexisting
    exact ⟨token, sale, htoken, hwith, hsale, hvalid⟩

lemma replayAfterConflict_ok {c : Call} {r : CheckoutRequest} {token : Option Text} {s : State}
    {id : ℕ} (htoken : cleanCheckoutToken r.checkoutToken = .ok token)
    (h : replayAfterConflict c r token s = .ok id) :
    ∃ token sale, cleanCheckoutToken r.checkoutToken = .ok (some token) ∧
      saleWithToken s token = some id ∧ s.sales.sales[id]? = some sale ∧
      validateCheckoutReplay c r sale = .ok () := by
  unfold replayAfterConflict at h
  simp only [except_bind_eq_ok, found_eq_ok, pure, Except.pure, Except.ok.injEq] at h
  obtain ⟨existing, hexisting, sale, hsale, ⟨⟩, hvalid, rfl⟩ := h
  obtain ⟨token, rfl, hwith⟩ := Option.bind_eq_some_iff.mp hexisting
  exact ⟨token, sale, htoken, hwith, hsale, hvalid⟩

/-- A successful call answers a retry, or it creates the sale of a prepared cart and finishes
it. -/
lemma runs_completeSale_cases {c : Call} {r : CheckoutRequest} {s t : State} {id : ℕ}
    (h : Runs (completeSale c r) s id t) :
    SaleReplayed c r s t id ∨ ∃ customer p u, checkoutContext c r s = .ok customer ∧
      cleanCheckoutToken r.checkoutToken = .ok p.token ∧
      prepareSale c r customer p.token s = .ok p ∧ Runs (createSale c r p) s id u ∧
      Runs (finishSale c r p id) u () t := by
  unfold completeSale at h
  simp only [runs_bind, runs_reads] at h
  obtain ⟨customer, _, ⟨hcontext, rfl⟩, token, _, ⟨htoken, rfl⟩, replay, _, ⟨hreplay, rfl⟩,
    hrun⟩ := h
  cases replay with
  | some existing =>
    obtain ⟨rfl, rfl⟩ := runs_pure.mp hrun
    exact .inl ⟨rfl, replayedSale_some htoken hreplay⟩
  | none =>
    simp only [runs_bind, runs_reads] at hrun
    obtain ⟨p, _, ⟨hprepared, rfl⟩, created, u, hattempt, hrun⟩ := hrun
    obtain rfl : p.token = token := by
      obtain ⟨-, -, -, -, -, -, -, h⟩ := prepareSale_ok hprepared
      exact h
    rcases runs_attempt.mp hattempt with ⟨sale, rfl, hcreate⟩ | ⟨e, rfl, -, rfl⟩
    · simp only [runs_bind, runs_pure] at hrun
      obtain ⟨⟨⟩, _, hfinish, rfl, rfl⟩ := hrun
      exact .inr ⟨customer, p, u, hcontext, htoken, hprepared, hcreate, hfinish⟩
    · -- only a unique constraint is recovered from
      cases e
      case integrity =>
        obtain ⟨hconflict, rfl⟩ := runs_reads.mp hrun
        exact .inl ⟨rfl, replayAfterConflict_ok htoken hconflict⟩
      all_goals exact (runs_throw hrun).elim

/-- What a successful call does, in its two cases. -/
lemma runs_completeSale {c : Call} {r : CheckoutRequest} {s t : State} {id : ℕ}
    (h : Runs (completeSale c r) s id t) :
    SaleReplayed c r s t id ∨ ∃ p number items, SaleMade c r s t id p number items := by
  rcases runs_completeSale_cases h with hreplayed | ⟨customer, p, u, hcontext, htoken, hprepared,
    hcreate, hfinish⟩
  · exact .inl hreplayed
  · obtain ⟨number, items, hmade⟩ :=
      saleMade_of_runs hcontext htoken hprepared hcreate hfinish
    exact .inr ⟨p, number, items, hmade⟩

/-! ## Footprints -/

section Footprint

variable {R : State → State → Prop} [IsPreorder State R]

lemma within_createSale (hs : ∀ s x, R s { s with sales := x }) (c : Call)
    (r : CheckoutRequest) (p : PreparedSale) : Within R (createSale c r p) := by
  refine within_bind (within_nextInvoiceNumber hs _) fun number => ?_
  refine within_bind within_get fun s => within_bind within_check fun _ => ?_
  refine within_bind within_check fun _ => ?_
  exact within_bind (within_modify fun s => hs s _) fun _ => within_pure

lemma within_writeLine (hm : ∀ m, m.reference.type = .sale → Within R (recordMovement m))
    (hs : ∀ s x, R s { s with sales := x }) (c : Call) (r : CheckoutRequest) (sale : ℕ)
    (number : Text) (totalCost : ℤ) (entry : NormalizedLine × LineParts) :
    Within R (writeLine c r sale number totalCost entry) := by
  refine within_bind within_reads fun ⟨stockWarehouse, unitCost, quantity⟩ => ?_
  refine within_bind within_get fun s => within_bind (within_modify fun s => hs s _) fun _ => ?_
  refine within_bind (within_recordOptional fun m h => hm m ?_) fun _ => within_pure
  obtain ⟨warehouse, -, rfl⟩ := Option.map_eq_some_iff.mp (Option.mem_def.mp h)
  rfl

lemma settleSale_within (hs : ∀ s x, R s { s with sales := x })
    (hp : ∀ s x f, R s (updateCustomer x f s)) (c : Call) (r : CheckoutRequest)
    (p : PreparedSale) (sale : ℕ) (totalCost : ℤ) (s : State) :
    R s (settleSale c r p sale totalCost s) := by
  have hbal : ∀ (b : Prop) [Decidable b] (s : State) (x : ℕ) (d : ℤ),
      R s (if b then applyBalanceChange x d s else s) := fun b _ s x d => by
    split
    · exact hp s _ _
    · exact refl s
  have hcred : ∀ (b : Prop) [Decidable b] (s : State) (x : ℕ) (d : ℤ),
      R s (if b then applyStoreCreditChange x d s else s) := fun b _ s x d => by
    split
    · exact hp s _ _
    · exact refl s
  exact IsTrans.trans _ _ _ (hs s _) (IsTrans.trans _ _ _ (hbal _ _ _ _)
    (IsTrans.trans _ _ _ (hcred _ _ _ _) (hs _ _)))

lemma within_finishSale (hm : ∀ m, m.reference.type = .sale → Within R (recordMovement m))
    (hs : ∀ s x, R s { s with sales := x }) (hp : ∀ s x f, R s (updateCustomer x f s))
    (c : Call) (r : CheckoutRequest) (p : PreparedSale) (sale : ℕ) :
    Within R (finishSale c r p sale) := by
  refine within_bind within_reads fun row => ?_
  refine within_bind (within_foldlM (within_writeLine hm hs c r sale _) _ _) fun totalCost => ?_
  exact within_modify (settleSale_within hs hp c r p sale totalCost)

lemma within_completeSale (hm : ∀ m, m.reference.type = .sale → Within R (recordMovement m))
    (hs : ∀ s x, R s { s with sales := x }) (hp : ∀ s x f, R s (updateCustomer x f s))
    (c : Call) (r : CheckoutRequest) : Within R (completeSale c r) := by
  refine within_bind within_reads fun customer => within_bind within_reads fun token => ?_
  refine within_bind within_reads fun replay => ?_
  cases replay with
  | some existing => exact within_pure
  | none =>
    refine within_bind within_reads fun p => ?_
    refine within_bind (within_attempt (within_createSale hs c r p)) fun created => ?_
    cases created with
    | ok sale => exact within_bind (within_finishSale hm hs hp c r p sale) fun _ => within_pure
    | error e =>
      cases e
      case integrity => exact within_reads
      all_goals exact within_throw

end Footprint

end NexaPos
