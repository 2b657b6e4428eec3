import NexaPos.Sales.Checkout

/-!
# After the sale: payments, voids and returns

Three services act on a completed sale.  `add_sale_payment` collects what was put on account,
`void_sale` reverses the whole sale, and `process_return` takes lines back, in parts and over
any number of calls.  Each begins by locking the sale under the member's branch scope.

Void and return recompute what they put back from the stored lines and from the product as it is
now; neither looks at the movements that the sale wrote.
-/

namespace NexaPos

open Tx

/-! ## The sale and its balance -/

/-- `_locked_sale_for_write`. -/
def lockedSaleForWrite (c : Call) (permission : String) (sale : ℕ) (s : State) :
    Except PosError Sale := do
  requireActorAccess c .posCore permission
  let row ← found s.sales.sales[sale]? .scopeDenied
  require (c.actor.canAccessBranch row.branch) .scopeDenied
  return row

/-- The returns of a sale. -/
def returnsOfSale (s : State) (sale : ℕ) : List SaleReturn :=
  s.sales.returns.filter fun x => x.sale = sale

/-- `Sale.returned_amount`. -/
def returnedAmount (s : State) (sale : ℕ) : ℤ :=
  ((returnsOfSale s sale).map SaleReturn.refundAmount).sum

/-- `Sale.refunded_amount`: what was given back other than through the customer's account. -/
def refundedAmount (s : State) (sale : ℕ) : ℤ :=
  (((returnsOfSale s sale).filter fun x => x.refundMethod ≠ .customerAccount).map
    SaleReturn.refundAmount).sum

/-- `Sale.balance`: the net total less the net amount paid. -/
def saleBalance (s : State) (id : ℕ) (sale : Sale) : ℤ :=
  (sale.total - returnedAmount s id) - (sale.amountPaid - refundedAmount s id)

/-- The product of a line is kept in stock. -/
def isStockedProduct (s : State) (product : ℕ) : Bool :=
  (s.catalog.products[product]?).any Product.isStocked

/-! ## Later payments -/

/-- The arguments of `add_sale_payment`. -/
structure SalePaymentRequest where
  sale : ℕ
  amount : ℚ
  method : ℕ
  paymentDate : Option ℤ := none
  shift : Option ℕ := none

/-- The checks of `add_sale_payment`: the locked sale and the rounded amount. -/
def checkSalePayment (c : Call) (r : SalePaymentRequest) (s : State) :
    Except PosError (Sale × ℤ) := do
  let sale ← lockedSaleForWrite c "customers.payments" r.sale s
  requireActorAccess c .customerCredit "customers.payments"
  let method ← found s.sales.paymentMethods[r.method]? .scopeDenied
  require method.isActive (SaleError "Invalid payment method.")
  require (r.shift.all fun id => (s.tenant.shifts[id]?).isSome) .scopeDenied
  let amount := money r.amount
  require (0 < amount) (SaleError "Payment amount must be positive.")
  require (sale.status ≠ .voided) (SaleError "Voided sales cannot receive payments.")
  require (sale.status ≠ .draft) (SaleError "Draft sales cannot receive payments.")
  require (!method.kind.isAccount) (SaleError "Use a real payment method to settle a balance.")
  require (amount ≤ saleBalance s r.sale sale)
    (.paymentAboveBalance amount (saleBalance s r.sale sale))
  require (r.shift.all (isOpenShiftAt c s sale.branch))
    (SaleError "Invalid open shift for this payment.")
  return (sale, amount)

/-- The sale row after a payment: what is settled leaves the credit states. -/
def paidSale (s : State) (id : ℕ) (amount : ℤ) (sale : Sale) : Sale :=
  let sale := { sale with amountPaid := sale.amountPaid + amount }
  if sale.status = .credit ∨ sale.status = .partiallyPaid then
    { sale with status := if saleBalance s id sale ≤ 0 then .completed else .partiallyPaid }
  else
    sale

/-- The writes of `add_sale_payment`. -/
def applySalePayment (c : Call) (r : SalePaymentRequest) (customer : ℕ) (amount : ℤ)
    (s : State) : State :=
  let payment : SalePayment := {
    sale := r.sale
    method := r.method
    amount := amount
    paymentDate := r.paymentDate.getD c.today
    receivedBy := c.actor.user
    shift := r.shift }
  let s := { s with sales.payments := s.sales.payments ++ [payment] }
  applyBalanceChange customer (-amount) (updateSale r.sale (paidSale s r.sale amount) s)

/-- `add_sale_payment`. -/
def addSalePayment (c : Call) (r : SalePaymentRequest) : Service Unit := do
  let (sale, amount) ← reads (checkSalePayment c r)
  modify (applySalePayment c r sale.customer amount)

/-! ## Void -/

/-- What a void reverses on the account: the unpaid part and the store credit used. -/
structure VoidAmounts where
  creditPaid : ℤ
  storeCreditUsed : ℤ

/-- `store_credit_used`: what was paid with store credit. -/
def storeCreditUsed (s : State) (sale : ℕ) : ℤ :=
  (((paymentsOfSale s sale).filter fun p => paymentKind s p = some .storeCredit).map
    SalePayment.amount).sum

/-- The checks of `void_sale`. -/
def checkVoid (c : Call) (sale : ℕ) (s : State) : Except PosError (Sale × VoidAmounts) := do
  let row ← lockedSaleForWrite c "sales.void" sale s
  require (row.status ≠ .voided) (SaleError "Sale is already voided.")
  require (returnsOfSale s sale).isEmpty (SaleError "A sale with returns cannot be voided.")
  requireWhen (saleHasTailoringLines s sale) (requireTailoringWrite c "sales.void")
  let amounts : VoidAmounts := {
    creditPaid := row.total - row.amountPaid
    storeCreditUsed := storeCreditUsed s sale }
  requireWhen (0 < amounts.creditPaid || 0 < amounts.storeCreditUsed)
    (requireActorAccess c .customerCredit "sales.void")
  return (row, amounts)

/-- A line whose stock a void or a return puts back: cut from metre fabric, or of a product that
is kept in stock now. -/
def isRestockable (s : State) (item : SaleItem) : Bool :=
  !item.customerSuppliedFabric && (item.fabricMeterUsed.isSome || isStockedProduct s item.product)

/-- Stock of one line comes back to where it was taken from. -/
def restockMovement (c : Call) (sale : Sale) (id : ℕ) (item : SaleItem) (quantity : ℚ)
    (reference : Reference) : Movement where
  key := ⟨item.stockWarehouse.getD sale.warehouse, item.product, item.variant⟩
  movementType := .saleReturn
  quantity := quantity
  unitCost := dec item.unitCost
  reference := reference
  user := c.actor.user
  saleItem := some id

/-- The reversal of one line by a void. -/
def voidMovement (c : Call) (s : State) (sale : Sale) (entry : ℕ × SaleItem) : Option Movement :=
  if isRestockable s entry.2 then
    some (restockMovement c sale entry.1 entry.2 (dec entry.2.inventoryQuantity)
      (.void sale.invoiceNumber))
  else
    none

/-- The account changes and the final save of a void. -/
def applyVoid (c : Call) (id : ℕ) (sale : Sale) (amounts : VoidAmounts) (s : State) : State :=
  let s := if 0 < amounts.creditPaid then
    applyBalanceChange sale.customer (-amounts.creditPaid) s else s
  let s := if 0 < amounts.storeCreditUsed then
    applyStoreCreditChange sale.customer amounts.storeCreditUsed s else s
  updateSale id (fun x => { x with
    status := .voided, voidedAt := some c.now, voidedBy := some c.actor.user }) s

/-- `void_sale`. -/
def voidSale (c : Call) (sale : ℕ) : Service Unit := do
  let (row, amounts) ← reads (checkVoid c sale)
  let s ← get
  ((itemsOfSale s sale).filterMap (voidMovement c s row)).forM recordMovement
  modify (applyVoid c sale row amounts)

/-! ## Returns -/

/-- One requested line of a return. -/
structure ReturnEntry where
  saleItem : ℕ
  quantity : ℚ
  restock : Bool := true

/-- The arguments of `process_return`. -/
structure ReturnRequest where
  sale : ℕ
  items : List ReturnEntry
  refundMethod : RefundMethod
  restock : Bool := true
  shift : Option ℕ := none

/-- The line belongs to the sale. -/
def isItemOfSale (s : State) (sale item : ℕ) : Bool :=
  (s.sales.items[item]?).any fun x => x.sale = sale

/-- The return window is a number of days after the sale; 0 is unlimited. -/
def isWithinReturnWindow (c : Call) (settings : BusinessSettings) (sale : Sale) : Bool :=
  settings.returnWindowDays = 0 ||
    c.now ≤ sale.saleDate + (settings.returnWindowDays : ℤ) * 86400

/-- The checks of `process_return` before the first line. -/
def checkReturn (c : Call) (r : ReturnRequest) (s : State) : Except PosError Sale := do
  let sale ← lockedSaleForWrite c "sales.refund" r.sale s
  requireWhen (r.refundMethod = .storeCredit || r.refundMethod = .customerAccount)
    (requireActorAccess c .customerCredit "sales.refund")
  require (r.shift.all fun id => (s.tenant.shifts[id]?).isSome) .scopeDenied
  require (!r.items.isEmpty) (SaleError "Select at least one item to return.")
  require (sale.status ≠ .voided) (SaleError "Cannot return items from a voided sale.")
  require (r.shift.all (isOpenShiftAt c s sale.branch))
    (SaleError "Invalid open shift for this return.")
  require (r.items.all fun e => isItemOfSale s r.sale e.saleItem)
    (SaleError "Return item does not belong to this sale.")
  requireWhen (r.items.any fun e => (s.sales.items[e.saleItem]?).any SaleItem.isTailoringLine)
    (requireTailoringWrite c "sales.refund")
  require (isWithinReturnWindow c s.tenant.settings sale)
    (SaleError "The return window for this sale has expired.")
  return sale

/-- The header row of a return. -/
def saleReturnRow (c : Call) (r : ReturnRequest) (sale : Sale) (s : State) : SaleReturn where
  returnNumber := nextNumber (s.sales.returns.map SaleReturn.returnNumber)
  sale := r.sale
  customer := sale.customer
  branch := sale.branch
  warehouse := sale.warehouse
  refundMethod := r.refundMethod
  restock := r.restock
  processedBy := c.actor.user
  shift := r.shift

/-- The values `process_return` keeps between lines: the quantity returned so far of every locked
line, which is not rounded until it is saved, and the refund. -/
structure ReturnProgress where
  returned : ℕ → ℚ
  refundTotal : ℤ := 0

/-- `per_unit`: the refund of one unit, rounded. -/
def refundPerUnit (item : SaleItem) : ℤ :=
  if item.quantity = 0 then 0 else money (dec item.lineTotal / dec item.quantity)

/-- The line puts stock back, as far as the request and the line decide it. -/
def doesRestock (r : ReturnRequest) (entry : ReturnEntry) (item : SaleItem) : Bool :=
  !item.customerSuppliedFabric && r.restock && entry.restock

/-- A garment of metre fabric is returned whole. -/
def isMeterGarment (s : State) (item : SaleItem) : Bool :=
  item.fabricMeterUsed.isSome || (item.customerSuppliedFabric &&
    (s.catalog.products[item.product]?).any Product.isMeterTailoring)

/-- Fabric of this line has been put back before. -/
def wasRestocked (s : State) (item : ℕ) : Bool :=
  s.sales.returnItems.any fun x => x.saleItem = item && x.restocked

/-- The checks on one line of a return, with a positive quantity. -/
def checkReturnLine (r : ReturnRequest) (p : ReturnProgress) (entry : ReturnEntry) (s : State) :
    Except PosError SaleItem := do
  let item ← found s.sales.items[entry.saleItem]? .notFound
  let remaining := dec item.quantity - p.returned entry.saleItem
  require (entry.quantity ≤ remaining)
    (.cannotReturn entry.quantity item.productName remaining)
  require (!isMeterGarment s item || entry.quantity = dec item.quantity)
    (SaleError ("A meter tailoring garment must be fully returned to process its refund " ++
      "safely."))
  require (!(item.fabricMeterUsed.isSome && doesRestock r entry item &&
      wasRestocked s entry.saleItem))
    (SaleError "Fabric stock has already been restored for this garment.")
  return item

/-- The return line and the line's new returned quantity. -/
def recordReturnLine (saleReturn : ℕ) (r : ReturnRequest) (entry : ReturnEntry)
    (item : SaleItem) (returned : ℚ) (s : State) : State :=
  let row : SaleReturnItem := {
    saleReturn := saleReturn
    saleItem := entry.saleItem
    quantity := qty entry.quantity
    refundPerUnit := refundPerUnit item
    lineRefund := money (dec (refundPerUnit item) * entry.quantity)
    restocked := doesRestock r entry item }
  { s with
    sales.returnItems := s.sales.returnItems ++ [row]
    sales.items := s.sales.items.modify entry.saleItem
      ({ · with returnedQuantity := qty returned }) }

/-- The stock a returned line puts back. -/
def returnMovement (c : Call) (sale : Sale) (number : ℕ) (entry : ReturnEntry)
    (item : SaleItem) : Movement :=
  restockMovement c sale entry.saleItem item
    ((item.fabricMeterUsed.map dec).getD entry.quantity) (.saleReturn number)

/-- One iteration of the line loop of `process_return`. -/
def returnLine (c : Call) (r : ReturnRequest) (sale : Sale) (saleReturn number : ℕ)
    (p : ReturnProgress) (entry : ReturnEntry) : Service ReturnProgress :=
  if entry.quantity ≤ 0 then
    pure p
  else do
    let item ← reads (checkReturnLine r p entry)
    let returned := p.returned entry.saleItem + entry.quantity
    modify (recordReturnLine saleReturn r entry item returned)
    let s ← get
    recordOptional (if doesRestock r entry item && isRestockable s item then
      some (returnMovement c sale number entry item) else none)
    return {
      returned := Function.update p.returned entry.saleItem returned
      refundTotal := p.refundTotal + money (dec (refundPerUnit item) * entry.quantity) }

/-- The refund on the customer's account: what is owed first, the rest as store credit. -/
def applyRefund (method : RefundMethod) (customer : ℕ) (refund : ℤ) (s : State) : State :=
  match method with
  | .storeCredit => applyStoreCreditChange customer refund s
  | .customerAccount =>
    let applied := min (balanceOf s customer) refund
    let s := if 0 < applied then applyBalanceChange customer (-applied) s else s
    if 0 < refund - applied then applyStoreCreditChange customer (refund - applied) s else s
  | _ => s

/-- The status of a sale after a return. -/
def returnStatus (s : State) (sale : ℕ) : SaleStatus :=
  let sold : ℤ := ((itemsOfSale s sale).map fun i => i.2.quantity).sum
  let returned : ℤ := ((itemsOfSale s sale).map fun i => i.2.returnedQuantity).sum
  if returned ≠ 0 ∧ sold ≠ 0 ∧ sold ≤ returned then .returned else .partiallyReturned

/-- The refund, its effect on the account, and the sale's new status. -/
def finishReturn (r : ReturnRequest) (sale : Sale) (saleReturn : ℕ) (refund : ℤ) (s : State) :
    State :=
  let s := { s with
    sales.returns := s.sales.returns.modify saleReturn ({ · with refundAmount := refund }) }
  let s := applyRefund r.refundMethod sale.customer refund s
  updateSale r.sale ({ · with status := returnStatus s r.sale }) s

/-- `process_return`. -/
def processReturn (c : Call) (r : ReturnRequest) : Service Unit := do
  let sale ← reads (checkReturn c r)
  let s ← get
  let header := saleReturnRow c r sale s
  let saleReturn := s.sales.returns.length
  modify fun s => { s with sales.returns := s.sales.returns ++ [header] }
  let p ← r.items.foldlM (returnLine c r sale saleReturn header.returnNumber) {
    returned := fun i => (s.sales.items[i]?.map fun x => dec x.returnedQuantity).getD 0 }
  check (0 < p.refundTotal) (SaleError "Nothing to return.")
  modify (finishReturn r sale saleReturn p.refundTotal)

/-! ## What the services do -/

lemma lockedSaleForWrite_ok {c : Call} {permission : String} {id : ℕ} {s : State} {sale : Sale}
    (h : lockedSaleForWrite c permission id s = .ok sale) : s.sales.sales[id]? = some sale := by
  unfold lockedSaleForWrite at h
  simp only [except_bind_eq_ok, found_eq_ok, pure, Except.pure, Except.ok.injEq] at h
  obtain ⟨-, -, sale', hsale, -, -, rfl⟩ := h
  exact hsale

/-- An accepted payment: of a positive amount, on a sale that is neither void nor a draft, and
within what the sale still owes. -/
lemma checkSalePayment_ok {c : Call} {r : SalePaymentRequest} {s : State} {sale : Sale}
    {amount : ℤ} (h : checkSalePayment c r s = .ok (sale, amount)) :
    s.sales.sales[r.sale]? = some sale ∧ amount = money r.amount ∧ 0 < amount ∧
      sale.status ≠ .voided ∧ amount ≤ saleBalance s r.sale sale ∧
      ∃ method, s.sales.paymentMethods[r.method]? = some method ∧ method.kind.isAccount = false := by
  unfold checkSalePayment at h
  simp only [except_bind_eq_ok, found_eq_ok, require_eq_ok, pure, Except.pure, Except.ok.injEq,
    Prod.mk.injEq, decide_eq_true_eq, Bool.not_eq_true'] at h
  obtain ⟨sale', hsale, -, -, method, hmethod, -, -, -, -, -, hpos, -, hvoid, -, -, -, hkind, -,
    hbalance, -, -, rfl, rfl⟩ := h
  exact ⟨lockedSaleForWrite_ok hsale, rfl, hpos, hvoid, hbalance, method, hmethod, hkind⟩

lemma runs_addSalePayment {c : Call} {r : SalePaymentRequest} {s t : State} {x : Unit}
    (h : Runs (addSalePayment c r) s x t) :
    ∃ sale amount, checkSalePayment c r s = .ok (sale, amount) ∧
      t = applySalePayment c r sale.customer amount s := by
  unfold addSalePayment at h
  simp only [runs_bind, runs_reads, runs_modify] at h
  obtain ⟨⟨sale, amount⟩, _, ⟨hcheck, rfl⟩, rfl⟩ := h
  exact ⟨sale, amount, hcheck, rfl⟩

lemma balanceOf_applySalePayment {c : Call} {r : SalePaymentRequest} {customer other : ℕ}
    {amount : ℤ} {s : State} (ho : other < s.parties.customers.length) :
    balanceOf (applySalePayment c r customer amount s) other =
      balanceOf s other + if customer = other then -amount else 0 := by
  unfold applySalePayment
  dsimp only
  rw [balanceOf_applyBalanceChange]
  · rfl
  · exact ho

/-- An accepted void: of a sale that is not void and has no returns. -/
lemma checkVoid_ok {c : Call} {id : ℕ} {s : State} {sale : Sale} {amounts : VoidAmounts}
    (h : checkVoid c id s = .ok (sale, amounts)) :
    s.sales.sales[id]? = some sale ∧ sale.status ≠ .voided ∧ returnsOfSale s id = [] ∧
      amounts = ⟨sale.total - sale.amountPaid, storeCreditUsed s id⟩ := by
  unfold checkVoid at h
  simp only [except_bind_eq_ok, require_eq_ok, pure, Except.pure, Except.ok.injEq,
    Prod.mk.injEq, decide_eq_true_eq, List.isEmpty_iff] at h
  obtain ⟨sale', hsale, -, hvoid, -, hreturns, -, -, -, -, rfl, rfl⟩ := h
  exact ⟨lockedSaleForWrite_ok hsale, hvoid, hreturns, rfl⟩

lemma runs_voidSale {c : Call} {id : ℕ} {s t : State} {x : Unit}
    (h : Runs (voidSale c id) s x t) :
    ∃ sale amounts rows u, checkVoid c id s = .ok (sale, amounts) ∧
      List.Forall₂ RowFor ((itemsOfSale s id).filterMap (voidMovement c s sale)) rows ∧
      Moved rows s u ∧ t = applyVoid c id sale amounts u := by
  unfold voidSale at h
  simp only [runs_bind, runs_reads, runs_get, runs_modify] at h
  obtain ⟨⟨sale, amounts⟩, _, ⟨hcheck, rfl⟩, _, _, ⟨rfl, rfl⟩, _, u, hrun, rfl⟩ := h
  obtain ⟨rows, hrows, hmoved⟩ := runs_forM_recordMovement hrun
  exact ⟨sale, amounts, rows, u, hcheck, hrows, hmoved, rfl⟩

/-- A void takes the unpaid part off the customer's balance. -/
lemma balanceOf_applyVoid {c : Call} {id : ℕ} {sale : Sale} {amounts : VoidAmounts} {s : State}
    {customer : ℕ} (hc : customer < s.parties.customers.length) :
    balanceOf (applyVoid c id sale amounts s) customer =
      balanceOf s customer - if sale.customer = customer then max 0 amounts.creditPaid else 0 := by
  have hstore : ∀ v : State, balanceOf (if 0 < amounts.storeCreditUsed then
      applyStoreCreditChange sale.customer amounts.storeCreditUsed v else v) customer =
        balanceOf v customer := by
    intro v
    split
    · exact balanceOf_applyStoreCreditChange _ _ _ _
    · rfl
  unfold applyVoid
  change balanceOf (if 0 < amounts.storeCreditUsed then _ else _) customer = _
  rw [hstore]
  split
  · rw [balanceOf_applyBalanceChange hc]
    split <;> omega
  · split <;> omega

/-- A void gives back the store credit that was used. -/
lemma storeCreditOf_applyVoid {c : Call} {id : ℕ} {sale : Sale} {amounts : VoidAmounts}
    {s : State} {customer : ℕ} (hc : customer < s.parties.customers.length) :
    storeCreditOf (applyVoid c id sale amounts s) customer =
      storeCreditOf s customer +
        if sale.customer = customer then max 0 amounts.storeCreditUsed else 0 := by
  set v := if 0 < amounts.creditPaid then
    applyBalanceChange sale.customer (-amounts.creditPaid) s else s with hv
  have hsame : storeCreditOf v customer = storeCreditOf s customer ∧
      customer < v.parties.customers.length := by
    rw [hv]
    split
    · rw [length_applyBalanceChange]
      exact ⟨storeCreditOf_applyBalanceChange _ _ _ _, hc⟩
    · exact ⟨rfl, hc⟩
  unfold applyVoid
  change storeCreditOf (if 0 < amounts.storeCreditUsed then
    applyStoreCreditChange sale.customer amounts.storeCreditUsed v else v) customer = _
  split
  · rw [storeCreditOf_applyStoreCreditChange hsame.2, hsame.1]
    split <;> omega
  · rw [hsame.1]
    split <;> omega

/-- A void rewrites the sale, and otherwise only customers. -/
lemma sales_applyVoid (c : Call) (id : ℕ) (sale : Sale) (amounts : VoidAmounts) (s : State) :
    (applyVoid c id sale amounts s).sales = { s.sales with
      sales := s.sales.sales.modify id fun x => { x with
        status := .voided, voidedAt := some c.now, voidedBy := some c.actor.user } } := by
  unfold applyVoid updateSale
  dsimp only
  split <;> split <;> rfl

/-- An accepted return names lines of the sale, which is not void. -/
lemma checkReturn_ok {c : Call} {r : ReturnRequest} {s : State} {sale : Sale}
    (h : checkReturn c r s = .ok sale) :
    s.sales.sales[r.sale]? = some sale ∧ sale.status ≠ .voided ∧
      ∀ e ∈ r.items, isItemOfSale s r.sale e.saleItem = true := by
  unfold checkReturn at h
  simp only [except_bind_eq_ok, require_eq_ok, pure, Except.pure, Except.ok.injEq,
    decide_eq_true_eq, List.all_eq_true] at h
  obtain ⟨sale', hsale, -, -, -, -, -, -, -, hvoid, -, -, -, hitems, -, -, -, -, rfl⟩ := h
  exact ⟨lockedSaleForWrite_ok hsale, hvoid, hitems⟩

/-- One line of a return that had an effect. -/
structure LineReturned (c : Call) (r : ReturnRequest) (sale : Sale) (saleReturn number : ℕ)
    (entry : ReturnEntry) (item : SaleItem) (p p' : ReturnProgress) (s t : State) : Prop where
  line : s.sales.items[entry.saleItem]? = some item
  positive : 0 < entry.quantity
  remaining : p.returned entry.saleItem + entry.quantity ≤ dec item.quantity
  whole : isMeterGarment s item = true → entry.quantity = dec item.quantity
  progress : p' = {
    returned := Function.update p.returned entry.saleItem
      (p.returned entry.saleItem + entry.quantity)
    refundTotal := p.refundTotal + money (dec (refundPerUnit item) * entry.quantity) }
  rest : t.rest = (recordReturnLine saleReturn r entry item
    (p.returned entry.saleItem + entry.quantity) s).rest
  movements : ∃ rows, t.stock.movements = s.stock.movements ++ rows ∧
    rows.map StockMovement.posting =
      if doesRestock r entry item && isRestockable s item then
        [(returnMovement c sale number entry item).posting] else []

/-- A line of a return has no effect, or the whole of it. -/
lemma runs_returnLine {c : Call} {r : ReturnRequest} {sale : Sale} {saleReturn number : ℕ}
    {p p' : ReturnProgress} {entry : ReturnEntry} {s t : State}
    (h : Runs (returnLine c r sale saleReturn number p entry) s p' t) :
    (entry.quantity ≤ 0 ∧ p' = p ∧ t = s) ∨
      ∃ item, LineReturned c r sale saleReturn number entry item p p' s t := by
  unfold returnLine at h
  rcases runs_ite.mp h with ⟨hle, h⟩ | ⟨hpos, h⟩
  · obtain ⟨rfl, rfl⟩ := runs_pure.mp h
    exact .inl ⟨hle, rfl, rfl⟩
  · simp only [runs_bind, runs_reads, runs_get, runs_modify, runs_pure] at h
    obtain ⟨item, _, ⟨hcheck, rfl⟩, _, _, rfl, _, _, ⟨rfl, rfl⟩, _, _, hrecord, rfl, rfl⟩ := h
    refine .inr ⟨item, ?_⟩
    unfold checkReturnLine at hcheck
    simp only [except_bind_eq_ok, found_eq_ok, require_eq_ok, pure, Except.pure, Except.ok.injEq,
      decide_eq_true_eq] at hcheck
    obtain ⟨item', hitem, -, hremaining, -, hwhole, -, -, rfl⟩ := hcheck
    refine {
      line := hitem
      positive := not_le.mp hpos
      remaining := by linarith
      whole := fun hmeter => by simpa [hmeter] using hwhole
      progress := rfl
      rest := ?_
      movements := ?_ }
    · split at hrecord
      · obtain ⟨row, -, -, hrest⟩ := runs_recordMovement hrecord
        exact hrest
      · obtain ⟨-, rfl⟩ := runs_pure.mp hrecord
        rfl
    · split at hrecord
      · rename_i hrestock
        obtain ⟨row, hrow, hstock, -⟩ := runs_recordMovement hrecord
        refine ⟨[row], by rw [hstock, Stock.movements_post]; rfl, ?_⟩
        -- recording the line changes no product
        refine Eq.trans ?_ (if_pos hrestock).symm
        rw [List.map_singleton, hrow.toRowFor.posting_eq]
      · rename_i hrestock
        obtain ⟨-, rfl⟩ := runs_pure.mp hrecord
        exact ⟨[], (List.append_nil _).symm, (if_neg hrestock).symm⟩

/-- The state in which the line loop of a return starts. -/
def openReturn (c : Call) (r : ReturnRequest) (sale : Sale) (s : State) : State :=
  { s with sales.returns := s.sales.returns ++ [saleReturnRow c r sale s] }

/-- The progress with which it starts. -/
def startProgress (s : State) : ReturnProgress where
  returned i := (s.sales.items[i]?.map fun x => dec x.returnedQuantity).getD 0

lemma runs_processReturn {c : Call} {r : ReturnRequest} {s t : State} {x : Unit}
    (h : Runs (processReturn c r) s x t) :
    ∃ sale p u, checkReturn c r s = .ok sale ∧
      Runs (r.items.foldlM (returnLine c r sale s.sales.returns.length
        (saleReturnRow c r sale s).returnNumber) (startProgress s)) (openReturn c r sale s) p u ∧
      0 < p.refundTotal ∧ t = finishReturn r sale s.sales.returns.length p.refundTotal u := by
  unfold processReturn at h
  simp only [runs_bind, runs_reads, runs_get, runs_modify, runs_check, decide_eq_true_eq] at h
  obtain ⟨sale, _, ⟨hcheck, rfl⟩, _, _, ⟨rfl, rfl⟩, _, _, rfl, p, u, hloop, _, _, ⟨hpos, rfl⟩,
    rfl⟩ := h
  exact ⟨sale, p, _, hcheck, hloop, hpos, rfl⟩

/-- A refund to the account is split so that the balance does not become negative. -/
lemma balanceOf_applyRefund_nonneg {s : State} {customer : ℕ}
    (hc : customer < s.parties.customers.length) (method : RefundMethod) (other : ℕ)
    (refund : ℤ) (h : 0 ≤ balanceOf s customer) :
    0 ≤ balanceOf (applyRefund method other refund s) customer := by
  cases method with
  | storeCredit =>
    unfold applyRefund
    rwa [balanceOf_applyStoreCreditChange]
  | customerAccount =>
    have hcharged : 0 ≤ balanceOf (if 0 < min (balanceOf s other) refund then
        applyBalanceChange other (-min (balanceOf s other) refund) s else s) customer := by
      split
      · rw [balanceOf_applyBalanceChange hc]
        split
        · rename_i hsame
          subst hsame
          omega
        · omega
      · exact h
    unfold applyRefund
    dsimp only
    split
    · rwa [balanceOf_applyStoreCreditChange]
    · exact hcharged
  | _ => exact h

lemma balanceOf_finishReturn_nonneg {r : ReturnRequest} {sale : Sale} {saleReturn : ℕ}
    {refund : ℤ} {s : State} {customer : ℕ} (hc : customer < s.parties.customers.length)
    (h : 0 ≤ balanceOf s customer) :
    0 ≤ balanceOf (finishReturn r sale saleReturn refund s) customer := by
  let opened : State := { s with
    sales.returns := s.sales.returns.modify saleReturn ({ · with refundAmount := refund }) }
  exact balanceOf_applyRefund_nonneg (s := opened) hc r.refundMethod sale.customer refund h

/-- A refund only touches the customers. -/
lemma applyRefund_eq (method : RefundMethod) (customer : ℕ) (refund : ℤ) (s : State) :
    ∃ customers, applyRefund method customer refund s = { s with
      parties.customers := customers } := by
  unfold applyRefund applyBalanceChange applyStoreCreditChange updateCustomer
  cases method with
  | storeCredit => exact ⟨_, rfl⟩
  | customerAccount =>
    dsimp only
    split <;> split <;> exact ⟨_, rfl⟩
  | _ => exact ⟨s.parties.customers, rfl⟩

/-- The end of a return sets the refund of its header and the status of the sale. -/
lemma finishReturn_eq (r : ReturnRequest) (sale : Sale) (saleReturn : ℕ) (refund : ℤ)
    (s : State) :
    ∃ customers, finishReturn r sale saleReturn refund s = { s with
      sales.returns := s.sales.returns.modify saleReturn ({ · with refundAmount := refund })
      sales.sales := s.sales.sales.modify r.sale ({ · with status := returnStatus s r.sale })
      parties.customers := customers } := by
  obtain ⟨customers, hrefund⟩ := applyRefund_eq r.refundMethod sale.customer refund { s with
    sales.returns := s.sales.returns.modify saleReturn ({ · with refundAmount := refund }) }
  refine ⟨customers, ?_⟩
  unfold finishReturn
  dsimp only
  rw [hrefund]
  rfl

/-- The sales tables without the two that the line loop of a return writes. -/
def SalesTables.withoutLines (x : SalesTables) : SalesTables :=
  { x with items := [], returnItems := [] }

lemma SalesTables.eq_of_withoutLines {x y : SalesTables} (h : x.withoutLines = y.withoutLines) :
    x = { y with items := x.items, returnItems := x.returnItems } := by
  cases x
  cases y
  simp only [withoutLines, SalesTables.mk.injEq] at h ⊢
  obtain ⟨hmethods, hsequences, hsales, -, hpayments, hreturns, -⟩ := h
  exact ⟨hmethods, hsequences, hsales, trivial, hpayments, hreturns, trivial⟩

lemma within_withoutLines_returnLine (c : Call) (r : ReturnRequest) (sale : Sale)
    (saleReturn number : ℕ) (p : ReturnProgress) (entry : ReturnEntry) :
    Within (Frame fun s : State => s.sales.withoutLines)
      (returnLine c r sale saleReturn number p entry) := by
  refine within_ite (fun _ => within_pure) fun _ => ?_
  refine within_bind within_reads fun item => ?_
  refine within_bind (within_modify fun s => rfl) fun _ => within_bind within_get fun s => ?_
  refine within_bind (within_recordOptional fun m _ => ?_) fun _ => within_pure
  intro s u t h
  exact congrArg SalesTables.withoutLines (sales_of_rest (within_rest_recordMovement m h))

/-- The tables after a return, in terms of the end of its line loop. -/
lemma processReturn_sales {c : Call} {r : ReturnRequest} {s t : State} {x : Unit}
    (h : Runs (processReturn c r) s x t) :
    ∃ sale p u, checkReturn c r s = .ok sale ∧
      Runs (r.items.foldlM (returnLine c r sale s.sales.returns.length
        (saleReturnRow c r sale s).returnNumber) (startProgress s)) (openReturn c r sale s) p u ∧
      t.stock = u.stock ∧
      t.sales = { s.sales with
        items := u.sales.items
        returnItems := u.sales.returnItems
        returns :=
          s.sales.returns ++ [{ saleReturnRow c r sale s with refundAmount := p.refundTotal }]
        sales := s.sales.sales.modify r.sale ({ · with status := returnStatus u r.sale }) } := by
  obtain ⟨sale, p, u, hcheck, hloop, -, rfl⟩ := runs_processReturn h
  obtain ⟨customers, hfinish⟩ := finishReturn_eq r sale s.sales.returns.length p.refundTotal u
  have hu := SalesTables.eq_of_withoutLines (within_foldlM (within_withoutLines_returnLine c r
    sale s.sales.returns.length (saleReturnRow c r sale s).returnNumber) r.items
    (startProgress s) hloop)
  refine ⟨sale, p, u, hcheck, hloop, by rw [hfinish], ?_⟩
  rw [hfinish]
  dsimp only
  rw [hu]
  unfold openReturn
  dsimp only
  rw [modify_concat]

/-! ## Footprints -/

section Footprint

variable {R : State → State → Prop} [IsPreorder State R]

lemma within_addSalePayment (hs : ∀ s x, R s { s with sales := x })
    (hp : ∀ s x f, R s (updateCustomer x f s)) (c : Call) (r : SalePaymentRequest) :
    Within R (addSalePayment c r) := by
  refine within_bind within_reads fun ⟨sale, amount⟩ => within_modify fun s => ?_
  exact IsTrans.trans _ _ _ (hs s _) (IsTrans.trans _ _ _ (hs _ _) (hp _ _ _))

/-- A conditional account change is a change of the parties, or none. -/
lemma ite_account_within (hp : ∀ s x f, R s (updateCustomer x f s)) (b : Prop) [Decidable b]
    (customer : ℕ) (f : Customer → Customer) (s : State) :
    R s (if b then updateCustomer customer f s else s) := by
  split
  · exact hp s _ _
  · exact refl s

lemma type_of_voidMovement {c : Call} {s : State} {sale : Sale} {entry : ℕ × SaleItem}
    {m : Movement} (h : voidMovement c s sale entry = some m) : m.reference.type = .void := by
  unfold voidMovement at h
  split at h
  · obtain rfl := Option.some.inj h
    rfl
  · exact nomatch h

lemma within_voidSale (hm : ∀ m, m.reference.type = .void → Within R (recordMovement m))
    (hs : ∀ s x, R s { s with sales := x }) (hp : ∀ s x f, R s (updateCustomer x f s))
    (c : Call) (sale : ℕ) : Within R (voidSale c sale) := by
  refine within_bind within_reads fun ⟨row, amounts⟩ => within_bind within_get fun s => ?_
  refine within_bind (within_forM fun m h => hm m ?_) fun _ => within_modify fun s => ?_
  · obtain ⟨entry, -, hentry⟩ := List.mem_filterMap.mp h
    exact type_of_voidMovement hentry
  · exact IsTrans.trans _ _ _ (ite_account_within hp _ _ _ s)
      (IsTrans.trans _ _ _ (ite_account_within hp _ _ _ _) (hs _ _))

lemma within_returnLine
    (hm : ∀ m, m.reference.type = .saleReturn → Within R (recordMovement m))
    (hs : ∀ s x, R s { s with sales := x }) (c : Call) (r : ReturnRequest) (sale : Sale)
    (saleReturn number : ℕ) (p : ReturnProgress) (entry : ReturnEntry) :
    Within R (returnLine c r sale saleReturn number p entry) := by
  refine within_ite (fun _ => within_pure) fun _ => ?_
  refine within_bind within_reads fun item => within_bind (within_modify fun s => hs s _) fun _ => ?_
  refine within_bind within_get fun s => ?_
  exact within_bind (within_recordOptional fun m h => hm m (type_of_mem_ite h rfl)) fun _ =>
    within_pure

lemma applyRefund_within (hp : ∀ s x f, R s (updateCustomer x f s)) (method : RefundMethod)
    (customer : ℕ) (refund : ℤ) (s : State) : R s (applyRefund method customer refund s) := by
  cases method with
  | storeCredit => exact hp s _ _
  | customerAccount =>
    exact IsTrans.trans _ _ _ (ite_account_within hp _ _ _ s) (ite_account_within hp _ _ _ _)
  | _ => exact refl s

lemma within_processReturn
    (hm : ∀ m, m.reference.type = .saleReturn → Within R (recordMovement m))
    (hs : ∀ s x, R s { s with sales := x }) (hp : ∀ s x f, R s (updateCustomer x f s))
    (c : Call) (r : ReturnRequest) : Within R (processReturn c r) := by
  refine within_bind within_reads fun sale => within_bind within_get fun s => ?_
  refine within_bind (within_modify fun s => hs s _) fun _ => ?_
  refine within_bind (within_foldlM (within_returnLine hm hs c r sale _ _) _ _) fun p => ?_
  refine within_bind within_check fun _ => within_modify fun s => ?_
  exact IsTrans.trans _ _ _ (hs s _)
    (IsTrans.trans _ _ _ (applyRefund_within hp _ _ _ _) (hs _ _))

end Footprint

end NexaPos
