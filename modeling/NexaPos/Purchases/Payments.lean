import NexaPos.Purchases.Services

/-!
# Paying a purchase

A purchase is paid at once (cash, bank transfer, card) or by post-dated cheques.  An immediate
payment settles the purchase and the supplier's payable when it is recorded; a cheque is only
allocated then, and settles them when it clears.  What is settled together with the pending
cheques may not exceed the purchase.
-/

namespace NexaPos

open Tx

/-! ## Reading a payment row -/

/-- `DECIMAL_FIELD_LIMIT`. -/
def decimalFieldLimit : ℚ := 100000000000

/-- `_validated_decimal`. -/
def validatedDecimal (value : Cell) (label : String) : Except PosError ℚ :=
  match value with
  | .blank => .ok 0
  | .invalid => .error (.validation s!"{label} must be a valid number.")
  | .nonFinite => .error (.validation s!"{label} must be a finite number.")
  | .number d => do
    require (|d.value| < decimalFieldLimit)
      (.validation s!"{label} is outside the supported range.")
    return d.value

/-- `_validated_money`. -/
def validatedMoney (value : Cell) (label : String) : Except PosError ℤ := do
  return money (← validatedDecimal value label)

/-- One row of a payment form; a date that does not parse is absent. -/
structure PaymentRow where
  method : RawChoice SupplierPaymentMethod
  amount : Cell
  paymentMethod : Option ℕ := none
  chequeNumber : Text := []
  bankName : Text := []
  chequeIssueDate : Option ℤ := none
  dueDate : Option ℤ := none

/-- `SupplierPayment.Method` labels. -/
def SupplierPaymentMethod.label : SupplierPaymentMethod → String
  | cash => "Cash"
  | bank => "Bank Transfer"
  | card => "Card"
  | cheque => "Cheque"

/-- `IMMEDIATE_METHOD_KINDS`. -/
def SupplierPaymentMethod.kind : SupplierPaymentMethod → Option PaymentKind
  | cash => some .cash
  | bank => some .bank
  | card => some .card
  | cheque => none

/-- `_normalise_payment_row`: the columns of the new payment. -/
structure NormalisedPayment where
  method : SupplierPaymentMethod
  amount : ℤ
  paymentMethod : Option ℕ := none
  chequeNumber : Text := []
  bankName : Text := []
  chequeIssueDate : Option ℤ := none
  dueDate : Option ℤ := none
  chequeStatus : Option ChequeStatus := none

/-- The columns of a cheque. -/
def normaliseCheque (c : Call) (amount : ℤ) (row : PaymentRow) :
    Except PosError NormalisedPayment := do
  let chequeNumber := Text.strip row.chequeNumber
  let bankName := Text.strip row.bankName
  require (chequeNumber ≠ []) (.validation "Cheque Number is required.")
  require (bankName ≠ []) (.validation "Bank Name is required.")
  let issued ← found row.chequeIssueDate (.validation "Cheque Issue Date is required.")
  let due ← found row.dueDate (.validation "Cheque Payment Date is required.")
  require (c.today < due) (.validation "Cheque Payment Date must be in the future.")
  return {
    method := .cheque
    amount := amount
    chequeNumber := chequeNumber.take 100
    bankName := bankName.take 120
    chequeIssueDate := some issued
    dueDate := some due
    chequeStatus := some .pending }

/-- The named payment method, or the first active one of the kind. -/
def immediatePaymentMethod (s : State) (method : SupplierPaymentMethod) (kind : PaymentKind)
    (named : Option ℕ) : Except PosError ℕ :=
  match named with
  | some id => do
    let row ← found s.sales.paymentMethods[id]? .notFound
    require (row.kind = kind && row.isActive)
      (.validation "Invalid payment method for this business.")
    return id
  | none =>
    found (s.sales.paymentMethods.findIdx? fun m => m.kind = kind && m.isActive)
      (.validation s!"{method.label} is not available.")

/-- `_normalise_payment_row`. -/
def normalisePaymentRow (c : Call) (s : State) (row : PaymentRow) :
    Except PosError NormalisedPayment := do
  let method ← found row.method.toOption
    (.validation "Select Cash, Bank Transfer, Card or Cheque.")
  let amount ← validatedMoney row.amount "Payment amount"
  require (0 < amount) (.validation "Payment amount must be greater than zero.")
  match method.kind with
  | none => normaliseCheque c amount row
  | some kind =>
    let id ← immediatePaymentMethod s method kind row.paymentMethod
    return { method := method, amount := amount, paymentMethod := some id }

/-! ## Recording -/

/-- The payments of a purchase. -/
def paymentsOfPurchase (s : State) (purchase : ℕ) : List SupplierPayment :=
  s.purchases.payments.filter fun p => p.purchase = some purchase

/-- A cheque that is still pending. -/
def SupplierPayment.isPendingCheque (p : SupplierPayment) : Bool :=
  p.method = .cheque && p.chequeStatus = some .pending

/-- `Purchase.cheques_pending`. -/
def chequesPending (s : State) (purchase : ℕ) : ℤ :=
  (((paymentsOfPurchase s purchase).filter SupplierPayment.isPendingCheque).map
    SupplierPayment.amount).sum

/-- `_locked_purchase_payments`: every payment of the purchase is one to its supplier. -/
def requireOwnPayments (s : State) (id : ℕ) (purchase : Purchase) : Except PosError Unit :=
  require ((paymentsOfPurchase s id).all fun p => p.supplier = purchase.supplier) .notFound

/-- The checks of `record_purchase_payments`: the purchase and the rows to create. -/
def checkPurchasePayments (c : Call) (purchase : ℕ) (rows : List PaymentRow) (s : State) :
    Except PosError (Purchase × List NormalisedPayment) := do
  let row ← authorizedPurchase c purchase s
  require (row.status ≠ .cancelled)
    (.validation "Payments cannot be added to a cancelled purchase.")
  requireOwnPayments s purchase row
  let _ ← found s.parties.suppliers[row.supplier]? .notFound
  let payments ← rows.mapM (normalisePaymentRow c s)
  require (!payments.isEmpty) (.validation "Add at least one payment row.")
  require (row.amountPaid + chequesPending s purchase +
      (payments.map NormalisedPayment.amount).sum ≤ row.total)
    (.validation "Paid plus Pending Cheques cannot exceed Purchase Total.")
  return (row, payments)

/-- The stored row of a new payment. -/
def paymentFor (c : Call) (id : ℕ) (purchase : Purchase) (s : State) (p : NormalisedPayment) :
    SupplierPayment where
  paymentNumber := nextNumber (s.purchases.payments.map SupplierPayment.paymentNumber)
  supplier := purchase.supplier
  purchase := some id
  amount := p.amount
  paymentMethod := p.paymentMethod
  method := p.method
  chequeNumber := p.chequeNumber
  bankName := p.bankName
  chequeIssueDate := p.chequeIssueDate
  dueDate := p.dueDate
  chequeStatus := p.chequeStatus
  paidBy := c.actor.user

/-- One iteration of the recording loop. -/
def addPayment (c : Call) (id : ℕ) (purchase : Purchase) (s : State) (p : NormalisedPayment) :
    State :=
  { s with purchases.payments := s.purchases.payments ++ [paymentFor c id purchase s p] }

/-- What the rows settle at once. -/
def settledTotal (payments : List NormalisedPayment) : ℤ :=
  ((payments.filter fun p => p.method ≠ .cheque).map NormalisedPayment.amount).sum

/-- An amount is settled: it is paid on the purchase and no longer owed to the supplier. -/
def settle (id supplier : ℕ) (amount : ℤ) (s : State) : State :=
  let s := { s with
    purchases.purchases := s.purchases.purchases.modify id
      fun p => { p with amountPaid := p.amountPaid + amount } }
  changeSupplierBalance supplier (-amount) s

/-- `record_purchase_payments`. -/
def recordPurchasePayments (c : Call) (purchase : ℕ) (rows : List PaymentRow) : Service Unit := do
  let (row, payments) ← reads (checkPurchasePayments c purchase rows)
  modify fun s => payments.foldl (addPayment c purchase row) s
  modify fun s =>
    if settledTotal payments = 0 then s
    else settle purchase row.supplier (settledTotal payments) s

/-! ## Cheques -/

/-- The checks of `update_cheque_status`: the cheque with its purchase, and the new status, which
is `none` when the cheque already has it. -/
def checkChequeStatus (c : Call) (payment : ℕ) (status : RawChoice ChequeStatus) (s : State) :
    Except PosError (SupplierPayment × ℕ × Option ChequeStatus) := do
  let row ← found s.purchases.payments[payment]? .notFound
  requireActorAccess c .purchases "purchases.manage"
  require (row.method = .cheque)
    (.validation "Only purchase cheques have a cheque status.")
  let id ← found row.purchase (.validation "Only purchase cheques have a cheque status.")
  let purchase ← found s.purchases.purchases[id]? .notFound
  let _ ← found s.parties.suppliers[row.supplier]? .notFound
  require (purchase.supplier = row.supplier) .notFound
  ensurePurchasesScope c s purchase.branch purchase.warehouse
  let status ← found status.toOption (.validation "Invalid cheque status.")
  if some status = row.chequeStatus then
    return (row, id, none)
  else
    require (row.chequeStatus = some .pending)
      (.validation "This cheque status can no longer be changed.")
    require (status ≠ .pending) (.validation "The cheque is already Pending.")
    return (row, id, some status)

/-- The cheque row in its new status. -/
def chequeIn (c : Call) (status : ChequeStatus) (row : SupplierPayment) : SupplierPayment :=
  { row with
    chequeStatus := some status
    clearedAt := if status = .cleared then some c.now else row.clearedAt }

/-- The writes of `update_cheque_status`. -/
def applyChequeStatus (c : Call) (payment : ℕ) (row : SupplierPayment) (id : ℕ)
    (status : ChequeStatus) (s : State) : State :=
  let s := if status = .cleared then settle id row.supplier row.amount s else s
  { s with purchases.payments := s.purchases.payments.modify payment (chequeIn c status) }

/-- `update_cheque_status`. -/
def updateChequeStatus (c : Call) (payment : ℕ) (status : RawChoice ChequeStatus) :
    Service Unit := do
  let (row, id, change) ← reads (checkChequeStatus c payment status)
  match change with
  | none => pure ()
  | some status => modify (applyChequeStatus c payment row id status)

/-! ## Cancelling -/

/-- The checks of `cancel_purchase`. -/
def checkCancelPurchase (c : Call) (purchase : ℕ) (s : State) : Except PosError Unit := do
  let row ← authorizedPurchase c purchase s
  require (row.status ≠ .cancelled) (.validation "Purchase is already cancelled.")
  requireOwnReturns s purchase row
  requireOwnPayments s purchase row
  require (!(itemsOfPurchase s purchase).any fun e => 0 < e.2.quantityReceived)
    (.validation ("Purchases with received goods cannot be cancelled — use a " ++
      "purchase return instead."))
  require (!(0 < row.amountPaid ||
      (paymentsOfPurchase s purchase).any SupplierPayment.isPendingCheque))
    (.validation "Purchases with Paid or Pending Cheques cannot be cancelled.")

/-- `cancel_purchase`. -/
def cancelPurchase (c : Call) (purchase : ℕ) : Service Unit := do
  reads (checkCancelPurchase c purchase)
  modify fun s => { s with
    purchases.purchases := s.purchases.purchases.modify purchase
      ({ · with status := .cancelled }) }

/-! ## What an accepted call did -/

/-- The stored row of a normalised payment. -/
structure PaymentStored (id supplier : ℕ) (p : NormalisedPayment) (row : SupplierPayment) :
    Prop where
  purchase : row.purchase = some id
  supplier : row.supplier = supplier
  amount : row.amount = p.amount
  method : row.method = p.method
  chequeStatus : row.chequeStatus = p.chequeStatus

/-- The recording loop appends one row for each payment. -/
lemma foldl_addPayment (c : Call) (id : ℕ) (row : Purchase) (payments : List NormalisedPayment)
    (s : State) :
    ∃ added : List SupplierPayment,
      payments.foldl (addPayment c id row) s =
        { s with purchases.payments := s.purchases.payments ++ added } ∧
      List.Forall₂ (PaymentStored id row.supplier) payments added := by
  induction payments generalizing s with
  | nil => exact ⟨[], by simp, .nil⟩
  | cons p payments ih =>
    obtain ⟨added, hadded, hstored⟩ := ih (addPayment c id row s p)
    refine ⟨paymentFor c id row s p :: added, ?_, .cons ⟨rfl, rfl, rfl, rfl, rfl⟩ hstored⟩
    rw [List.foldl_cons, hadded]
    simp [addPayment]

/-- A row that passes the checks: a positive amount, and a pending status for a cheque only. -/
lemma normalisePaymentRow_ok {c : Call} {s : State} {row : PaymentRow} {p : NormalisedPayment}
    (h : normalisePaymentRow c s row = .ok p) :
    0 < p.amount ∧ p.chequeStatus = if p.method = .cheque then some .pending else none := by
  unfold normalisePaymentRow at h
  simp only [except_bind_eq_ok, found_eq_ok, require_eq_ok, decide_eq_true_eq] at h
  obtain ⟨method, -, amount, -, -, hpos, h⟩ := h
  cases method with
  | cheque =>
    simp only [SupplierPaymentMethod.kind, normaliseCheque, except_bind_eq_ok, found_eq_ok,
      require_eq_ok, pure, Except.pure, Except.ok.injEq] at h
    obtain ⟨-, -, -, -, -, -, -, -, -, -, rfl⟩ := h
    exact ⟨hpos, rfl⟩
  | _ =>
    simp only [SupplierPaymentMethod.kind, except_bind_eq_ok, pure, Except.pure,
      Except.ok.injEq] at h
    obtain ⟨-, -, rfl⟩ := h
    exact ⟨hpos, rfl⟩

lemma checkPurchasePayments_ok {c : Call} {id : ℕ} {rows : List PaymentRow} {s : State}
    {row : Purchase} {payments : List NormalisedPayment}
    (h : checkPurchasePayments c id rows s = .ok (row, payments)) :
    s.purchases.purchases[id]? = some row ∧ row.supplier < s.parties.suppliers.length ∧
      (∀ p ∈ payments,
        0 < p.amount ∧ p.chequeStatus = if p.method = .cheque then some .pending else none) ∧
      row.amountPaid + chequesPending s id + (payments.map NormalisedPayment.amount).sum ≤
        row.total := by
  unfold checkPurchasePayments at h
  simp only [except_bind_eq_ok, found_eq_ok, require_eq_ok, decide_eq_true_eq, pure, Except.pure,
    Except.ok.injEq, Prod.mk.injEq] at h
  obtain ⟨row', hrow, -, -, -, -, supplier, hsupplier, payments', hpayments, -, -, -, hle, rfl,
    rfl⟩ := h
  refine ⟨authorizedPurchase_ok hrow, (List.getElem?_eq_some_iff.mp hsupplier).1, ?_, hle⟩
  intro p hp
  obtain ⟨x, -, hx⟩ := exists_of_forall₂_mem (mapM_eq_ok.mp hpayments) hp
  exact normalisePaymentRow_ok hx

lemma checkChequeStatus_ok {c : Call} {payment : ℕ} {status : RawChoice ChequeStatus} {s : State}
    {row : SupplierPayment} {id : ℕ} {new : ChequeStatus}
    (h : checkChequeStatus c payment status s = .ok (row, id, some new)) :
    s.purchases.payments[payment]? = some row ∧ row.method = .cheque ∧ row.purchase = some id ∧
      row.supplier < s.parties.suppliers.length ∧ row.chequeStatus = some .pending ∧
      new ≠ .pending := by
  unfold checkChequeStatus at h
  simp only [except_bind_eq_ok, found_eq_ok, require_eq_ok, decide_eq_true_eq] at h
  obtain ⟨row', hrow, -, -, -, hcheque, id', hid, purchase, -, supplier, hsupplier, -, -, -, -,
    status', -, h⟩ := h
  have hlt := (List.getElem?_eq_some_iff.mp hsupplier).1
  split at h
  · cases h
  · simp only [except_bind_eq_ok, require_eq_ok, decide_eq_true_eq, pure, Except.pure,
      Except.ok.injEq, Prod.mk.injEq, Option.some.injEq] at h
    obtain ⟨-, hpending, -, hnew, rfl, rfl, rfl⟩ := h
    exact ⟨hrow, hcheque, hid, hlt, hpending, hnew⟩

end NexaPos
