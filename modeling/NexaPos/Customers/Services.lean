import NexaPos.Core.State

/-!
# Customer accounts

A customer's account is two cached amounts, what the customer owes and the store credit.  They
are moved by `apply_balance_change` and `apply_store_credit_change`, which check nothing, and by
`record_customer_payment`, which collects against the receivable and checks it first.
-/

namespace NexaPos

open Tx

/-- Rewrite one customer. -/
def updateCustomer (customer : ℕ) (f : Customer → Customer) (s : State) : State :=
  { s with parties.customers := s.parties.customers.modify customer f }

/-- `apply_balance_change`: shift the receivable. -/
def applyBalanceChange (customer : ℕ) (delta : ℤ) (s : State) : State :=
  updateCustomer customer (fun x => { x with balance := x.balance + delta }) s

/-- `apply_store_credit_change`: shift the store credit. -/
def applyStoreCreditChange (customer : ℕ) (delta : ℤ) (s : State) : State :=
  updateCustomer customer (fun x => { x with storeCredit := x.storeCredit + delta }) s

/-- The receivable of a customer. -/
def balanceOf (s : State) (customer : ℕ) : ℤ :=
  (s.parties.customers[customer]?.map Customer.balance).getD 0

/-- The store credit of a customer. -/
def storeCreditOf (s : State) (customer : ℕ) : ℤ :=
  (s.parties.customers[customer]?.map Customer.storeCredit).getD 0

/-- Only money in hand settles a balance. -/
def PaymentKind.isAccount : PaymentKind → Bool
  | .customerCredit | .storeCredit => true
  | _ => false

/-- A shift that may take a payment: open, the member's own, and at the given branch. -/
def isOpenShiftAt (c : Call) (s : State) (branch : ℕ) (shift : ℕ) : Bool :=
  (s.tenant.shifts[shift]?).any fun x =>
    x.cashier = c.actor.user && x.branch = branch && x.status = .opened

/-- The arguments of `record_customer_payment`. -/
structure CollectionRequest where
  customer : ℕ
  amount : ℚ
  method : ℕ
  shift : Option ℕ := none

/-- The checks of `record_customer_payment` on the locked rows; the receipt row they admit. -/
def checkCollection (c : Call) (r : CollectionRequest) (s : State) :
    Except PosError CustomerPayment := do
  requireActorAccess c .customerCredit "customers.payments"
  let customer ← found s.parties.customers[r.customer]? .notFound
  let method ← found s.sales.paymentMethods[r.method]? .notFound
  require method.isActive .notFound
  require (!method.kind.isAccount)
    (.validation "Use a real payment method to collect a balance.")
  require (c.actor.allowedBranchIds.isNone || customer.homeBranch.any c.actor.canAccessBranch)
    .scopeDenied
  require (r.shift.all fun id => customer.homeBranch.any fun branch =>
    isOpenShiftAt c s branch id && c.actor.canAccessBranch branch) .scopeDenied
  let amount := money r.amount
  require (0 < amount) (.validation "Payment amount must be positive.")
  require (amount ≤ customer.balance)
    (.validation "Payment exceeds the customer's outstanding balance.")
  return {
    receiptNumber :=
      nextNumber (s.parties.customerPayments.map CustomerPayment.receiptNumber)
    customer := r.customer
    branch := customer.homeBranch
    amount := amount
    paymentMethod := r.method
    receivedBy := c.actor.user
    shift := r.shift }

/-- `record_customer_payment`. -/
def recordCustomerPayment (c : Call) (r : CollectionRequest) : Service Unit := do
  let receipt ← reads (checkCollection c r)
  modify fun s => { s with
    parties.customerPayments := s.parties.customerPayments ++ [receipt] }
  modify (applyBalanceChange r.customer (-receipt.amount))

/-! ## What the account services do -/

@[simp] lemma applyBalanceChange_zero (customer : ℕ) (s : State) :
    applyBalanceChange customer 0 s = s := by
  unfold applyBalanceChange updateCustomer
  have hid : (fun x : Customer => { x with balance := x.balance + 0 }) = id := by
    funext x
    simp
  rw [hid, List.modify_id]

@[simp] lemma applyStoreCreditChange_zero (customer : ℕ) (s : State) :
    applyStoreCreditChange customer 0 s = s := by
  unfold applyStoreCreditChange updateCustomer
  have hid : (fun x : Customer => { x with storeCredit := x.storeCredit + 0 }) = id := by
    funext x
    simp
  rw [hid, List.modify_id]

/-- A change made only when its amount is positive, of an amount that is not negative. -/
lemma ite_account_eq {s : State} {d : ℤ} {f : ℤ → State} (hd : 0 ≤ d) (h0 : f 0 = s) :
    (if 0 < d then f d else s) = f d := by
  by_cases h : 0 < d
  · rw [if_pos h]
  · obtain rfl : d = 0 := by omega
    rw [if_neg h, h0]

section Account

variable {d : ℤ} (hd : 0 ≤ d) (customer : ℕ) (s : State)

include hd

lemma ite_charge : (if 0 < d then applyBalanceChange customer d s else s) =
    applyBalanceChange customer d s :=
  ite_account_eq (f := fun d => applyBalanceChange customer d s) hd (by simp)

lemma ite_useCredit : (if 0 < d then applyStoreCreditChange customer (-d) s else s) =
    applyStoreCreditChange customer (-d) s :=
  ite_account_eq (f := fun d => applyStoreCreditChange customer (-d) s) hd (by simp)

end Account

/-- A customer's balance moves with the changes of that customer only. -/
lemma balanceOf_updateCustomer {s : State} {other : ℕ} (ho : other < s.parties.customers.length)
    (customer : ℕ) {f : Customer → Customer} {d : ℤ} (hf : ∀ x, (f x).balance = x.balance + d) :
    balanceOf (updateCustomer customer f s) other =
      balanceOf s other + if customer = other then d else 0 := by
  unfold balanceOf updateCustomer
  simp only [List.getElem?_modify]
  by_cases hc : customer = other
  · subst hc
    simp [List.getElem?_eq_getElem ho, hf]
  · simp [hc]

lemma balanceOf_applyBalanceChange {s : State} {other : ℕ}
    (ho : other < s.parties.customers.length) (customer : ℕ) (delta : ℤ) :
    balanceOf (applyBalanceChange customer delta s) other =
      balanceOf s other + if customer = other then delta else 0 :=
  balanceOf_updateCustomer ho customer fun _ => rfl

/-- The two account amounts move independently. -/
lemma balanceOf_applyStoreCreditChange (customer : ℕ) (delta : ℤ) (s : State) (other : ℕ) :
    balanceOf (applyStoreCreditChange customer delta s) other = balanceOf s other := by
  unfold balanceOf applyStoreCreditChange updateCustomer
  simp only [List.getElem?_modify]
  by_cases hc : customer = other
  · subst hc
    cases s.parties.customers[customer]? <;> simp
  · simp [hc]

lemma storeCreditOf_applyStoreCreditChange {s : State} {other : ℕ}
    (ho : other < s.parties.customers.length) (customer : ℕ) (delta : ℤ) :
    storeCreditOf (applyStoreCreditChange customer delta s) other =
      storeCreditOf s other + if customer = other then delta else 0 := by
  unfold storeCreditOf applyStoreCreditChange updateCustomer
  simp only [List.getElem?_modify]
  by_cases hc : customer = other
  · subst hc
    simp [List.getElem?_eq_getElem ho]
  · simp [hc]

lemma storeCreditOf_applyBalanceChange (customer : ℕ) (delta : ℤ) (s : State) (other : ℕ) :
    storeCreditOf (applyBalanceChange customer delta s) other = storeCreditOf s other := by
  unfold storeCreditOf applyBalanceChange updateCustomer
  simp only [List.getElem?_modify]
  by_cases hc : customer = other
  · subst hc
    cases s.parties.customers[customer]? <;> simp
  · simp [hc]

/-- Account changes keep every customer row. -/
@[simp] lemma length_applyBalanceChange (customer : ℕ) (delta : ℤ) (s : State) :
    (applyBalanceChange customer delta s).parties.customers.length =
      s.parties.customers.length := List.length_modify ..

lemma runs_recordCustomerPayment {c : Call} {r : CollectionRequest} {s t : State} {x : Unit}
    (h : Runs (recordCustomerPayment c r) s x t) :
    ∃ receipt, checkCollection c r s = .ok receipt ∧
      t = applyBalanceChange r.customer (-receipt.amount) { s with
        parties.customerPayments := s.parties.customerPayments ++ [receipt] } := by
  unfold recordCustomerPayment at h
  simp only [runs_bind, runs_reads, runs_modify] at h
  obtain ⟨receipt, _, ⟨hcheck, rfl⟩, _, _, rfl, rfl⟩ := h
  exact ⟨receipt, hcheck, rfl⟩

/-- A collection is positive and within the balance. -/
lemma checkCollection_ok {c : Call} {r : CollectionRequest} {s : State}
    {receipt : CustomerPayment} (h : checkCollection c r s = .ok receipt) :
    0 < receipt.amount ∧ receipt.amount ≤ balanceOf s r.customer := by
  unfold checkCollection at h
  simp only [except_bind_eq_ok, found_eq_ok, require_eq_ok, pure, Except.pure, Except.ok.injEq,
    decide_eq_true_eq] at h
  obtain ⟨-, -, customer, hcustomer, -, -, -, -, -, -, -, -, -, -, -, hpos, -, hle, rfl⟩ := h
  refine ⟨hpos, ?_⟩
  unfold balanceOf
  rw [hcustomer]
  exact hle

/-! ## Footprints -/

section Footprint

variable {R : State → State → Prop} [IsPreorder State R]

lemma within_recordCustomerPayment (hp : ∀ s x f, R s (updateCustomer x f s))
    (hr : ∀ s x, R s { s with parties.customerPayments := x }) (c : Call)
    (r : CollectionRequest) : Within R (recordCustomerPayment c r) := by
  refine within_bind within_reads fun receipt => ?_
  exact within_bind (within_modify fun s => hr s _) fun _ => within_modify fun s => hp s _ _

end Footprint

end NexaPos
