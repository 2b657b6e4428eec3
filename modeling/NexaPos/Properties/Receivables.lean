import NexaPos.System

/-!
# Customer receivables

Two services collect what a customer owes: `record_customer_payment` on the account and
`add_sale_payment` on one sale.  Two take back what was charged: `void_sale` and
`process_return`.  The account service and the return check the customer's balance; the other
two check only the sale's own figures.  So the same debt can be collected twice, and the balance
of a customer stays non-negative exactly as long as every accepted sale payment and every void
takes no more than the balance at that moment (`receivable_nonneg_iff`).
-/

namespace NexaPos

open Tx

/-! ## What each service does to a balance -/

/-- What a payment on a sale, or a void, takes off the balance of a customer: the amount
collected, or what is still unpaid. -/
def creditedBack (customer : ℕ) (s : State) (op : Op) : ℤ :=
  let ofSale (id : ℕ) (amount : Sale → ℤ) : ℤ :=
    match s.sales.sales[id]? with
    | some sale => if sale.customer = customer then amount sale else 0
    | none => 0
  match op with
  | .addSalePayment _ r => ofSale r.sale fun _ => money r.amount
  | .voidSale _ id => ofSale id fun sale => sale.total - sale.amountPaid
  | _ => 0

/-- Accepting the request takes at most the customer's balance. -/
def WithinBalance (customer : ℕ) (s : State) (op : Op) : Prop :=
  op.Accepted s → creditedBack customer s op ≤ balanceOf s customer

section Services

variable {s t : State} {customer : ℕ} {x : Unit} (hc : customer < s.parties.customers.length)

include hc

/-- A sale only charges. -/
lemma balance_completeSale {c : Call} {r : CheckoutRequest}
    (h : Runs (Op.completeSale c r).service s x t) :
    balanceOf s customer ≤ balanceOf t customer := by
  obtain ⟨id, hrun⟩ := runs_discard.mp h
  rcases runs_completeSale hrun with hreplayed | ⟨p, number, items, hmade⟩
  · rw [hreplayed.unchanged]
  · obtain ⟨_, -, hprepared⟩ := hmade.prepared
    have hcredit := (accountTenders_nonneg hprepared).1
    have hsame : balanceOf t customer =
        balanceOf (updateCustomer r.customer (chargedCustomer p) s) customer := by
      unfold balanceOf
      rw [hmade.parties]
      rfl
    rw [hsame, balanceOf_updateCustomer (d := p.paymentTotals.creditAmount) hc _ fun _ => rfl]
    split <;> omega

lemma balance_addSalePayment {c : Call} {r : SalePaymentRequest}
    (h : Runs (addSalePayment c r) s x t) :
    balanceOf t customer =
      balanceOf s customer - creditedBack customer s (.addSalePayment c r) := by
  obtain ⟨sale, amount, hcheck, rfl⟩ := runs_addSalePayment h
  obtain ⟨hsale, rfl, -⟩ := checkSalePayment_ok hcheck
  have hcredited : creditedBack customer s (.addSalePayment c r) =
      if sale.customer = customer then money r.amount else 0 := by
    simp only [creditedBack, hsale]
  rw [hcredited, balanceOf_applySalePayment hc]
  split <;> omega

/-- A void takes back what is still unpaid, and never adds to the balance. -/
lemma balance_voidSale {c : Call} {id : ℕ} (h : Runs (voidSale c id) s x t) :
    balanceOf t customer =
      balanceOf s customer - max 0 (creditedBack customer s (.voidSale c id)) := by
  obtain ⟨sale, amounts, rows, u, hcheck, -, hmoved, rfl⟩ := runs_voidSale h
  obtain ⟨hsale, -, -, rfl⟩ := checkVoid_ok hcheck
  have hparties : u.parties = s.parties := parties_of_rest hmoved.rest
  have hbalance : balanceOf u customer = balanceOf s customer := by
    unfold balanceOf
    rw [hparties]
  have hcredited : creditedBack customer s (.voidSale c id) =
      if sale.customer = customer then sale.total - sale.amountPaid else 0 := by
    simp only [creditedBack, hsale]
  rw [balanceOf_applyVoid (by rwa [hparties]), hbalance, hcredited]
  by_cases hcustomer : sale.customer = customer <;> simp [hcustomer]

/-- A refund to the account takes at most what is owed. -/
lemma balance_processReturn {c : Call} {r : ReturnRequest} (h : Runs (processReturn c r) s x t)
    (hnonneg : 0 ≤ balanceOf s customer) : 0 ≤ balanceOf t customer := by
  obtain ⟨sale, p, u, -, hloop, -, rfl⟩ := runs_processReturn h
  have hparties : u.parties = s.parties := by
    have hmoves : ∀ m, Within (Frame State.parties) (recordMovement m) := fun m =>
      (within_rest_recordMovement m).mono fun _ _ h => parties_of_rest h
    have hline := within_returnLine (fun m _ => hmoves m) (fun _ _ => rfl) c r sale
    have hframe := fun saleReturn number =>
      within_foldlM (hline saleReturn number) r.items (startProgress s)
    have hsame := hframe _ _ hloop
    exact hsame
  have hbalance : balanceOf u customer = balanceOf s customer := by
    unfold balanceOf
    rw [hparties]
  refine balanceOf_finishReturn_nonneg (by rwa [hparties]) ?_
  rwa [hbalance]

/-- A collection takes at most what is owed. -/
lemma balance_recordCustomerPayment {c : Call} {r : CollectionRequest}
    (h : Runs (recordCustomerPayment c r) s x t) (hnonneg : 0 ≤ balanceOf s customer) :
    0 ≤ balanceOf t customer := by
  obtain ⟨receipt, hcheck, rfl⟩ := runs_recordCustomerPayment h
  obtain ⟨hpos, hle⟩ := checkCollection_ok hcheck
  rw [balanceOf_applyBalanceChange (by exact hc)]
  change 0 ≤ balanceOf s customer + _
  split
  · rename_i hsame
    subst hsame
    omega
  · omega

end Services

/-! ## The other requests -/

/-- The step relation of a table of customers that only grows. -/
def CustomersGrow (s t : State) : Prop :=
  s.parties.customers.length ≤ t.parties.customers.length

instance : IsPreorder State CustomersGrow where
  refl _ := Nat.le_refl _
  trans _ _ _ h₁ h₂ := Nat.le_trans h₁ h₂

/-- Outside master data, a customer is only rewritten in place, and only as an account. -/
lemma Component.customers {comp : Component} {s t : State} (h : comp.Change s t)
    (hp : comp ≠ .parties) :
    CustomersGrow s t ∧ (comp ≠ .accounts → t.parties.customers = s.parties.customers) := by
  have heq : t.parties.customers = s.parties.customers →
      CustomersGrow s t ∧ (comp ≠ .accounts → t.parties.customers = s.parties.customers) := by
    intro hsame
    refine ⟨?_, fun _ => hsame⟩
    unfold CustomersGrow
    rw [hsame]
  cases comp with
  | parties => exact absurd rfl hp
  | accounts =>
    obtain ⟨x, f, rfl⟩ := h
    refine ⟨?_, fun h => absurd rfl h⟩
    unfold CustomersGrow updateCustomer
    rw [List.length_modify]
  | transfers => obtain ⟨x, y, rfl⟩ := h; exact heq rfl
  | adjustments => obtain ⟨x, y, rfl⟩ := h; exact heq rfl
  | counts => obtain ⟨x, y, rfl⟩ := h; exact heq rfl
  | levels => obtain ⟨k, -, rfl⟩ := h; exact heq rfl
  | movements type =>
    obtain ⟨m, u, -, hrun⟩ := h
    exact heq (congrArg Parties.customers (parties_of_rest (within_rest_recordMovement m hrun)))
  | _ => obtain ⟨x, rfl⟩ := h; exact heq rfl

/-- The customer form removes no customer. -/
lemma customersGrow_save (m : MasterData) (s : State) : CustomersGrow s (m.save s) := by
  cases m with
  | customer id row =>
    cases id with
    | none =>
      change s.parties.customers.length ≤ (s.parties.customers ++ [_]).length
      rw [List.length_append]
      omega
    | some i =>
      change s.parties.customers.length ≤ (s.parties.customers.modify i _).length
      rw [List.length_modify]
  | _ => exact Nat.le_refl _

/-- The customer form touches no existing balance. -/
lemma balanceOf_save {s : State} {customer : ℕ} (hc : customer < s.parties.customers.length)
    (m : MasterData) : balanceOf (m.save s) customer = balanceOf s customer := by
  cases m with
  | customer id row =>
    cases id with
    | none =>
      unfold balanceOf
      change ((s.parties.customers ++ [_])[customer]?.map Customer.balance).getD 0 = _
      rw [List.getElem?_append_left hc]
    | some i =>
      have hkept : (s.parties.customers.modify i (fun old => { old with
          homeBranch := row.homeBranch, creditLimit := row.creditLimit,
          isActive := row.isActive })).map Customer.balance =
            s.parties.customers.map Customer.balance := by
        refine map_modify_of_eq ?_ _ _
        intro old
        rfl
      unfold balanceOf
      rw [← List.getElem?_map, ← List.getElem?_map]
      exact congrArg (fun l : List ℤ => l[customer]?.getD 0) hkept
  | _ => rfl

lemma customersGrow_step (s : State) (op : Op) : CustomersGrow s (step s op) := by
  have hgrow : (∀ comp ∈ op.footprint, comp ≠ .parties) → CustomersGrow s (step s op) :=
    fun h => step_within op (fun comp hcomp _ _ hc => (Component.customers hc (h comp hcomp)).1) s
  cases op with
  | saveMasterData m => exact customersGrow_save m s
  | _ => exact hgrow (by simp [Op.footprint])

/-! ## Non-negative balances -/

/-- A request keeps a balance non-negative exactly when it takes at most that balance. -/
lemma receivable_step_iff {s : State} {customer : ℕ}
    (hc : customer < s.parties.customers.length) (hnonneg : 0 ≤ balanceOf s customer) (op : Op) :
    0 ≤ balanceOf (step s op) customer ↔ WithinBalance customer s op := by
  have hother : creditedBack customer s op = 0 → 0 ≤ balanceOf (step s op) customer →
      (0 ≤ balanceOf (step s op) customer ↔ WithinBalance customer s op) := by
    intro hzero hafter
    refine ⟨fun _ _ => ?_, fun _ => hafter⟩
    rw [hzero]
    exact hnonneg
  have hframe : (∀ comp ∈ op.footprint, comp ≠ .parties ∧ comp ≠ .accounts) →
      balanceOf (step s op) customer = balanceOf s customer := by
    intro hop
    have hsame : (step s op).parties.customers = s.parties.customers := by
      refine step_within (R := Frame fun s => s.parties.customers) op ?_ s
      intro comp hcomp s t hchange
      exact (Component.customers hchange (hop comp hcomp).1).2 (hop comp hcomp).2
    unfold balanceOf
    rw [hsame]
  by_cases haccepted : op.Accepted s
  · have hrun := haccepted.runs
    have hguard : WithinBalance customer s op ↔
        creditedBack customer s op ≤ balanceOf s customer :=
      ⟨fun h => h haccepted, fun h _ => h⟩
    cases op with
    | completeSale c r =>
      exact hother rfl (hnonneg.trans (balance_completeSale hc hrun))
    | addSalePayment c r =>
      rw [hguard, balance_addSalePayment hc hrun]
      omega
    | voidSale c id =>
      rw [hguard, balance_voidSale hc hrun]
      omega
    | processReturn c r => exact hother rfl (balance_processReturn hc hrun hnonneg)
    | recordCustomerPayment c r =>
      exact hother rfl (balance_recordCustomerPayment hc hrun hnonneg)
    | saveMasterData m =>
      refine hother rfl ?_
      have hsaved : step s (.saveMasterData m) = m.save s := rfl
      rw [hsaved, balanceOf_save hc m]
      exact hnonneg
    | _ =>
      refine hother rfl ?_
      rw [hframe (by simp [Op.footprint])]
      exact hnonneg
  · rw [step_of_not_accepted haccepted]
    exact ⟨fun _ h => absurd h haccepted, fun _ => hnonneg⟩

/-- **Receivables.**  Along any sequence of requests, the balance of a customer whose balance is
not negative at the start stays non-negative if and only if every accepted payment on a sale and
every accepted void takes at most the customer's balance at that moment. -/
theorem receivable_nonneg_iff {s : State} {customer : ℕ}
    (hc : customer < s.parties.customers.length) (hnonneg : 0 ≤ balanceOf s customer)
    (ops : List Op) :
    (∀ n, 0 ≤ balanceOf (run s (ops.take n)) customer) ↔
      Trace.All step (WithinBalance customer) s ops := by
  let exists_nonneg : State → Prop := fun s =>
    customer < s.parties.customers.length ∧ 0 ≤ balanceOf s customer
  have hstep : ∀ s op, exists_nonneg s →
      (exists_nonneg (step s op) ↔ WithinBalance customer s op) := by
    rintro s op ⟨hc, hnonneg⟩
    have hgrow : customer < (step s op).parties.customers.length :=
      Nat.lt_of_lt_of_le hc (customersGrow_step s op)
    rw [← receivable_step_iff hc hnonneg op]
    exact and_iff_right hgrow
  rw [← Trace.invariant_iff_all hstep ⟨hc, hnonneg⟩ ops]
  have hexists : ∀ n, customer < (run s (ops.take n)).parties.customers.length := fun n =>
    Nat.lt_of_lt_of_le hc (Trace.related customersGrow_step s (ops.take n))
  exact ⟨fun h n => ⟨hexists n, h n⟩, fun h n => (h n).2⟩

/-- A sale of 100 on account, collected on the account and then again on the sale. -/
def collectedTwice : List Op := [
  Shop.sell 1 [⟨2, 100⟩],
  .recordCustomerPayment Shop.call { customer := 0, amount := 100, method := 0 },
  .addSalePayment Shop.call { sale := 0, amount := 100, method := 0 }]

/-- The customer owes nothing at first, every request is accepted, and in the end the customer
owes minus 100. -/
theorem receivable_negative :
    balanceOf (history (Shop.stocked 100000)) 0 = 0 ∧
      Trace.All step (fun s op => op.Accepted s) (history (Shop.stocked 100000)) collectedTwice ∧
      balanceOf (run (history (Shop.stocked 100000)) collectedTwice) 0 = -100000 := by
  refine ⟨by decide +kernel, ?_, by decide +kernel⟩
  unfold collectedTwice
  refine ⟨?_, ?_, ?_, trivial⟩ <;> decide +kernel

/-- A sale on account, partly collected on the sale and then void. -/
def collectedOnce : List Op := [
  Shop.sell 1 [⟨2, 100⟩],
  .addSalePayment Shop.call { sale := 0, amount := 60, method := 0 },
  .voidSale Shop.call 0]

theorem receivable_nonneg_run :
    0 ≤ balanceOf (run (history (Shop.stocked 100000)) collectedOnce) 0 := by
  refine (receivable_nonneg_iff (by decide +kernel) (by decide +kernel) collectedOnce).mpr ?_ 3
  unfold collectedOnce
  refine ⟨?_, ?_, ?_, trivial⟩ <;> intro _ <;> decide +kernel

end NexaPos
