import NexaPos.System

/-!
# The payment rows of a sale

A checkout may be overpaid in cash.  The change is the excess of all tenders over the total, but
it is taken out of the first cash tender alone, and a tender that nothing is left of is dropped.
So the stored rows add up to the total exactly when the first cash tender covers the change
(`sum_storedTenders`, `payments_reconcile_iff`).  A customer who hands over a small note first
and a large one second leaves rows that claim more money than the drawer keeps.
-/

namespace NexaPos

open Tx

/-! ## Taking change out of the first cash tender -/

/-- The first cash amount of some payments, zero when there is none. -/
def firstCashAmount (payments : List CleanPayment) : ℤ :=
  ((payments.find? fun x => x.kind = .cash).map CleanPayment.amount).getD 0

lemma firstCashAmount_nonneg (payments : List CleanPayment) : 0 ≤ firstCashAmount payments := by
  unfold firstCashAmount
  cases payments.find? (fun x => x.kind = .cash) with
  | none => exact le_rfl
  | some payment => exact payment.amount_pos.le

/-- Without change every tender is stored as it is. -/
lemma storedTenders_zero (payments : List CleanPayment) :
    storedTenders 0 payments = payments.map fun x => (x, x.amount) := by
  induction payments with
  | nil => rfl
  | cons payment payments ih => simp [storedTenders, ih]

/-- What is stored of the tenders of some kinds, cash among them: what they add up to, less as
much of the change as the first cash tender covers. -/
lemma sum_storedTenders (kinds : PaymentKind → Bool) (hcash : kinds .cash = true) {change : ℤ}
    (hchange : 0 ≤ change) (payments : List CleanPayment) :
    (((storedTenders change payments).filter fun e => kinds e.1.kind).map Prod.snd).sum =
      tendered kinds payments - min change (firstCashAmount payments) := by
  induction payments with
  | nil => simp [storedTenders, tendered, firstCashAmount, hchange]
  | cons payment payments ih =>
    have hall : (((payments.map fun x => (x, x.amount)).filter fun e => kinds e.1.kind).map
        Prod.snd).sum = tendered kinds payments := by
      unfold tendered
      rw [List.filter_map, List.map_map]
      rfl
    have hcons : tendered kinds (payment :: payments) =
        (if kinds payment.kind then payment.amount else 0) + tendered kinds payments := by
      unfold tendered
      cases h : kinds payment.kind <;> simp [h]
    by_cases hkind : payment.kind = .cash
    · have hfirst : firstCashAmount (payment :: payments) = payment.amount := by
        simp [firstCashAmount, hkind]
      rw [hcons, hfirst, hkind, hcash, if_pos rfl]
      unfold storedTenders
      by_cases hpos : 0 < change
      · rw [if_pos ⟨hkind, hpos⟩, storedTenders_zero]
        by_cases hless : payment.amount - change ≤ 0
        · rw [if_pos hless, hall, min_eq_right (by omega)]
          omega
        · rw [if_neg hless, List.filter_cons_of_pos (by simp [hkind, hcash]), List.map_cons,
            List.sum_cons, hall, min_eq_left (by omega)]
          omega
      · obtain rfl : change = 0 := by omega
        rw [if_neg (by simp), storedTenders_zero,
          List.filter_cons_of_pos (by simp [hkind, hcash]), List.map_cons, List.sum_cons, hall,
          min_eq_left payment.amount_pos.le]
        omega
    · have hfirst : firstCashAmount (payment :: payments) = firstCashAmount payments := by
        simp [firstCashAmount, hkind]
      rw [hcons, hfirst]
      unfold storedTenders
      rw [if_neg (by simp [hkind])]
      cases hk : kinds payment.kind with
      | false =>
        rw [List.filter_cons_of_neg (by simp [hk]), ih]
        simp
      | true =>
        rw [List.filter_cons_of_pos (by simp [hk]), List.map_cons, List.sum_cons, ih]
        simp only [if_true]
        omega

/-- Tenders that are not cash are stored as they are. -/
lemma sum_storedTenders_of_ne_cash (kinds : PaymentKind → Bool) (hcash : kinds .cash = false)
    (change : ℤ) (payments : List CleanPayment) :
    (((storedTenders change payments).filter fun e => kinds e.1.kind).map Prod.snd).sum =
      tendered kinds payments := by
  induction payments generalizing change with
  | nil => rfl
  | cons payment payments ih =>
    have hcons : tendered kinds (payment :: payments) =
        (if kinds payment.kind then payment.amount else 0) + tendered kinds payments := by
      unfold tendered
      cases h : kinds payment.kind <;> simp [h]
    rw [hcons]
    unfold storedTenders
    by_cases hkind : payment.kind = .cash
    · rw [hkind, hcash, if_neg Bool.false_ne_true, zero_add]
      split
      · split
        · exact ih 0
        · rw [List.filter_cons_of_neg (by simp [hkind, hcash])]
          exact ih 0
      · rw [List.filter_cons_of_neg (by simp [hkind, hcash])]
        exact ih change
    · rw [if_neg (by simp [hkind])]
      cases hk : kinds payment.kind with
      | false =>
        rw [List.filter_cons_of_neg (by simp [hk]), ih]
        simp
      | true =>
        rw [List.filter_cons_of_pos (by simp [hk]), List.map_cons, List.sum_cons, ih]
        simp

/-- Every stored amount is positive, and of one of the tenders. -/
lemma storedTenders_pos {change : ℤ} {payments : List CleanPayment} {e : CleanPayment × ℤ}
    (h : e ∈ storedTenders change payments) : 0 < e.2 ∧ e.1 ∈ payments := by
  induction payments generalizing change with
  | nil => exact absurd h List.not_mem_nil
  | cons payment payments ih =>
    unfold storedTenders at h
    split at h
    · split at h
      · obtain ⟨hpos, hmem⟩ := ih h
        exact ⟨hpos, List.mem_cons_of_mem _ hmem⟩
      · rcases List.mem_cons.mp h with rfl | h
        · exact ⟨by omega, List.mem_cons_self⟩
        · obtain ⟨hpos, hmem⟩ := ih h
          exact ⟨hpos, List.mem_cons_of_mem _ hmem⟩
    · rcases List.mem_cons.mp h with rfl | h
      · exact ⟨payment.amount_pos, List.mem_cons_self⟩
      · obtain ⟨hpos, hmem⟩ := ih h
        exact ⟨hpos, List.mem_cons_of_mem _ hmem⟩

/-! ## The tenders of a request -/

/-- The payment is made with a cash method. -/
def isCash (s : State) (payment : PaymentInput) : Bool :=
  (s.sales.paymentMethods[payment.method]?).any fun x => x.kind = .cash

/-- The first cash amount of a request, zero when there is none. -/
def firstCash (s : State) (payments : List PaymentInput) : ℤ :=
  ((payments.find? (isCash s)).map fun x => money x.amount).getD 0

/-- What was handed over. -/
def tenderTotal (payments : List PaymentInput) : ℤ := (payments.map fun x => money x.amount).sum

/-- A tender of the request as it was locked and rounded. -/
structure TenderFor (s : State) (input : PaymentInput) (payment : CleanPayment) : Prop where
  methodId : payment.methodId = input.method
  kind : (s.sales.paymentMethods[input.method]?).map PaymentMethod.kind = some payment.kind
  amount : payment.amount = money input.amount

lemma tendersFor {s : State} {inputs : List PaymentInput} {tenders : List Tender}
    {payments : List CleanPayment} (hlocked : lockedPaymentMethods s inputs = .ok tenders)
    (hclean : tenders.mapM cleanPayment = .ok payments) :
    List.Forall₂ (TenderFor s) inputs payments := by
  unfold lockedPaymentMethods at hlocked
  rw [mapM_eq_ok] at hlocked hclean
  induction hlocked generalizing payments with
  | nil =>
    obtain rfl := List.forall₂_nil_left_iff.mp hclean
    exact .nil
  | cons htender _ ih =>
    obtain ⟨payment, rest, hpayment, hrest, rfl⟩ := List.forall₂_cons_left_iff.mp hclean
    refine .cons ?_ (ih hrest)
    simp only [except_bind_eq_ok, found_eq_ok, pure, Except.pure, Except.ok.injEq] at htender
    obtain ⟨method, hmethod, -, -, rfl⟩ := htender
    unfold cleanPayment at hpayment
    simp only [except_bind_eq_ok, pure, Except.pure, Except.ok.injEq] at hpayment
    obtain ⟨⟨hpos⟩, -, rfl⟩ := hpayment
    exact ⟨rfl, by simp [hmethod], rfl⟩

lemma tenderTotal_eq {s : State} {inputs : List PaymentInput} {payments : List CleanPayment}
    (h : List.Forall₂ (TenderFor s) inputs payments) :
    tenderTotal inputs = tendered (fun _ => true) payments := by
  induction h with
  | nil => rfl
  | cons htender _ ih =>
    unfold tenderTotal tendered at ih ⊢
    rw [List.map_cons, List.sum_cons, ih, List.filter_cons_of_pos rfl, List.map_cons,
      List.sum_cons, htender.amount]

lemma firstCash_eq {s : State} {inputs : List PaymentInput} {payments : List CleanPayment}
    (h : List.Forall₂ (TenderFor s) inputs payments) :
    firstCash s inputs = firstCashAmount payments := by
  induction h with
  | nil => rfl
  | @cons input payment _ _ htender _ ih =>
    have hcash : isCash s input = decide (payment.kind = .cash) := by
      obtain ⟨method, hmethod, hkind⟩ := Option.map_eq_some_iff.mp htender.kind
      simp [isCash, hmethod, hkind]
    unfold firstCash firstCashAmount at ih ⊢
    by_cases hkind : payment.kind = .cash
    · simp [hcash, hkind, htender.amount]
    · simpa [hcash, hkind] using ih

/-! ## Reconciliation -/

/-- The payment rows written between two states. -/
def paymentsSince (s t : State) : List SalePayment :=
  t.sales.payments.drop s.sales.payments.length

/-- The new payment rows are positive and add up to what the sale says was paid and what it
comes to. -/
structure PaymentsReconcile (s t : State) (sale : Sale) : Prop where
  positive : ∀ x ∈ paymentsSince s t, 0 < x.amount
  paid : (((paymentsSince s t).filter fun x =>
    paymentKind t x ≠ some .customerCredit).map SalePayment.amount).sum = sale.amountPaid
  total : ((paymentsSince s t).map SalePayment.amount).sum = sale.total

/-- What the cart of a request comes to. -/
def cartTotal (c : Call) (r : CheckoutRequest) (s : State) : Option ℤ := do
  let customer ← s.parties.customers[r.customer]?
  let lines ← (normalizeItems c r customer s).toOption
  let totals ← (calculateSaleTotals s.tenant.settings lines (money r.invoiceDiscount)).toOption
  return totals.total

/-- The first cash tender covers what was handed over beyond the total of the cart. -/
def FirstCashCoversChange (c : Call) (r : CheckoutRequest) (s : State) : Prop :=
  ∀ total ∈ cartTotal c r s, tenderTotal r.payments - total ≤ firstCash s r.payments

/-- The sale row a call stores. -/
lemma SaleMade.sale_eq {c : Call} {r : CheckoutRequest} {s t : State} {id : ℕ}
    {p : PreparedSale} {number : Text} {items : List SaleItem} {sale : Sale}
    (h : SaleMade c r s t id p number items) (hsale : t.sales.sales[id]? = some sale) :
    ∃ totalCost, sale = settledSale r p totalCost (saleRow c r p number) := by
  obtain ⟨totalCost, sequences, hsales⟩ := h.sales
  obtain rfl := h.id_eq
  rw [hsales] at hsale
  refine ⟨totalCost, ?_⟩
  simpa using hsale.symm

/-- The change of an accepted sale is the excess of the tenders. -/
lemma changeDue_ok {totals : SaleTotals} {p : PaymentTotals} {change : ℤ}
    (h : changeDue totals p = .ok change) : change = p.payTotal - totals.total ∧ 0 ≤ change := by
  unfold changeDue at h
  split at h
  · split at h
    · cases h
      omega
    · exact nomatch h
  · split at h
    · exact nomatch h
    · cases h
      omega

/-- The customer row of an accepted call. -/
lemma checkoutContext_customer {c : Call} {r : CheckoutRequest} {s : State} {customer : Customer}
    (h : checkoutContext c r s = .ok customer) :
    s.parties.customers[r.customer]? = some customer := by
  unfold checkoutContext at h
  simp only [except_bind_eq_ok, found_eq_ok, pure, Except.pure, Except.ok.injEq] at h
  obtain ⟨-, -, branch, -, -, -, warehouse, -, customer', hcustomer, -, -, -, -, -, -, -, -, rfl⟩
    := h
  exact hcustomer

/-- Account tenders and the others add up to all of them. -/
lemma tendered_add_credit (payments : List CleanPayment) :
    tendered (· != .customerCredit) payments + tendered (· == .customerCredit) payments =
      tendered (fun _ => true) payments := by
  induction payments with
  | nil => rfl
  | cons payment payments ih =>
    unfold tendered at ih ⊢
    cases h : payment.kind == .customerCredit <;> simp [bne, h] at ih ⊢ <;> omega

section Made

variable {c : Call} {r : CheckoutRequest} {s t : State} {id : ℕ} {p : PreparedSale}
  {number : Text} {items : List SaleItem} (h : SaleMade c r s t id p number items)

include h

lemma SaleMade.paymentsSince_eq :
    paymentsSince s t = (storedTenders p.change p.payments).map (paymentRow c r id) := by
  obtain ⟨_, sequences, hsales⟩ := h.sales
  unfold paymentsSince
  rw [hsales, List.drop_left]

/-- A stored row has the kind of the tender it came from. -/
lemma SaleMade.paymentKind_eq {e : CleanPayment × ℤ} (he : e ∈ storedTenders p.change p.payments) :
    paymentKind t (paymentRow c r id e) = some e.1.kind := by
  obtain ⟨customer, -, hprepared⟩ := h.prepared
  obtain ⟨lines, tenders, -, -, hlocked, hpayments, -, -⟩ := prepareSale_ok hprepared
  obtain ⟨hclean, -⟩ := calculatePaymentTotals_ok hpayments
  obtain ⟨input, -, htender⟩ :=
    exists_of_forall₂_mem (tendersFor hlocked hclean) (storedTenders_pos he).2
  obtain ⟨_, sequences, hsales⟩ := h.sales
  unfold paymentKind
  rw [hsales]
  change (s.sales.paymentMethods[e.1.methodId]?).map PaymentMethod.kind = _
  rw [htender.methodId]
  exact htender.kind

/-- The sums of a sale's tenders. -/
lemma SaleMade.paymentTotals_eq :
    p.paymentTotals = {
        payTotal := tendered (fun _ => true) p.payments
        creditAmount := tendered (· == .customerCredit) p.payments
        storeCreditAmount := tendered (· == .storeCredit) p.payments
        cashTendered := tendered (· == .cash) p.payments } ∧
      p.change = p.paymentTotals.payTotal - p.totals.total ∧ 0 ≤ p.change := by
  obtain ⟨customer, -, hprepared⟩ := h.prepared
  obtain ⟨lines, tenders, -, -, -, hpayments, hchange, -⟩ := prepareSale_ok hprepared
  obtain ⟨-, hsums⟩ := calculatePaymentTotals_ok hpayments
  exact ⟨hsums, changeDue_ok hchange⟩

/-- The stored rows of some kinds. -/
lemma SaleMade.sum_paymentsSince (kinds : PaymentKind → Bool) :
    (((paymentsSince s t).filter fun x => (paymentKind t x).any kinds).map
        SalePayment.amount).sum =
      (((storedTenders p.change p.payments).filter fun e => kinds e.1.kind).map Prod.snd).sum := by
  rw [h.paymentsSince_eq, List.filter_map, List.map_map]
  refine congrArg List.sum (congrArg (List.map Prod.snd) ?_)
  refine List.filter_congr fun e he => ?_
  have hkind := h.paymentKind_eq he
  simp [hkind]

end Made

/-- The recorded payments of a completed sale reconcile if its first cash tender covers the
change. -/
lemma SaleMade.reconcile_iff {c : Call} {r : CheckoutRequest} {s t : State} {id : ℕ}
    {p : PreparedSale} {number : Text} {items : List SaleItem} {sale : Sale}
    (h : SaleMade c r s t id p number items) (hsale : t.sales.sales[id]? = some sale) :
    PaymentsReconcile s t sale ↔ p.change ≤ firstCashAmount p.payments := by
  obtain ⟨totalCost, rfl⟩ := h.sale_eq hsale
  obtain ⟨hsums, hexcess, hnonneg⟩ := h.paymentTotals_eq
  have hrows := h.paymentsSince_eq
  have hall := sum_storedTenders (fun _ => true) rfl hnonneg p.payments
  have hpaid := sum_storedTenders (· != .customerCredit) rfl hnonneg p.payments
  have hsplit := tendered_add_credit p.payments
  have hfirst := firstCashAmount_nonneg p.payments
  have hnoncredit : ((paymentsSince s t).filter fun x =>
      paymentKind t x ≠ some .customerCredit) =
      (paymentsSince s t).filter fun x => (paymentKind t x).any (· != .customerCredit) := by
    rw [hrows]
    refine List.filter_congr fun x hx => ?_
    obtain ⟨e, he, rfl⟩ := List.mem_map.mp hx
    simp [h.paymentKind_eq he, bne, beq_eq_decide]
  have hamounts : (paymentsSince s t).map SalePayment.amount =
      (storedTenders p.change p.payments).map Prod.snd := by
    rw [hrows, List.map_map]
    rfl
  rw [List.filter_true] at hall
  have htotal : (settledSale r p totalCost (saleRow c r p number)).total = p.totals.total := rfl
  have hamountPaid : (settledSale r p totalCost (saleRow c r p number)).amountPaid =
      p.paymentTotals.payTotal - p.change - p.paymentTotals.creditAmount := rfl
  rw [hsums] at hexcess hamountPaid
  dsimp only at hexcess hamountPaid
  constructor
  · intro hreconcile
    have := hreconcile.total
    rw [hamounts, hall, htotal] at this
    omega
  · intro hcovers
    refine ⟨fun x hx => ?_, ?_, ?_⟩
    · rw [hrows] at hx
      obtain ⟨e, he, rfl⟩ := List.mem_map.mp hx
      exact (storedTenders_pos he).1
    · rw [hnoncredit, h.sum_paymentsSince, hpaid, hamountPaid]
      omega
    · rw [hamounts, hall, htotal]
      omega

/-- **Payment rows.**  For a call that completes a sale, the new payment rows reconcile with it
if and only if the first cash tender covers the change. -/
theorem payments_reconcile_iff {c : Call} {r : CheckoutRequest} {s : State} {sale : Sale}
    (hsale : (step s (.completeSale c r)).sales.sales[s.sales.sales.length]? = some sale) :
    PaymentsReconcile s (step s (.completeSale c r)) sale ↔ FirstCashCoversChange c r s := by
  obtain ⟨p, number, items, hmade⟩ := saleMade_of_new hsale
  obtain ⟨customer, hcontext, hprepared⟩ := hmade.prepared
  obtain ⟨lines, tenders, hlines, htotals, hlocked, hpayments, hchange, -⟩ :=
    prepareSale_ok hprepared
  obtain ⟨hclean, hsums⟩ := calculatePaymentTotals_ok hpayments
  obtain ⟨hexcess, -⟩ := changeDue_ok hchange
  have htender := tendersFor hlocked hclean
  have hcart : cartTotal c r s = some p.totals.total := by
    unfold cartTotal
    rw [checkoutContext_customer hcontext]
    simp [hlines, htotals, Except.toOption]
  rw [hmade.reconcile_iff hsale]
  unfold FirstCashCoversChange
  rw [hcart, tenderTotal_eq htender, firstCash_eq htender]
  rw [hsums] at hexcess
  dsimp only at hexcess
  simp only [Option.mem_def, Option.some.injEq, forall_eq']
  rw [hexcess]

/-- A shop where one piece costs 90. -/
def ninetyShop : State := history (Shop.stocked 90000)

theorem payments_reconcile_run :
    ∃ sale, PaymentsReconcile ninetyShop (step ninetyShop (Shop.sell 1 [⟨0, 100⟩, ⟨0, 5⟩])) sale := by
  have hsome : ((step ninetyShop (Shop.sell 1 [⟨0, 100⟩, ⟨0, 5⟩])).sales.sales[
      ninetyShop.sales.sales.length]?).isSome = true := by decide +kernel
  refine ⟨_, (payments_reconcile_iff (Option.some_get hsome).symm).mpr ?_⟩
  unfold FirstCashCoversChange
  decide +kernel

/-- Five in cash and then a hundred for a sale of 90: the change of 15 is more than the first
tender, and the one row that is stored says 100. -/
theorem payments_not_reconciled :
    ∃ sale, (step ninetyShop (Shop.sell 1 [⟨0, 5⟩, ⟨0, 100⟩])).sales.sales[
        ninetyShop.sales.sales.length]? = some sale ∧
      ¬ PaymentsReconcile ninetyShop (step ninetyShop (Shop.sell 1 [⟨0, 5⟩, ⟨0, 100⟩])) sale := by
  have hsome : ((step ninetyShop (Shop.sell 1 [⟨0, 5⟩, ⟨0, 100⟩])).sales.sales[
      ninetyShop.sales.sales.length]?).isSome = true := by decide +kernel
  have hrows : ∀ sale ∈ (step ninetyShop (Shop.sell 1 [⟨0, 5⟩, ⟨0, 100⟩])).sales.sales,
      ((paymentsSince ninetyShop (step ninetyShop (Shop.sell 1 [⟨0, 5⟩, ⟨0, 100⟩]))).map
        SalePayment.amount).sum ≠ sale.total := by
    decide +kernel
  obtain ⟨sale, hsale⟩ := Option.isSome_iff_exists.mp hsome
  exact ⟨sale, hsale, fun h => hrows sale (List.mem_of_getElem? hsale) h.total⟩

end NexaPos
