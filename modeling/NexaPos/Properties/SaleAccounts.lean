import NexaPos.Properties.Payments
import NexaPos.Properties.SaleRecords

/-!
# What a sale still has on account

From its completion on, the unpaid part of a sale is what was put on account less the later
payments on the sale (`AccountKept.unpaid_eq`), and the store credit that its rows paid with is
what the checkout took from the customer (`AccountKept.storeCredit`).  As long as nothing was
returned, the unpaid part is not negative: a later payment is accepted only up to it.

Most requests leave the account of a sale alone (`SameAccount`); the one that does not is a
payment on that sale.
-/

namespace NexaPos

open Tx

/-- What is still unpaid of a sale. -/
def unpaid (s : State) (id : ℕ) : ℤ :=
  (s.sales.sales[id]?.map fun x => x.total - x.amountPaid).getD 0

/-- What some payment rows pay on a sale. -/
def paidOn (rows : List SalePayment) (id : ℕ) : ℤ :=
  ((rows.filter fun x => x.sale = id).map SalePayment.amount).sum

/-- Rewriting a sale outside its amounts leaves every unpaid part. -/
lemma unpaid_of_modify {s t : State} {pk : ℕ} {f : Sale → Sale}
    (hf : ∀ x, (f x).total - (f x).amountPaid = x.total - x.amountPaid)
    (h : t.sales.sales = s.sales.sales.modify pk f) (id : ℕ) : unpaid t id = unpaid s id := by
  have hmap := map_modify_of_eq (g := fun x => x.total - x.amountPaid) hf s.sales.sales pk
  unfold unpaid
  rw [h, ← List.getElem?_map, hmap, List.getElem?_map]

/-! ## Requests that leave the account alone -/

/-- The account of a sale is as it was. -/
structure SameAccount (id : ℕ) (s t : State) : Prop where
  length : s.sales.sales.length ≤ t.sales.sales.length
  unpaid : unpaid t id = unpaid s id
  payments : ∃ rows, t.sales.payments = s.sales.payments ++ rows ∧ ∀ x ∈ rows, x.sale ≠ id
  methods : s.sales.paymentMethods.length ≤ t.sales.paymentMethods.length
  kinds : ∀ x : SalePayment, x.method < s.sales.paymentMethods.length →
    paymentKind t x = paymentKind s x
  returns : returnsOfSale t id = [] → returnsOfSale s id = []

/-- A request that writes neither payments nor methods. -/
lemma SameAccount.of_sales_eq {id pk : ℕ} {s t : State} {f : Sale → Sale}
    (hf : ∀ x, (f x).total - (f x).amountPaid = x.total - x.amountPaid)
    (hsales : t.sales.sales = s.sales.sales.modify pk f)
    (hpayments : t.sales.payments = s.sales.payments)
    (hmethods : t.sales.paymentMethods = s.sales.paymentMethods)
    (hreturns : s.sales.returns <+: t.sales.returns) : SameAccount id s t where
  length := by rw [hsales, List.length_modify]
  unpaid := unpaid_of_modify hf hsales id
  payments := ⟨[], by rw [hpayments, List.append_nil], by simp⟩
  methods := by rw [hmethods]
  kinds x _ := by rw [paymentKind, paymentKind, hmethods]
  returns h := by
    obtain ⟨new, hnew⟩ := hreturns
    unfold returnsOfSale at h ⊢
    rw [← hnew, List.filter_append, List.append_eq_nil_iff] at h
    exact h.1

lemma SameAccount.refl_of_sales {id : ℕ} {s t : State} (h : t.sales = s.sales) :
    SameAccount id s t := by
  have hsame : t.sales.sales = s.sales.sales.modify id fun x => x := by
    rw [h]
    exact (List.modify_id id s.sales.sales).symm
  refine SameAccount.of_sales_eq (fun _ => rfl) hsame ?_ ?_ ?_
  · rw [h]
  · rw [h]
  · rw [h]

/-- The method form keeps the kind of every method. -/
lemma sameAccount_method (id : ℕ) (pk : Option ℕ) (row : PaymentMethod) (s : State) :
    SameAccount id s ((MasterData.paymentMethod pk row).save s) where
  length := Nat.le_refl _
  unpaid := rfl
  payments := ⟨[], (List.append_nil _).symm, by simp⟩
  methods := by
    cases pk with
    | none =>
      change s.sales.paymentMethods.length ≤ (s.sales.paymentMethods ++ [row]).length
      rw [List.length_append]
      exact Nat.le_add_right _ _
    | some i =>
      change s.sales.paymentMethods.length ≤ (s.sales.paymentMethods.modify i _).length
      rw [List.length_modify]
  kinds x hx := by
    unfold paymentKind
    cases pk with
    | none =>
      change ((s.sales.paymentMethods ++ [row])[x.method]?).map PaymentMethod.kind = _
      rw [List.getElem?_append_left hx]
    | some i =>
      have hkept : (s.sales.paymentMethods.modify i fun old =>
          { old with isActive := row.isActive }).map PaymentMethod.kind =
            s.sales.paymentMethods.map PaymentMethod.kind := by
        refine map_modify_of_eq ?_ _ _
        intro old
        rfl
      rw [← List.getElem?_map, ← List.getElem?_map]
      exact congrArg (fun l : List PaymentKind => l[x.method]?) hkept
  returns h := h

/-- Another sale leaves it alone. -/
lemma SaleMade.sameAccount {c : Call} {r : CheckoutRequest} {s t : State} {sid : ℕ}
    {p : PreparedSale} {number : Text} {items : List SaleItem}
    (h : SaleMade c r s t sid p number items) {id : ℕ} (hid : id < s.sales.sales.length) :
    SameAccount id s t := by
  obtain ⟨totalCost, sequences, hsales⟩ := h.sales
  have hne : sid ≠ id := by
    rw [h.id_eq]
    omega
  refine {
    length := ?_
    unpaid := ?_
    payments := ?_
    methods := ?_
    kinds := ?_
    returns := ?_ }
  · rw [hsales, List.length_append]
    exact Nat.le_add_right _ _
  · unfold NexaPos.unpaid
    rw [hsales]
    dsimp only
    rw [List.getElem?_append_left hid]
  · refine ⟨_, by rw [hsales], fun x hx => ?_⟩
    obtain ⟨e, -, rfl⟩ := List.mem_map.mp hx
    exact hne
  · rw [hsales]
  · intro x _
    rw [paymentKind, paymentKind, hsales]
  · intro hreturns
    rw [returnsOfSale, hsales] at hreturns
    exact hreturns

/-! ## Payments on the sale -/

lemma total_paidSale (s : State) (id : ℕ) (amount : ℤ) (x : Sale) :
    (paidSale s id amount x).total = x.total ∧
      (paidSale s id amount x).amountPaid = x.amountPaid + amount := by
  unfold paidSale
  dsimp only
  split <;> exact ⟨rfl, rfl⟩

/-- The payment row of an accepted payment, and the sale it is on. -/
lemma addSalePayment_sales {c : Call} {r : SalePaymentRequest} {s t : State} {x : Unit}
    (h : Runs (addSalePayment c r) s x t) :
    ∃ sale payment, s.sales.sales[r.sale]? = some sale ∧ payment.sale = r.sale ∧
      payment.amount = money r.amount ∧ 0 < payment.amount ∧
      payment.amount ≤ saleBalance s r.sale sale ∧
      (∃ method, s.sales.paymentMethods[payment.method]? = some method ∧
        method.kind.isAccount = false) ∧
      ∃ u, t.sales = { s.sales with
        payments := s.sales.payments ++ [payment]
        sales := s.sales.sales.modify r.sale (paidSale u r.sale payment.amount) } := by
  obtain ⟨sale, amount, hcheck, rfl⟩ := runs_addSalePayment h
  obtain ⟨hsale, rfl, hpos, -, hle, hmethod⟩ := checkSalePayment_ok hcheck
  let payment : SalePayment := {
    sale := r.sale
    method := r.method
    amount := money r.amount
    paymentDate := r.paymentDate.getD c.today
    receivedBy := c.actor.user
    shift := r.shift }
  exact ⟨sale, payment, hsale, rfl, rfl, hpos, hle, hmethod,
    { s with sales.payments := s.sales.payments ++ [payment] }, rfl⟩

/-! ## Along a run -/

/-- The account of a sale since the state `s₁` in which it was complete. -/
structure AccountKept (s₁ : State) (id : ℕ) (s : State) : Prop where
  exists_sale : id < s.sales.sales.length
  payments : s₁.sales.payments <+: s.sales.payments
  methods : ∀ x ∈ paymentsOfSale s id, x.method < s.sales.paymentMethods.length
  unpaid_eq : unpaid s id = unpaid s₁ id - paidOn (paymentsSince s₁ s) id
  unpaid_nonneg : returnsOfSale s id = [] → 0 ≤ unpaid s id
  storeCredit : storeCreditUsed s id = storeCreditUsed s₁ id

/-- Appending payment rows. -/
lemma paymentsSince_append {s₁ s t : State} {rows : List SalePayment}
    (hkept : s₁.sales.payments <+: s.sales.payments)
    (h : t.sales.payments = s.sales.payments ++ rows) :
    paymentsSince s₁ t = paymentsSince s₁ s ++ rows := by
  unfold paymentsSince
  rw [h, List.drop_append_of_le_length hkept.length_le]

lemma paidOn_append (rows rows' : List SalePayment) (id : ℕ) :
    paidOn (rows ++ rows') id = paidOn rows id + paidOn rows' id := by
  unfold paidOn
  rw [List.filter_append, List.map_append, List.sum_append]

lemma AccountKept.of_same {s₁ s t : State} {id : ℕ} (hs : AccountKept s₁ id s)
    (h : SameAccount id s t) : AccountKept s₁ id t := by
  obtain ⟨rows, hrows, hother⟩ := h.payments
  have hnone : rows.filter (fun x => x.sale = id) = [] := by
    refine List.filter_eq_nil_iff.mpr fun x hx => ?_
    rw [decide_eq_true_eq]
    exact hother x hx
  have hof : paymentsOfSale t id = paymentsOfSale s id := by
    unfold paymentsOfSale
    rw [hrows, List.filter_append, hnone, List.append_nil]
  refine {
    exists_sale := Nat.lt_of_lt_of_le hs.exists_sale h.length
    payments := hs.payments.trans (by rw [hrows]; exact List.prefix_append _ _)
    methods := ?_
    unpaid_eq := ?_
    unpaid_nonneg := fun hreturns => ?_
    storeCredit := ?_ }
  · intro x hx
    rw [hof] at hx
    exact Nat.lt_of_lt_of_le (hs.methods x hx) h.methods
  · have hzero : paidOn rows id = 0 := by
      unfold paidOn
      rw [hnone]
      rfl
    rw [h.unpaid, hs.unpaid_eq, paymentsSince_append hs.payments hrows, paidOn_append, hzero,
      add_zero]
  · rw [h.unpaid]
    exact hs.unpaid_nonneg (h.returns hreturns)
  · rw [← hs.storeCredit]
    unfold storeCreditUsed
    rw [hof]
    congr 2
    refine List.filter_congr fun x hx => ?_
    rw [h.kinds x (hs.methods x hx)]

/-- A payment on the sale itself: it settles some of the unpaid part, with real money. -/
lemma AccountKept.paid {s₁ s t : State} {c : Call} {r : SalePaymentRequest} {x : Unit}
    (hs : AccountKept s₁ r.sale s) (h : Runs (addSalePayment c r) s x t) :
    AccountKept s₁ r.sale t := by
  obtain ⟨sale, payment, hsale, hpayment, -, -, hle, ⟨method, hmethod, hkind⟩, u, hsales⟩ :=
    addSalePayment_sales h
  have hunpaid : NexaPos.unpaid s r.sale = sale.total - sale.amountPaid := by
    rw [NexaPos.unpaid, hsale]
    rfl
  have hunpaid' : NexaPos.unpaid t r.sale = NexaPos.unpaid s r.sale - payment.amount := by
    obtain ⟨htotal, hpaid⟩ := total_paidSale u r.sale payment.amount sale
    rw [hunpaid, NexaPos.unpaid, hsales]
    dsimp only
    rw [List.getElem?_modify, hsale]
    simp only [if_true, Option.map_eq_map, Option.map_some, Option.getD_some, htotal, hpaid]
    omega
  have hof : paymentsOfSale t r.sale = paymentsOfSale s r.sale ++ [payment] := by
    unfold paymentsOfSale
    rw [hsales]
    dsimp only
    rw [List.filter_append, List.filter_cons_of_pos (by simpa using hpayment), List.filter_nil]
  have hmethods : t.sales.paymentMethods = s.sales.paymentMethods := by rw [hsales]
  have hreturns : returnsOfSale t r.sale = returnsOfSale s r.sale := by
    rw [returnsOfSale, returnsOfSale, hsales]
  have hrows : t.sales.payments = s.sales.payments ++ [payment] := by rw [hsales]
  refine {
    exists_sale := ?_
    payments := hs.payments.trans (by rw [hrows]; exact List.prefix_append _ _)
    methods := ?_
    unpaid_eq := ?_
    unpaid_nonneg := fun hnone => ?_
    storeCredit := ?_ }
  · rw [hsales]
    dsimp only
    rw [List.length_modify]
    exact hs.exists_sale
  · intro y hy
    rw [hof] at hy
    rw [hmethods]
    rcases List.mem_append.mp hy with hy | hy
    · exact hs.methods y hy
    · rw [List.mem_singleton.mp hy]
      exact (List.getElem?_eq_some_iff.mp hmethod).1
  · have hone : paidOn [payment] r.sale = payment.amount := by
      unfold paidOn
      rw [List.filter_cons_of_pos (by simpa using hpayment)]
      simp
    rw [hunpaid', hs.unpaid_eq, paymentsSince_append hs.payments hrows, paidOn_append, hone]
    omega
  · -- with no returns, the balance of the sale is its unpaid part
    rw [hreturns] at hnone
    have hbalance : saleBalance s r.sale sale = sale.total - sale.amountPaid := by
      unfold saleBalance returnedAmount refundedAmount
      rw [hnone]
      simp
    omega
  · have hnot : paymentKind t payment ≠ some .storeCredit := by
      rw [paymentKind, hmethods, hmethod, Option.map_some]
      intro hstore
      rw [Option.some.inj hstore] at hkind
      exact nomatch hkind
    rw [← hs.storeCredit]
    unfold storeCreditUsed
    rw [hof, List.filter_append, List.filter_cons_of_neg (by simpa using hnot), List.filter_nil,
      List.append_nil]
    congr 2
    refine List.filter_congr fun y _ => ?_
    rw [paymentKind, paymentKind, hmethods]

lemma accountKept_step (s₁ : State) (id : ℕ) (s : State) (op : Op) (hs : AccountKept s₁ id s) :
    AccountKept s₁ id (step s op) := by
  cases salesStep s op with
  | same h => exact hs.of_same (.refl_of_sales h)
  | @method pk row h =>
    refine hs.of_same ?_
    rw [h]
    exact sameAccount_method id pk row s
  | made h => exact hs.of_same (h.sameAccount hs.exists_sale)
  | @paid c r h =>
    by_cases hid : r.sale = id
    · subst hid
      exact hs.paid h
    · obtain ⟨sale, payment, -, hpayment, -, -, -, -, u, hsales⟩ := addSalePayment_sales h
      refine hs.of_same ?_
      refine {
        length := ?_
        unpaid := ?_
        payments := ?_
        methods := ?_
        kinds := ?_
        returns := ?_ }
      · rw [hsales]
        dsimp only
        rw [List.length_modify]
      · unfold unpaid
        rw [hsales]
        dsimp only
        rw [List.getElem?_modify_ne _ _ hid]
      · refine ⟨[payment], by rw [hsales], fun x hx => ?_⟩
        rw [List.mem_singleton.mp hx, hpayment]
        exact hid
      · rw [hsales]
      · intro x _
        rw [paymentKind, paymentKind, hsales]
      · intro hreturns
        rw [returnsOfSale, hsales] at hreturns
        exact hreturns
  | @voided c pk h =>
    obtain ⟨sale, amounts, rows, u, -, -, hmoved, ht⟩ := runs_voidSale h
    have hsales := sales_applyVoid c pk sale amounts u
    rw [sales_of_rest hmoved.rest, ← ht] at hsales
    refine hs.of_same (SameAccount.of_sales_eq ?_ (congrArg SalesTables.sales hsales) ?_ ?_ ?_)
    · intro x
      rfl
    · rw [hsales]
    · rw [hsales]
    · rw [hsales]
  | returned h =>
    obtain ⟨sale, p, u, -, -, -, hsales⟩ := processReturn_sales h
    refine hs.of_same (SameAccount.of_sales_eq ?_ (congrArg SalesTables.sales hsales) ?_ ?_ ?_)
    · intro x
      rfl
    · rw [hsales]
    · rw [hsales]
    · rw [hsales]
      exact List.prefix_append _ _

lemma accountKept_run {s₁ : State} {id : ℕ} (h : AccountKept s₁ id s₁) (ops : List Op) :
    AccountKept s₁ id (run s₁ ops) :=
  Trace.invariant (accountKept_step s₁ id) h ops

/-! ## The account of a new sale -/

section Made

variable {c : Call} {r : CheckoutRequest} {s t : State} {id : ℕ} {p : PreparedSale}
  {number : Text} {items : List SaleItem} (h : SaleMade c r s t id p number items)

include h

/-- What is unpaid of a new sale is what was put on account. -/
lemma SaleMade.unpaid_eq : unpaid t id = p.paymentTotals.creditAmount := by
  obtain ⟨totalCost, sequences, hsales⟩ := h.sales
  obtain ⟨-, hchange, -⟩ := h.paymentTotals_eq
  have hrow : t.sales.sales[id]? = some (settledSale r p totalCost (saleRow c r p number)) := by
    rw [hsales, h.id_eq]
    exact List.getElem?_concat_length
  have htotal : (settledSale r p totalCost (saleRow c r p number)).total = p.totals.total := rfl
  have hpaid : (settledSale r p totalCost (saleRow c r p number)).amountPaid =
      p.paymentTotals.payTotal - p.change - p.paymentTotals.creditAmount := rfl
  rw [unpaid, hrow, Option.map_some, Option.getD_some, htotal, hpaid]
  omega

/-- The payment rows of a new sale are those it wrote. -/
lemma SaleMade.paymentsOfSale_eq (hs : Linked s) : paymentsOfSale t id = paymentsSince s t := by
  obtain ⟨totalCost, sequences, hsales⟩ := h.sales
  have hold : s.sales.payments.filter (fun x => x.sale = id) = [] := by
    refine List.filter_eq_nil_iff.mpr fun x hx => ?_
    have hlt := hs.payment x hx
    rw [h.id_eq, decide_eq_true_eq]
    exact hlt.ne
  have hnew : ((storedTenders p.change p.payments).map (paymentRow c r id)).filter
      (fun x => x.sale = id) = (storedTenders p.change p.payments).map (paymentRow c r id) := by
    refine List.filter_eq_self.mpr fun x hx => ?_
    obtain ⟨e, -, rfl⟩ := List.mem_map.mp hx
    exact decide_eq_true rfl
  rw [h.paymentsSince_eq, paymentsOfSale, hsales]
  dsimp only
  rw [List.filter_append, hold, hnew, List.nil_append]

lemma SaleMade.storeCreditUsed_eq (hs : Linked s) :
    storeCreditUsed t id = p.paymentTotals.storeCreditAmount := by
  obtain ⟨htotals, -⟩ := h.paymentTotals_eq
  have hkind : (paymentsOfSale t id).filter (fun x => paymentKind t x = some .storeCredit) =
      (paymentsSince s t).filter fun x => (paymentKind t x).any (· == .storeCredit) := by
    rw [h.paymentsOfSale_eq hs]
    refine List.filter_congr fun x _ => ?_
    cases paymentKind t x with
    | none => rfl
    | some kind => simp [beq_eq_decide]
  unfold storeCreditUsed
  rw [hkind, h.sum_paymentsSince, sum_storedTenders_of_ne_cash (· == .storeCredit) rfl, htotals]

lemma SaleMade.accountKept (hs : Linked s) : AccountKept t id t where
  exists_sale := by
    obtain ⟨totalCost, sequences, hsales⟩ := h.sales
    rw [hsales, h.id_eq, List.length_append, List.length_singleton]
    exact Nat.lt_succ_self _
  payments := List.prefix_rfl
  methods := by
    intro x hx
    rw [h.paymentsOfSale_eq hs, h.paymentsSince_eq] at hx
    obtain ⟨e, he, rfl⟩ := List.mem_map.mp hx
    obtain ⟨method, hmethod, -⟩ := Option.map_eq_some_iff.mp (h.paymentKind_eq he)
    exact (List.getElem?_eq_some_iff.mp hmethod).1
  unpaid_eq := by
    have hnone : paymentsSince t t = [] := List.drop_length
    rw [hnone]
    exact (sub_zero _).symm
  unpaid_nonneg _ := by
    obtain ⟨customer, -, hprepared⟩ := h.prepared
    rw [h.unpaid_eq]
    exact (accountTenders_nonneg hprepared).1
  storeCredit := rfl

/-- The customer of a sale. -/
lemma SaleMade.customer_lt : r.customer < s.parties.customers.length := by
  obtain ⟨customer, hcontext, -⟩ := h.prepared
  exact (List.getElem?_eq_some_iff.mp (checkoutContext_customer hcontext)).1

lemma SaleMade.balanceOf_eq :
    balanceOf t r.customer = balanceOf s r.customer + p.paymentTotals.creditAmount := by
  have hsame : balanceOf t r.customer =
      balanceOf (updateCustomer r.customer (chargedCustomer p) s) r.customer := by
    unfold balanceOf
    rw [h.parties]
    rfl
  rw [hsame, balanceOf_updateCustomer h.customer_lt _ fun _ => rfl, if_pos rfl]

lemma SaleMade.storeCreditOf_eq :
    storeCreditOf t r.customer =
      storeCreditOf s r.customer - p.paymentTotals.storeCreditAmount := by
  obtain ⟨customer, hcontext, -⟩ := h.prepared
  have hcustomer := checkoutContext_customer hcontext
  unfold storeCreditOf
  rw [h.parties]
  dsimp only
  rw [List.getElem?_modify, hcustomer]
  simp [chargedCustomer]

end Made

end NexaPos
