import NexaPos.Properties.Receivables
import NexaPos.Properties.SaleAccounts
import NexaPos.Properties.ReturnRecords
import NexaPos.Sales.Financials

/-!
# The receivables report and the customer accounts

The reports add up what is receivable on each invoice of a customer; the account is a running
balance.  A sale, a payment on a sale and a void move the two by the same amount.  The other two
services do not: a collection on the account settles no invoice, and a return refunded to the
account is taken off whatever the customer owes, while the invoice it belongs to only gives up
what is still due on it.  `offset_step` is the exact difference that a request makes, and
`receivables_agree_iff` says which requests keep the two figures equal.
-/

namespace NexaPos

open Tx

/-! ## The two figures -/

/-- The receivable of one invoice, as the reports compute it. -/
def dueOn (s : State) (id : ℕ) : ℤ :=
  (s.sales.sales[id]?.map fun sale => (financialSummaryForSale s id sale).receivable).getD 0

/-- The sales of a customer. -/
def salesOfCustomer (s : State) (customer : ℕ) : List ℕ :=
  (childrenOf Sale.customer s.sales.sales customer).map Prod.fst

/-- What the receivables report shows for a customer. -/
def reportedReceivable (s : State) (customer : ℕ) : ℤ :=
  ((salesOfCustomer s customer).map (dueOn s)).sum

lemma dueOn_eq {s : State} {id : ℕ} {sale : Sale} (h : s.sales.sales[id]? = some sale) :
    dueOn s id = if sale.status = .voided then 0 else max (saleBalance s id sale) 0 := by
  unfold dueOn
  rw [h, Option.map_some, Option.getD_some]
  split
  · rename_i hvoid
    exact receivable_of_voided hvoid
  · rename_i hvoid
    exact receivable_eq hvoid

lemma dueOn_nonneg (s : State) (id : ℕ) : 0 ≤ dueOn s id := by
  unfold dueOn
  cases s.sales.sales[id]? with
  | none => exact le_rfl
  | some sale => exact receivable_nonneg s id sale

lemma mem_salesOfCustomer {s : State} {customer id : ℕ} :
    id ∈ salesOfCustomer s customer ↔
      ∃ sale, s.sales.sales[id]? = some sale ∧ sale.customer = customer := by
  unfold salesOfCustomer
  rw [List.mem_map]
  constructor
  · rintro ⟨⟨id', sale⟩, hmem, rfl⟩
    exact ⟨sale, mem_childrenOf.mp hmem⟩
  · rintro ⟨sale, h⟩
    exact ⟨(id, sale), mem_childrenOf.mpr h, rfl⟩

lemma nodup_salesOfCustomer (s : State) (customer : ℕ) : (salesOfCustomer s customer).Nodup :=
  nodup_keys_childrenOf _ _ _

/-- One invoice is part of what the report shows. -/
lemma dueOn_le_reported {s : State} {customer id : ℕ} (h : id ∈ salesOfCustomer s customer) :
    dueOn s id ≤ reportedReceivable s customer := by
  refine List.single_le_sum ?_ _ (List.mem_map_of_mem h)
  intro x hx
  obtain ⟨id', -, rfl⟩ := List.mem_map.mp hx
  exact dueOn_nonneg s id'

/-! ## When an invoice is left alone -/

/-- The returns of the sale and what decides its receivable are as they were. -/
lemma dueOn_of_same {s t : State} {id : ℕ} (hreturns : returnsOfSale t id = returnsOfSale s id)
    (hsale : t.sales.sales[id]?.map (fun x => (x.status == .voided, x.total - x.amountPaid)) =
      s.sales.sales[id]?.map fun x => (x.status == .voided, x.total - x.amountPaid)) :
    dueOn t id = dueOn s id := by
  cases ht : t.sales.sales[id]? with
  | none =>
    rw [ht] at hsale
    cases hs : s.sales.sales[id]? with
    | none => rw [dueOn, dueOn, ht, hs]; rfl
    | some sale => rw [hs] at hsale; exact nomatch hsale
  | some sale' =>
    rw [ht] at hsale
    cases hs : s.sales.sales[id]? with
    | none => rw [hs] at hsale; exact nomatch hsale
    | some sale =>
      rw [hs] at hsale
      simp only [Option.map_some, Option.some.injEq, Prod.mk.injEq] at hsale
      obtain ⟨hstatus, hunpaid⟩ := hsale
      have hvoid : sale'.status = .voided ↔ sale.status = .voided := by
        rw [← beq_iff_eq, hstatus, beq_iff_eq]
      have hbalance : saleBalance t id sale' = saleBalance s id sale := by
        unfold saleBalance returnedAmount refundedAmount
        rw [hreturns]
        omega
      rw [dueOn_eq ht, dueOn_eq hs, hbalance]
      simp only [hvoid]

lemma salesOfCustomer_of_core {s t : State}
    (h : t.sales.sales.map Sale.core = s.sales.sales.map Sale.core) (customer : ℕ) :
    salesOfCustomer t customer = salesOfCustomer s customer := by
  have hkeys (v : State) : salesOfCustomer v customer =
      (childrenOf Sale.customer (v.sales.sales.map Sale.core) customer).map Prod.fst :=
    (keys_childrenOf_map Sale.customer Sale.core (fun _ => rfl) v.sales.sales customer).symm
  rw [hkeys t, hkeys s, h]

/-- Sums over distinct keys, when the summand changes at one key. -/
lemma sum_map_of_eq_except {f g : ℕ → ℤ} {key : ℕ} (h : ∀ k, k ≠ key → g k = f k)
    {keys : List ℕ} (hnodup : keys.Nodup) :
    (keys.map g).sum = (keys.map f).sum + if key ∈ keys then g key - f key else 0 := by
  induction keys with
  | nil => simp
  | cons k keys ih =>
    obtain ⟨hk, hnodup⟩ := List.nodup_cons.mp hnodup
    rw [List.map_cons, List.sum_cons, List.map_cons, List.sum_cons, ih hnodup]
    by_cases hkey : k = key
    · subst hkey
      simp only [hk, if_false, List.mem_cons_self, if_true]
      omega
    · have hne : key ≠ k := fun h => hkey h.symm
      simp only [List.mem_cons, hne, false_or, h k hkey]
      omega

/-- A request that rewrites one invoice. -/
lemma reported_of_rewrite {s t : State} {id : ℕ} {sale : Sale} {f : Sale → Sale}
    (hsale : s.sales.sales[id]? = some sale)
    (hsales : t.sales.sales = s.sales.sales.modify id f) (hf : ∀ x, (f x).core = x.core)
    (hreturns : ∀ k, k ≠ id → returnsOfSale t k = returnsOfSale s k) (customer : ℕ) :
    t.sales.sales[id]? = some (f sale) ∧
      reportedReceivable t customer = reportedReceivable s customer +
        if sale.customer = customer then dueOn t id - dueOn s id else 0 := by
  have hcore : t.sales.sales.map Sale.core = s.sales.sales.map Sale.core := by
    rw [hsales]
    exact map_modify_of_eq hf _ _
  have hother (k : ℕ) (hk : k ≠ id) : dueOn t k = dueOn s k := by
    apply dueOn_of_same (hreturns k hk)
    rw [hsales, List.getElem?_modify_ne _ _ (Ne.symm hk)]
  have hmem : id ∈ salesOfCustomer s customer ↔ sale.customer = customer := by
    rw [mem_salesOfCustomer]
    constructor
    · rintro ⟨sale', hsale', hcustomer⟩
      rw [hsale] at hsale'
      exact Option.some.inj hsale' ▸ hcustomer
    · intro hcustomer
      exact ⟨sale, hsale, hcustomer⟩
  constructor
  · rw [hsales, List.getElem?_modify_eq, hsale]
    rfl
  · unfold reportedReceivable
    rw [salesOfCustomer_of_core hcore,
      sum_map_of_eq_except hother (nodup_salesOfCustomer s customer)]
    simp only [hmem]

/-! ## What each service does to the two figures -/

/-- What the entries of a return refund together. -/
def requestedRefund (s : State) (r : ReturnRequest) : ℤ := (r.items.map (entryRefund s)).sum

section Services

variable {s t : State} {x : Unit}

/-- A payment settles the same amount of its invoice. -/
lemma reported_addSalePayment {c : Call} {r : SalePaymentRequest}
    (h : Runs (addSalePayment c r) s x t) (customer : ℕ) :
    reportedReceivable t customer =
      reportedReceivable s customer - creditedBack customer s (.addSalePayment c r) := by
  obtain ⟨sale, amount, hcheck, -⟩ := runs_addSalePayment h
  obtain ⟨hsale, hamount, hpos, hvoid, hle, -⟩ := checkSalePayment_ok hcheck
  obtain ⟨sale', payment, hsale', -, hpayment, -, -, -, u, hsales⟩ := addSalePayment_sales h
  obtain rfl : sale' = sale := Option.some.inj (hsale'.symm.trans hsale)
  have hreturns (k : ℕ) : returnsOfSale t k = returnsOfSale s k := by
    rw [returnsOfSale, returnsOfSale, hsales]
  obtain ⟨hrow, hreported⟩ := reported_of_rewrite hsale (congrArg SalesTables.sales hsales)
    (core_paidSale u r.sale payment.amount) (fun k _ => hreturns k) customer
  have hnotvoid : (paidSale u r.sale payment.amount sale').status ≠ .voided := by
    unfold paidSale
    dsimp only
    split
    · dsimp only
      split <;> decide
    · exact hvoid
  have hbalance : saleBalance t r.sale (paidSale u r.sale payment.amount sale') =
      saleBalance s r.sale sale' - payment.amount := by
    obtain ⟨htotal, hpaid⟩ := total_paidSale u r.sale payment.amount sale'
    unfold saleBalance returnedAmount refundedAmount
    rw [hreturns, htotal, hpaid]
    omega
  have hdue : dueOn t r.sale - dueOn s r.sale = -payment.amount := by
    rw [dueOn_eq hrow, dueOn_eq hsale, if_neg hnotvoid, if_neg hvoid, hbalance]
    omega
  have hcredited : creditedBack customer s (.addSalePayment c r) =
      if sale'.customer = customer then money r.amount else 0 := by
    simp only [creditedBack, hsale]
  rw [hreported, hdue, hcredited]
  split <;> omega

/-- A void takes back what was due on its invoice. -/
lemma reported_voidSale {c : Call} {id : ℕ} (h : Runs (voidSale c id) s x t) (customer : ℕ) :
    reportedReceivable t customer =
      reportedReceivable s customer - max 0 (creditedBack customer s (.voidSale c id)) := by
  obtain ⟨sale, amounts, rows, u, hcheck, -, hmoved, ht⟩ := runs_voidSale h
  obtain ⟨hsale, hvoid, hnone, -⟩ := checkVoid_ok hcheck
  have hsales := sales_applyVoid c id sale amounts u
  rw [sales_of_rest hmoved.rest, ← ht] at hsales
  have hreturns (k : ℕ) : returnsOfSale t k = returnsOfSale s k := by
    rw [returnsOfSale, returnsOfSale, hsales]
  obtain ⟨hrow, hreported⟩ := reported_of_rewrite hsale (congrArg SalesTables.sales hsales)
    (fun _ => rfl) (fun k _ => hreturns k) customer
  have hafter : dueOn t id = 0 := by
    rw [dueOn_eq hrow, if_pos rfl]
  have hbefore : dueOn s id = max 0 (sale.total - sale.amountPaid) := by
    have hbalance : saleBalance s id sale = sale.total - sale.amountPaid := by
      unfold saleBalance returnedAmount refundedAmount
      rw [hnone]
      simp
    rw [dueOn_eq hsale, if_neg hvoid, hbalance, max_comm]
  have hcredited : creditedBack customer s (.voidSale c id) =
      if sale.customer = customer then sale.total - sale.amountPaid else 0 := by
    simp only [creditedBack, hsale]
  rw [hreported, hafter, hbefore, hcredited]
  split <;> omega

/-- A return to the account gives up what is still due on its invoice, at most the refund; a
return by any other method leaves it as it was. -/
lemma reported_processReturn {c : Call} {r : ReturnRequest} (h : Runs (processReturn c r) s x t)
    (hrecorded : ReturnsRecorded s) (customer : ℕ) :
    0 < requestedRefund s r ∧
      reportedReceivable t customer = reportedReceivable s customer -
        if r.refundMethod = .customerAccount ∧ r.sale ∈ salesOfCustomer s customer then
          min (dueOn s r.sale) (requestedRefund s r) else 0 := by
  obtain ⟨sale, p, u, hcheck, hloop, hpos, -⟩ := runs_processReturn h
  obtain ⟨hsale, hvoid, -⟩ := checkReturn_ok hcheck
  obtain ⟨sale', p', u', hcheck', hloop', -, hsales⟩ := processReturn_sales h
  obtain rfl : sale' = sale := Except.ok.inj (hcheck'.symm.trans hcheck)
  obtain ⟨rfl, rfl⟩ : p' = p ∧ u' = u := by
    have hsame := Except.ok.inj (hloop'.symm.trans hloop)
    exact ⟨congrArg Prod.fst hsame, congrArg Prod.snd hsame⟩
  have hrefund : p'.refundTotal = requestedRefund s r :=
    (returnLoop_of_runs hrecorded.within hloop).refundTotal
  have hreturns (k : ℕ) : returnsOfSale t k = returnsOfSale s k ++
      if k = r.sale then [{ saleReturnRow c r sale' s with refundAmount := p'.refundTotal }]
      else [] := by
    rw [returnsOfSale, returnsOfSale, hsales]
    dsimp only
    rw [List.filter_append]
    by_cases hk : k = r.sale
    · subst hk
      simp [saleReturnRow]
    · simp [saleReturnRow, hk, Ne.symm hk]
  obtain ⟨hrow, hreported⟩ := reported_of_rewrite hsale (congrArg SalesTables.sales hsales)
    (fun _ => rfl) (fun k hk => by rw [hreturns, if_neg hk, List.append_nil]) customer
  have hnotvoid : returnStatus u' r.sale ≠ .voided := by
    unfold returnStatus
    dsimp only
    split <;> decide
  have hbalance : saleBalance t r.sale { sale' with status := returnStatus u' r.sale } =
      saleBalance s r.sale sale' -
        if r.refundMethod = .customerAccount then p'.refundTotal else 0 := by
    unfold saleBalance returnedAmount refundedAmount
    rw [hreturns, if_pos rfl, List.filter_append, List.map_append, List.sum_append,
      List.map_append, List.sum_append]
    by_cases haccount : r.refundMethod = .customerAccount
    · simp [saleReturnRow, haccount]
      omega
    · simp [saleReturnRow, haccount]
      omega
  have hmem : r.sale ∈ salesOfCustomer s customer ↔ sale'.customer = customer := by
    rw [mem_salesOfCustomer, hsale]
    simp
  refine ⟨hrefund ▸ hpos, ?_⟩
  rw [hreported, dueOn_eq hrow, dueOn_eq hsale, if_neg hnotvoid, if_neg hvoid, hbalance, ← hrefund]
  simp only [hmem]
  by_cases haccount : r.refundMethod = .customerAccount <;>
    by_cases hcustomer : sale'.customer = customer <;>
      simp only [haccount, hcustomer, if_true, if_false, and_self, and_false, false_and] <;> omega

/-- What a return takes off the account of the customer. -/
lemma balance_refund {c : Call} {r : ReturnRequest} (h : Runs (processReturn c r) s x t)
    (hrecorded : ReturnsRecorded s) {customer : ℕ}
    (hc : customer < s.parties.customers.length) :
    balanceOf t customer = balanceOf s customer -
      if r.refundMethod = .customerAccount ∧ r.sale ∈ salesOfCustomer s customer then
        max 0 (min (balanceOf s customer) (requestedRefund s r)) else 0 := by
  obtain ⟨sale, p, u, hcheck, hloop, hpos, rfl⟩ := runs_processReturn h
  obtain ⟨hsale, -⟩ := checkReturn_ok hcheck
  have hrefund : p.refundTotal = requestedRefund s r :=
    (returnLoop_of_runs hrecorded.within hloop).refundTotal
  have hparties : u.parties = s.parties := by
    have hmoves (m : Movement) : Within (Frame State.parties) (recordMovement m) :=
      (within_rest_recordMovement m).mono fun _ _ h => parties_of_rest h
    have hline := within_returnLine (fun m _ => hmoves m) (fun _ _ => rfl) c r sale
    have hframe := within_foldlM
      (hline s.sales.returns.length (saleReturnRow c r sale s).returnNumber) r.items
      (startProgress s)
    have hsame := hframe hloop
    exact hsame
  have hbalance : balanceOf u = balanceOf s := by
    funext k
    unfold balanceOf
    rw [hparties]
  have hmem : r.sale ∈ salesOfCustomer s customer ↔ sale.customer = customer := by
    rw [mem_salesOfCustomer, hsale]
    simp
  let opened : State := { u with
    sales.returns :=
      u.sales.returns.modify s.sales.returns.length ({ · with refundAmount := p.refundTotal }) }
  have hfinish : balanceOf (finishReturn r sale s.sales.returns.length p.refundTotal u) customer =
      balanceOf (applyRefund r.refundMethod sale.customer p.refundTotal opened) customer := rfl
  have hopened : balanceOf opened = balanceOf s := hbalance
  have hlength : customer < opened.parties.customers.length := by
    show customer < u.parties.customers.length
    rw [hparties]
    exact hc
  rw [hfinish, ← hrefund]
  simp only [hmem]
  cases hmethod : r.refundMethod with
  | customerAccount =>
    have hcharged : balanceOf (if 0 < min (balanceOf opened sale.customer) p.refundTotal then
        applyBalanceChange sale.customer (-min (balanceOf opened sale.customer) p.refundTotal)
          opened else opened) customer = balanceOf s customer -
            if sale.customer = customer then max 0 (min (balanceOf s customer) p.refundTotal)
            else 0 := by
      rw [hopened]
      split
      · rw [balanceOf_applyBalanceChange hlength, hopened]
        by_cases hsame : sale.customer = customer
        · subst hsame
          rw [if_pos rfl, if_pos rfl]
          omega
        · rw [if_neg hsame, if_neg hsame]
          omega
      · rw [hopened]
        by_cases hsame : sale.customer = customer
        · subst hsame
          rw [if_pos rfl]
          omega
        · rw [if_neg hsame]
          omega
    simp only [true_and]
    rw [← hcharged]
    unfold applyRefund
    dsimp only
    split
    · exact balanceOf_applyStoreCreditChange _ _ _ _
    · rfl
  | storeCredit =>
    rw [if_neg (by simp), sub_zero, ← hopened]
    exact balanceOf_applyStoreCreditChange _ _ _ _
  | _ =>
    rw [if_neg (by simp), sub_zero, ← hopened]
    rfl

/-- A sale is due as far as it was put on account. -/
lemma reported_made {c : Call} {r : CheckoutRequest} {id : ℕ} {p : PreparedSale} {number : Text}
    {items : List SaleItem} (h : SaleMade c r s t id p number items) (hs : Linked s)
    {customer : ℕ} (hc : customer < s.parties.customers.length) :
    reportedReceivable t customer - balanceOf t customer =
      reportedReceivable s customer - balanceOf s customer := by
  obtain ⟨totalCost, sequences, hsales⟩ := h.sales
  obtain ⟨_, -, hprepared⟩ := h.prepared
  have hcredit := (accountTenders_nonneg hprepared).1
  have hreturns (k : ℕ) : returnsOfSale t k = returnsOfSale s k := by
    rw [returnsOfSale, returnsOfSale, hsales]
  have hrow : t.sales.sales[id]? = some (settledSale r p totalCost (saleRow c r p number)) := by
    rw [hsales, h.id_eq]
    exact List.getElem?_concat_length
  have hnotvoid : (settledSale r p totalCost (saleRow c r p number)).status ≠ .voided := by
    unfold settledSale creditStatus saleRow
    dsimp only
    split
    · split <;> decide
    · decide
  have hnew : returnsOfSale t id = [] := by
    rw [hreturns]
    refine List.filter_eq_nil_iff.mpr fun x hx => ?_
    have hlt := hs.saleReturn x hx
    rw [h.id_eq, decide_eq_true_eq]
    omega
  have hdue : dueOn t id = p.paymentTotals.creditAmount := by
    have hunpaid := h.unpaid_eq
    have hbalance : saleBalance t id (settledSale r p totalCost (saleRow c r p number)) =
        unpaid t id := by
      unfold saleBalance returnedAmount refundedAmount unpaid
      rw [hnew, hrow]
      simp
    rw [dueOn_eq hrow, if_neg hnotvoid, hbalance, hunpaid, max_eq_left hcredit]
  have hold (k : ℕ) (hk : k ∈ salesOfCustomer s customer) : dueOn t k = dueOn s k := by
    obtain ⟨sale, hsale, -⟩ := mem_salesOfCustomer.mp hk
    have hlt := (List.getElem?_eq_some_iff.mp hsale).1
    apply dueOn_of_same (hreturns k)
    rw [hsales]
    dsimp only
    rw [List.getElem?_append_left hlt]
  have hids : salesOfCustomer t customer = salesOfCustomer s customer ++
      if r.customer = customer then [id] else [] := by
    unfold salesOfCustomer childrenOf
    rw [hsales, h.id_eq]
    dsimp only
    rw [List.zipIdx_append, List.map_append, List.filter_append, List.map_append]
    by_cases hcustomer : r.customer = customer <;> simp [settledSale, saleRow, hcustomer]
  have hbalance : balanceOf t customer = balanceOf s customer +
      if r.customer = customer then p.paymentTotals.creditAmount else 0 := by
    have hsame : balanceOf t customer =
        balanceOf (updateCustomer r.customer (chargedCustomer p) s) customer := by
      unfold balanceOf
      rw [h.parties]
      rfl
    rw [hsame, balanceOf_updateCustomer hc _ fun _ => rfl]
  have hsum : reportedReceivable t customer = reportedReceivable s customer +
      if r.customer = customer then p.paymentTotals.creditAmount else 0 := by
    unfold reportedReceivable
    rw [hids, List.map_append, List.sum_append, List.map_congr_left hold]
    congr 1
    split <;> simp [hdue]
  rw [hsum, hbalance]
  omega

end Services

/-! ## The difference along a run -/

/-- What a request adds to the report beyond the account, once it is accepted: a collection on the
account, and what a return takes off the account but not off its invoice. -/
def acceptedOffset (customer : ℕ) (s : State) (op : Op) : ℤ :=
  match op with
  | .recordCustomerPayment _ r => if r.customer = customer then money r.amount else 0
  | .processReturn _ r =>
    if r.refundMethod = .customerAccount ∧ r.sale ∈ salesOfCustomer s customer then
      max 0 (min (balanceOf s customer) (requestedRefund s r)) -
        min (dueOn s r.sale) (requestedRefund s r)
    else 0
  | _ => 0

/-- What a request adds to the report beyond the account. -/
def accountOffset (customer : ℕ) (s : State) (op : Op) : ℤ :=
  if op.Accepted s then acceptedOffset customer s op else 0

/-- What is known of a reachable state with the customer. -/
structure AccountState (customer : ℕ) (s : State) : Prop where
  linked : Linked s
  recorded : ReturnsRecorded s
  exists_customer : customer < s.parties.customers.length

lemma accountState_step (customer : ℕ) (s : State) (op : Op) (h : AccountState customer s) :
    AccountState customer (step s op) where
  linked := linked_step s op h.linked
  recorded := returnsRecorded_step s op h.linked h.recorded
  exists_customer := Nat.lt_of_lt_of_le h.exists_customer (customersGrow_step s op)

/-- The report reads the sales and the returns only. -/
lemma reported_congr {s t : State} (hsales : t.sales.sales = s.sales.sales)
    (hreturns : t.sales.returns = s.sales.returns) (customer : ℕ) :
    reportedReceivable t customer = reportedReceivable s customer := by
  have hdue (k : ℕ) : dueOn t k = dueOn s k := by
    apply dueOn_of_same
    · rw [returnsOfSale, returnsOfSale, hreturns]
    · rw [hsales]
  unfold reportedReceivable salesOfCustomer
  rw [hsales, funext hdue]

lemma amount_of_checkCollection {c : Call} {r : CollectionRequest} {s : State}
    {receipt : CustomerPayment} (h : checkCollection c r s = .ok receipt) :
    receipt.amount = money r.amount := by
  unfold checkCollection at h
  simp only [except_bind_eq_ok, found_eq_ok, require_eq_ok, pure, Except.pure,
    Except.ok.injEq] at h
  obtain ⟨-, -, _, -, -, -, -, -, -, -, -, -, -, -, -, -, -, -, rfl⟩ := h
  rfl

/-- One request moves the difference between the two figures by its offset. -/
lemma offset_step {customer : ℕ} {s : State} (h : AccountState customer s) (op : Op) :
    reportedReceivable (step s op) customer - balanceOf (step s op) customer =
      reportedReceivable s customer - balanceOf s customer + accountOffset customer s op := by
  have hc := h.exists_customer
  by_cases haccepted : op.Accepted s
  · have hrun := haccepted.runs
    have hframe : (∀ comp ∈ op.footprint, comp ≠ .parties ∧ comp ≠ .accounts ∧ comp ≠ .sales ∧
        comp ≠ .paymentMethods) →
        reportedReceivable (step s op) customer - balanceOf (step s op) customer =
          reportedReceivable s customer - balanceOf s customer + 0 := by
      intro hop
      have hcustomers : (step s op).parties.customers = s.parties.customers := by
        refine step_within (R := Frame fun s => s.parties.customers) op ?_ s
        intro comp hcomp s t hchange
        exact (Component.customers hchange (hop comp hcomp).1).2 (hop comp hcomp).2.1
      have hsales : (step s op).sales = s.sales := by
        refine step_within (R := Frame fun s => s.sales) op ?_ s
        intro comp hcomp s t hchange
        exact hchange.kept.sales (hop comp hcomp).2.2.1 (hop comp hcomp).2.2.2
      have hreported : reportedReceivable (step s op) customer = reportedReceivable s customer :=
        reported_congr (congrArg SalesTables.sales hsales) (congrArg SalesTables.returns hsales) _
      rw [hreported, balanceOf, balanceOf, hcustomers, add_zero]
    rw [accountOffset, if_pos haccepted]
    cases op with
    | completeSale c r =>
      show _ = _ + (0 : ℤ)
      obtain ⟨id, hrun⟩ := runs_discard.mp hrun
      rcases runs_completeSale hrun with hreplayed | ⟨p, number, items, hmade⟩
      · rw [hreplayed.unchanged, add_zero]
      · rw [reported_made hmade h.linked hc, add_zero]
    | addSalePayment c r =>
      show _ = _ + (0 : ℤ)
      rw [reported_addSalePayment hrun, balance_addSalePayment hc hrun]
      omega
    | voidSale c id =>
      show _ = _ + (0 : ℤ)
      rw [reported_voidSale hrun, balance_voidSale hc hrun]
      omega
    | processReturn c r =>
      rw [(reported_processReturn hrun h.recorded customer).2, balance_refund hrun h.recorded hc,
        acceptedOffset]
      split <;> omega
    | recordCustomerPayment c r =>
      obtain ⟨receipt, hcheck, hafter⟩ := runs_recordCustomerPayment hrun
      have hsales : (step s (.recordCustomerPayment c r)).sales = s.sales := by
        rw [hafter]
        rfl
      have hreported : reportedReceivable (step s (.recordCustomerPayment c r)) customer =
          reportedReceivable s customer :=
        reported_congr (congrArg SalesTables.sales hsales) (congrArg SalesTables.returns hsales) _
      have hbalance : balanceOf (step s (.recordCustomerPayment c r)) customer =
          balanceOf s customer + if r.customer = customer then -receipt.amount else 0 := by
        rw [hafter, balanceOf_applyBalanceChange]
        · rfl
        · exact hc
      rw [hreported, hbalance, amount_of_checkCollection hcheck, acceptedOffset]
      split <;> omega
    | saveMasterData m =>
      show _ = _ + (0 : ℤ)
      have hsaved : step s (.saveMasterData m) = m.save s := rfl
      have hreported : reportedReceivable (m.save s) customer = reportedReceivable s customer :=
        reported_congr (by cases m <;> rfl) (by cases m <;> rfl) customer
      rw [hsaved, balanceOf_save hc m, hreported, add_zero]
    | _ => exact hframe (by simp [Op.footprint])
  · rw [step_of_not_accepted haccepted, accountOffset, if_neg haccepted, add_zero]

/-! ## When the two figures agree -/

/-- The request collects nothing on the customer's account, and refunds to the account no more
than is due on the invoice, unless nothing is due on the customer's others. -/
def KeepsIfAccepted (customer : ℕ) (s : State) (op : Op) : Prop :=
  match op with
  | .recordCustomerPayment _ r => r.customer ≠ customer
  | .processReturn _ r =>
    r.refundMethod = .customerAccount → r.sale ∈ salesOfCustomer s customer →
      requestedRefund s r ≤ dueOn s r.sale ∨
        ∀ other ∈ salesOfCustomer s customer, other ≠ r.sale → dueOn s other = 0
  | _ => True

/-- A request that is refused, or keeps the two figures equal. -/
def KeepsReceivables (customer : ℕ) (s : State) (op : Op) : Prop :=
  op.Accepted s → KeepsIfAccepted customer s op

/-- The report of a customer is one invoice exactly when nothing is due on the others. -/
lemma reported_eq_dueOn_iff {s : State} {customer id : ℕ} (h : id ∈ salesOfCustomer s customer) :
    reportedReceivable s customer = dueOn s id ↔
      ∀ other ∈ salesOfCustomer s customer, other ≠ id → dueOn s other = 0 := by
  let others : ℕ → ℤ := fun k => if k = id then 0 else dueOn s k
  have hsplit : ((salesOfCustomer s customer).map others).sum =
      reportedReceivable s customer + (others id - dueOn s id) := by
    have hsum := sum_map_of_eq_except (f := dueOn s) (g := others) (fun k hk => if_neg hk)
      (nodup_salesOfCustomer s customer)
    rw [if_pos h] at hsum
    exact hsum
  have hid : others id = 0 := if_pos rfl
  have hnonneg : ∀ x ∈ (salesOfCustomer s customer).map others, 0 ≤ x := by
    intro x hx
    obtain ⟨k, -, rfl⟩ := List.mem_map.mp hx
    show 0 ≤ if k = id then 0 else dueOn s k
    split
    · omega
    · exact dueOn_nonneg s k
  constructor
  · intro heq k hk hne
    have hle := List.single_le_sum hnonneg _ (List.mem_map_of_mem hk)
    have hk' : others k = dueOn s k := if_neg hne
    have hdue := dueOn_nonneg s k
    omega
  · intro hzero
    have hsum : ((salesOfCustomer s customer).map others).sum = 0 := by
      apply List.sum_eq_zero
      intro x hx
      obtain ⟨k, hk, rfl⟩ := List.mem_map.mp hx
      show (if k = id then 0 else dueOn s k) = 0
      split
      · rfl
      · rename_i hne
        exact hzero k hk hne
    omega

/-- Where the two figures agree, a request keeps them equal exactly when it meets the condition. -/
lemma accountOffset_eq_zero_iff {customer : ℕ} {s : State} (h : AccountState customer s)
    (hagree : reportedReceivable s customer = balanceOf s customer) (op : Op) :
    accountOffset customer s op = 0 ↔ KeepsReceivables customer s op := by
  by_cases haccepted : op.Accepted s
  · have hrun := haccepted.runs
    have hguard : KeepsReceivables customer s op ↔ KeepsIfAccepted customer s op :=
      ⟨fun h => h haccepted, fun h _ => h⟩
    rw [accountOffset, if_pos haccepted, hguard]
    cases op with
    | recordCustomerPayment c r =>
      obtain ⟨receipt, hcheck, -⟩ := runs_recordCustomerPayment hrun
      have hpos := (checkCollection_ok hcheck).1
      rw [amount_of_checkCollection hcheck] at hpos
      show (if r.customer = customer then money r.amount else 0) = 0 ↔ r.customer ≠ customer
      split <;> omega
    | processReturn c r =>
      have hpos := (reported_processReturn hrun h.recorded customer).1
      rw [acceptedOffset, KeepsIfAccepted]
      by_cases hmethod : r.refundMethod = .customerAccount
      · by_cases hmem : r.sale ∈ salesOfCustomer s customer
        · have hle := dueOn_le_reported hmem
          have hnonneg := dueOn_nonneg s r.sale
          rw [← reported_eq_dueOn_iff hmem, if_pos ⟨hmethod, hmem⟩]
          simp only [hmethod, hmem, true_imp_iff]
          omega
        · simp [hmem]
      · simp [hmethod]
    | _ => exact iff_of_true rfl trivial
  · rw [accountOffset, if_neg haccepted]
    exact iff_of_true rfl fun h => absurd h haccepted

/-- Every sale is on the account of a customer. -/
lemma customer_of_sale_lt (ops : List Op) :
    ∀ x ∈ (salesView (history ops)).sales, x.customer < (history ops).parties.customers.length := by
  induction ops using List.reverseRecOn with
  | nil =>
    intro x hx
    exact nomatch hx
  | append_singleton ops op ih =>
    rw [history_append]
    have hgrow := customersGrow_step (history ops) op
    intro x hx
    rcases salesView_step (history ops) op with hsame | ⟨c, r, id, p, number, items, -, hmade⟩
    · have hx' : x ∈ (salesView (step (history ops) op)).sales := hx
      rw [hsame] at hx'
      exact Nat.lt_of_lt_of_le (ih x hx') hgrow
    · obtain ⟨totalCost, hview⟩ := hmade.salesView_eq
      have hx' : x ∈ (salesView (step (history ops) op)).sales := hx
      rw [hview] at hx'
      rcases List.mem_append.mp hx' with hold | hnew
      · exact Nat.lt_of_lt_of_le (ih x hold) hgrow
      · rw [List.mem_singleton.mp hnew]
        exact Nat.lt_of_lt_of_le hmade.customer_lt hgrow

/-- **Receivables report.**  From the creation of a customer without an opening balance on, along
any sequence of requests, what the report shows for the customer is the balance of the account in
every state if and only if no accepted request collects on the customer's account, and every
accepted return to the account refunds at most what is due on its invoice, unless nothing is due
on the customer's other invoices. -/
theorem receivables_agree_iff (before : List Op) (row : Customer)
    (hopening : row.openingBalance = 0) (ops : List Op) :
    (∀ n, reportedReceivable
          (run (history (before ++ [.saveMasterData (.customer none row)])) (ops.take n))
          (history before).parties.customers.length =
        balanceOf (run (history (before ++ [.saveMasterData (.customer none row)])) (ops.take n))
          (history before).parties.customers.length) ↔
      Trace.All step (KeepsReceivables (history before).parties.customers.length)
        (history (before ++ [.saveMasterData (.customer none row)])) ops := by
  have hcreated : history (before ++ [.saveMasterData (.customer none row)]) =
      (MasterData.customer none row).save (history before) := history_append before _
  set customer := (history before).parties.customers.length with hcustomer
  set s := history (before ++ [.saveMasterData (.customer none row)]) with hs
  have hrows : s.parties.customers = (history before).parties.customers ++
      [{ row with balance := row.openingBalance, storeCredit := 0 }] := by
    rw [hcreated]
    rfl
  have hstate : AccountState customer s := {
    linked := linked_history _
    recorded := returnsRecorded_history _
    exists_customer := by
      rw [hrows, List.length_append, List.length_singleton]
      omega }
  have hbalance : balanceOf s customer = 0 := by
    rw [balanceOf, hrows, hcustomer, List.getElem?_concat_length]
    exact hopening
  have hreported : reportedReceivable s customer = 0 := by
    have hnone : salesOfCustomer s customer = [] := by
      refine List.eq_nil_iff_forall_not_mem.mpr fun id hid => ?_
      obtain ⟨sale, hsale, hof⟩ := mem_salesOfCustomer.mp hid
      have hold : (history before).sales.sales[id]? = some sale := by
        rw [hcreated] at hsale
        exact hsale
      have hlt := customer_of_sale_lt before sale.core
        (List.mem_map_of_mem (List.mem_of_getElem? hold))
      have hsame : sale.core.customer = sale.customer := rfl
      omega
    rw [reportedReceivable, hnone]
    rfl
  let agrees : State → Prop := fun s => AccountState customer s ∧
    reportedReceivable s customer = balanceOf s customer
  have hstep : ∀ s op, agrees s → (agrees (step s op) ↔ KeepsReceivables customer s op) := by
    rintro s op ⟨hstate, hagree⟩
    have hoffset := offset_step hstate op
    rw [← accountOffset_eq_zero_iff hstate hagree]
    constructor
    · rintro ⟨-, hafter⟩
      omega
    · intro hzero
      exact ⟨accountState_step customer s op hstate, by omega⟩
  rw [← Trace.invariant_iff_all hstep ⟨hstate, by omega⟩ ops]
  constructor
  · intro h n
    exact ⟨Trace.invariant (accountState_step customer) hstate _, h n⟩
  · intro h n
    exact (h n).2

/-- Two pieces on account, a payment of 30 on the invoice, one piece back to the account, and one
more sale that is voided. -/
def settledOnInvoices : List Op := [
  Shop.sell 2 [⟨2, 200⟩],
  .addSalePayment Shop.call { sale := 0, amount := 30, method := 0 },
  .processReturn Shop.call { sale := 0, items := [⟨0, 1, true⟩], refundMethod := .customerAccount },
  Shop.sell 1 [⟨2, 100⟩],
  .voidSale Shop.call 1]

theorem receivables_agree_run :
    reportedReceivable (history (Shop.stocked 100000 ++ settledOnInvoices)) 0 =
      balanceOf (history (Shop.stocked 100000 ++ settledOnInvoices)) 0 := by
  refine (receivables_agree_iff (Shop.setup.take 5) { homeBranch := some 0 } rfl
    (Shop.setup.drop 6 ++ (Shop.stocked 100000).drop 10 ++ settledOnInvoices)).mpr ?_ 11
  refine ⟨fun _ => trivial, fun _ => trivial, fun _ => trivial, fun _ => trivial,
    fun _ => trivial, fun _ => trivial, fun _ => trivial, fun _ => trivial, ?_, fun _ => trivial,
    fun _ => trivial, trivial⟩
  intro _ _ _
  left
  decide +kernel

/-- A sale of 100 on account, of which 60 are collected on the account. -/
def collectedOnAccount : List Op := [
  Shop.sell 1 [⟨2, 100⟩],
  .recordCustomerPayment Shop.call { customer := 0, amount := 60, method := 0 }]

/-- Two sales on account and one paid in cash; the cash sale is returned to the account. -/
def returnedToAccount : List Op := [
  Shop.sell 1 [⟨2, 100⟩],
  Shop.sell 1 [⟨0, 100⟩],
  .processReturn Shop.call { sale := 1, items := [⟨1, 1, true⟩], refundMethod := .customerAccount }]

/-- Every request is accepted; after the collection the report still shows 100 where the customer
owes 40, and after the return it shows 100 where the customer owes nothing. -/
theorem receivables_disagree :
    (Trace.All step (fun s op => op.Accepted s) (history (Shop.stocked 100000))
        collectedOnAccount ∧
      reportedReceivable (history (Shop.stocked 100000 ++ collectedOnAccount)) 0 = 100000 ∧
      balanceOf (history (Shop.stocked 100000 ++ collectedOnAccount)) 0 = 40000) ∧
    Trace.All step (fun s op => op.Accepted s) (history (Shop.stocked 100000))
        returnedToAccount ∧
      reportedReceivable (history (Shop.stocked 100000 ++ returnedToAccount)) 0 = 100000 ∧
      balanceOf (history (Shop.stocked 100000 ++ returnedToAccount)) 0 = 0 := by
  refine ⟨⟨?_, by decide +kernel, by decide +kernel⟩, ?_, by decide +kernel, by decide +kernel⟩
  · unfold collectedOnAccount
    refine ⟨?_, ?_, trivial⟩ <;> decide +kernel
  · unfold returnedToAccount
    refine ⟨?_, ?_, ?_, trivial⟩ <;> decide +kernel

end NexaPos
