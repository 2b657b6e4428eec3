import NexaPos.Properties.PurchaseRecords

/-!
# Payments and cheques of a purchase

What is paid on a purchase is what its immediate payments and its cleared cheques add up to, and
together with the pending cheques it stays within the total.  A cheque is taken off the supplier's
payable when it clears, and then only.
-/

namespace NexaPos

open Tx

/-! ## Sums over the payments of a purchase -/

/-- A cheque that has cleared. -/
def SupplierPayment.isClearedCheque (p : SupplierPayment) : Bool :=
  p.method = .cheque && p.chequeStatus = some .cleared

/-- A payment that settles when it is recorded. -/
def SupplierPayment.isImmediate (p : SupplierPayment) : Bool := p.method ≠ .cheque

/-- The amounts of the payments of a purchase of one kind. -/
def paymentSum (s : State) (id : ℕ) (kind : SupplierPayment → Bool) : ℤ :=
  (((paymentsOfPurchase s id).filter kind).map SupplierPayment.amount).sum

lemma paymentSum_eq (s : State) (id : ℕ) (kind : SupplierPayment → Bool) :
    paymentSum s id kind = ((s.purchases.payments.filter fun p =>
      kind p && p.purchase = some id).map SupplierPayment.amount).sum := by
  rw [paymentSum, paymentsOfPurchase, List.filter_filter]

lemma paymentSum_congr {s t : State} (h : t.purchases.payments = s.purchases.payments) (id : ℕ)
    (kind : SupplierPayment → Bool) : paymentSum t id kind = paymentSum s id kind := by
  rw [paymentSum, paymentsOfPurchase, h]
  rfl

lemma paymentSum_append {s t : State} {added : List SupplierPayment}
    (h : t.purchases.payments = s.purchases.payments ++ added) (id : ℕ)
    (kind : SupplierPayment → Bool) :
    paymentSum t id kind = paymentSum s id kind +
      ((added.filter fun p => kind p && p.purchase = some id).map SupplierPayment.amount).sum := by
  rw [paymentSum_eq, paymentSum_eq, h, List.filter_append, List.map_append, List.sum_append]

/-- One payment in a new status. -/
lemma paymentSum_modify {s t : State} {payment : ℕ} {p : SupplierPayment}
    {f : SupplierPayment → SupplierPayment} (hp : s.purchases.payments[payment]? = some p)
    (h : t.purchases.payments = s.purchases.payments.modify payment f)
    (hpurchase : (f p).purchase = p.purchase) (hamount : (f p).amount = p.amount) (id : ℕ)
    (kind : SupplierPayment → Bool) :
    paymentSum t id kind = paymentSum s id kind +
      if p.purchase = some id then
        (if kind (f p) then p.amount else 0) - (if kind p then p.amount else 0) else 0 := by
  rw [paymentSum_eq, paymentSum_eq, h, sum_filter_modify hp]
  simp only [Bool.and_eq_true, decide_eq_true_eq, hpurchase, hamount]
  by_cases hof : p.purchase = some id
  · simp only [hof, and_true, if_true]
    omega
  · simp [hof]

/-- The new rows of a call, by kind. -/
lemma sum_stored {id supplier : ℕ} {payments : List NormalisedPayment}
    {added : List SupplierPayment} (h : List.Forall₂ (PaymentStored id supplier) payments added)
    {kind : SupplierPayment → Bool} (kind' : NormalisedPayment → Bool)
    (hkind : ∀ p row, p ∈ payments → PaymentStored id supplier p row → kind row = kind' p)
    (purchase : ℕ) :
    ((added.filter fun row => kind row && row.purchase = some purchase).map
      SupplierPayment.amount).sum =
      if id = purchase then ((payments.filter kind').map NormalisedPayment.amount).sum else 0 := by
  induction h with
  | nil => simp
  | @cons p row payments added hstored _ ih =>
    have hrest := ih fun q row hq => hkind q row (List.mem_cons_of_mem p hq)
    have hone := hkind p row List.mem_cons_self hstored
    rw [List.filter_cons, List.filter_cons, hone, hstored.purchase]
    by_cases hid : id = purchase
    · subst hid
      rw [if_pos rfl] at hrest ⊢
      cases hk : kind' p
      · simpa using hrest
      · simp [hstored.amount, hrest]
    · rw [if_neg hid] at hrest ⊢
      simpa [hid] using hrest

/-! ## What a request does to payments -/

/-- The amounts of a purchase that payments and checks are about. -/
def Purchase.settlement (p : Purchase) : ℤ × ℤ := (p.amountPaid, p.total)

/-- What a request does to the payments of purchases. -/
inductive PaymentStep (s t : State) : PurchasingOp → Prop
  | same {op : PurchasingOp} (hpayments : t.purchases.payments = s.purchases.payments)
      (hpurchases : t.purchases.purchases.map Purchase.settlement =
        s.purchases.purchases.map Purchase.settlement)
      (hquiet : (∀ c payment status, op ≠ .updateChequeStatus c payment status) ∨ t = s)
      (hquiet' : (∀ c id rows, op ≠ .recordPurchasePayments c id rows) ∨ t = s) :
      PaymentStep s t op
  | ordered {c : Call} {r : PurchaseRequest} {row : Purchase} {items : List PurchaseItem}
      (h : PurchaseOrdered c r s t row items) : PaymentStep s t (.pos (.createPurchase c r))
  | paid {c : Call} {id : ℕ} {rows : List PaymentRow} {row : Purchase}
      {payments : List NormalisedPayment}
      (hcheck : checkPurchasePayments c id rows s = .ok (row, payments))
      (h : t = if settledTotal payments = 0 then payments.foldl (addPayment c id row) s else
        settle id row.supplier (settledTotal payments) (payments.foldl (addPayment c id row) s)) :
      PaymentStep s t (.recordPurchasePayments c id rows)
  | changed {c : Call} {payment : ℕ} {status : RawChoice ChequeStatus} {row : SupplierPayment}
      {id : ℕ} {new : ChequeStatus}
      (hcheck : checkChequeStatus c payment status s = .ok (row, id, some new))
      (h : t = applyChequeStatus c payment row id new s) :
      PaymentStep s t (.updateChequeStatus c payment status)

lemma paymentStep (s : State) (op : PurchasingOp) : PaymentStep s (Purchasing.step s op) op := by
  by_cases haccepted : op.Accepted s
  · cases purchasingStep haccepted with
    | other hop hpurchases hsuppliers =>
      exact .same (by rw [hpurchases]) (by rw [hpurchases]) (.inl (by simp)) (.inl (by simp))
    | ordered h => exact .ordered h
    | received h =>
      refine .same (congrArg (fun x => x.2.2) h.others) ?_ (.inl (by simp)) (.inl (by simp))
      rw [h.purchases, map_modify_of_eq]
      intro _
      rfl
    | sentBack h =>
      exact .same h.payments (by rw [h.purchases]) (.inl (by simp)) (.inl (by simp))
    | paid hcheck h => exact .paid hcheck h
    | chequeKept hcheck h =>
      rw [h]
      exact .same rfl rfl (.inr rfl) (.inr rfl)
    | chequeChanged hcheck h => exact .changed hcheck h
    | cancelled hcheck h =>
      rw [h]
      refine .same rfl ?_ (.inl (by simp)) (.inl (by simp))
      refine map_modify_of_eq ?_ _ _
      intro _
      rfl
  · rw [Purchasing.step_of_not_accepted haccepted]
    exact .same rfl rfl (.inr rfl) (.inr rfl)

/-- The tables after `record_purchase_payments`. -/
lemma tables_paid {c : Call} {id : ℕ} {row : Purchase} {payments : List NormalisedPayment}
    {s t : State}
    (h : t = if settledTotal payments = 0 then payments.foldl (addPayment c id row) s else
      settle id row.supplier (settledTotal payments) (payments.foldl (addPayment c id row) s)) :
    ∃ added, t.purchases.payments = s.purchases.payments ++ added ∧
      List.Forall₂ (PaymentStored id row.supplier) payments added ∧
      t.purchases.purchases = s.purchases.purchases.modify id
        (fun p => { p with amountPaid := p.amountPaid + settledTotal payments }) ∧
      t.parties.suppliers = s.parties.suppliers.modify row.supplier
        (fun x => { x with balance := x.balance + -settledTotal payments }) := by
  obtain ⟨added, hadded, hstored⟩ := foldl_addPayment c id row payments s
  rw [hadded] at h
  refine ⟨added, ?_, hstored, ?_, ?_⟩
  · rw [h]
    split <;> rfl
  · rw [h]
    split
    · rename_i hzero
      simp only [hzero, add_zero]
      exact (List.modify_id _ _).symm
    · rfl
  · rw [h]
    split
    · rename_i hzero
      simp only [hzero, neg_zero, add_zero]
      exact (List.modify_id _ _).symm
    · rfl

/-- The tables after `update_cheque_status`. -/
lemma tables_changed {c : Call} {payment : ℕ} {row : SupplierPayment} {id : ℕ}
    {new : ChequeStatus} {s t : State} (h : t = applyChequeStatus c payment row id new s) :
    t.purchases.payments = s.purchases.payments.modify payment (chequeIn c new) ∧
      t.purchases.purchases = s.purchases.purchases.modify id (fun p => { p with
        amountPaid := p.amountPaid + if new = .cleared then row.amount else 0 }) ∧
      t.parties.suppliers = s.parties.suppliers.modify row.supplier (fun x => { x with
        balance := x.balance + -(if new = .cleared then row.amount else 0) }) := by
  rw [h]
  unfold applyChequeStatus
  by_cases hnew : new = .cleared
  · subst hnew
    exact ⟨rfl, rfl, rfl⟩
  · simp only [if_neg hnew, neg_zero, add_zero]
    exact ⟨trivial, (List.modify_id _ _).symm, (List.modify_id _ _).symm⟩

/-! ## What is paid and what is pending -/

/-- The payments of the purchases add up. -/
structure PaymentsKept (s : State) : Prop where
  linked : ∀ p ∈ s.purchases.payments, ∀ id ∈ p.purchase, id < s.purchases.purchases.length
  positive : ∀ p ∈ s.purchases.payments, 0 < p.amount
  paid : ∀ (id : ℕ) row, s.purchases.purchases[id]? = some row → row.amountPaid =
    paymentSum s id SupplierPayment.isImmediate + paymentSum s id SupplierPayment.isClearedCheque
  capped : ∀ (id : ℕ) row, s.purchases.purchases[id]? = some row →
    row.amountPaid + paymentSum s id SupplierPayment.isPendingCheque ≤ row.total

/-- A purchase without payments. -/
lemma paymentSum_eq_zero {s : State} (hs : PaymentsKept s) {id : ℕ}
    (hid : s.purchases.purchases.length ≤ id) (kind : SupplierPayment → Bool) :
    paymentSum s id kind = 0 := by
  have hnone : paymentsOfPurchase s id = [] := by
    refine List.filter_eq_nil_iff.mpr fun p hp => ?_
    rw [decide_eq_true_eq]
    intro hof
    have hlt := hs.linked p hp id hof
    omega
  rw [paymentSum, hnone]
  rfl

lemma PaymentsKept.ordered {c : Call} {r : PurchaseRequest} {s t : State} {row : Purchase}
    {items : List PurchaseItem} (h : PurchaseOrdered c r s t row items) (hs : PaymentsKept s) :
    PaymentsKept t := by
  have hpayments : t.purchases.payments = s.purchases.payments := congrArg (fun x => x.2.2) h.others
  have hpriced := checkPurchase_ok h.check
  have hsum := paymentSum_congr hpayments
  refine ⟨?_, ?_, ?_, ?_⟩
  · rw [hpayments, h.purchases, List.length_append]
    intro p hp id hid
    have hlt := hs.linked p hp id hid
    omega
  · rw [hpayments]
    exact hs.positive
  · intro id now hnow
    rw [h.purchases] at hnow
    rw [hsum, hsum]
    rcases getElem?_concat_eq_some.mp hnow with hold | ⟨rfl, rfl⟩
    · exact hs.paid id now hold
    · rw [paymentSum_eq_zero hs le_rfl, paymentSum_eq_zero hs le_rfl, hpriced.unpaid, add_zero]
  · intro id now hnow
    rw [h.purchases] at hnow
    rw [hsum]
    rcases getElem?_concat_eq_some.mp hnow with hold | ⟨rfl, rfl⟩
    · exact hs.capped id now hold
    · rw [paymentSum_eq_zero hs le_rfl, hpriced.unpaid, add_zero]
      exact hpriced.total_nonneg

/-- The amounts of a call: what settles at once and what is pending. -/
lemma sum_amount_split {payments : List NormalisedPayment} :
    (payments.map NormalisedPayment.amount).sum = settledTotal payments +
      ((payments.filter fun p => p.method = .cheque).map NormalisedPayment.amount).sum := by
  unfold settledTotal
  induction payments with
  | nil => rfl
  | cons p payments ih =>
    rw [List.map_cons, List.sum_cons, ih, List.filter_cons, List.filter_cons]
    by_cases hcheque : p.method = .cheque
    · simp only [hcheque, ne_eq, not_true_eq_false, decide_false, Bool.false_eq_true, if_false,
        decide_true, if_true, List.map_cons, List.sum_cons]
      omega
    · simp only [hcheque, ne_eq, not_false_eq_true, decide_true, if_true, decide_false,
        Bool.false_eq_true, if_false, List.map_cons, List.sum_cons]
      omega

lemma PaymentsKept.paidRows {c : Call} {id : ℕ} {rows : List PaymentRow} {row : Purchase}
    {payments : List NormalisedPayment} {s t : State}
    (hcheck : checkPurchasePayments c id rows s = .ok (row, payments))
    (h : t = if settledTotal payments = 0 then payments.foldl (addPayment c id row) s else
      settle id row.supplier (settledTotal payments) (payments.foldl (addPayment c id row) s))
    (hs : PaymentsKept s) : PaymentsKept t := by
  obtain ⟨hrow, -, hrows, hcap⟩ := checkPurchasePayments_ok hcheck
  obtain ⟨added, hadded, hstored, hpurchases, -⟩ := tables_paid h
  have hid : id < s.purchases.purchases.length := (List.getElem?_eq_some_iff.mp hrow).1
  have hstatus : ∀ p r, p ∈ payments → PaymentStored id row.supplier p r →
      r.method = p.method ∧ r.chequeStatus = if p.method = .cheque then some .pending else none :=
    fun p r hp hr => ⟨hr.method, hr.chequeStatus.trans (hrows p hp).2⟩
  have himmediate : ∀ purchase, paymentSum t purchase SupplierPayment.isImmediate =
      paymentSum s purchase SupplierPayment.isImmediate +
        if id = purchase then settledTotal payments else 0 := by
    intro purchase
    rw [paymentSum_append hadded, sum_stored hstored fun p => p.method ≠ .cheque]
    · rfl
    · intro p r hp hr
      rw [SupplierPayment.isImmediate, (hstatus p r hp hr).1]
  have hcleared : ∀ purchase, paymentSum t purchase SupplierPayment.isClearedCheque =
      paymentSum s purchase SupplierPayment.isClearedCheque := by
    intro purchase
    rw [paymentSum_append hadded, sum_stored hstored fun _ => false]
    · simp
    · intro p r hp hr
      obtain ⟨hmethod, hnew⟩ := hstatus p r hp hr
      rw [SupplierPayment.isClearedCheque, hmethod, hnew]
      by_cases hcheque : p.method = .cheque <;> simp [hcheque]
  have hpending : ∀ purchase, paymentSum t purchase SupplierPayment.isPendingCheque =
      paymentSum s purchase SupplierPayment.isPendingCheque + if id = purchase then
        ((payments.filter fun p => p.method = .cheque).map NormalisedPayment.amount).sum else 0 := by
    intro purchase
    rw [paymentSum_append hadded, sum_stored hstored fun p => p.method = .cheque]
    intro p r hp hr
    obtain ⟨hmethod, hnew⟩ := hstatus p r hp hr
    rw [SupplierPayment.isPendingCheque, hmethod, hnew]
    by_cases hcheque : p.method = .cheque <;> simp [hcheque]
  refine ⟨?_, ?_, ?_, ?_⟩
  · rw [hadded, hpurchases, List.length_modify]
    intro p hp purchase hof
    rcases List.mem_append.mp hp with hp | hp
    · exact hs.linked p hp purchase hof
    · obtain ⟨x, -, hx⟩ := exists_of_forall₂_mem hstored hp
      rw [hx.purchase] at hof
      obtain rfl := Option.some.inj hof
      exact hid
  · rw [hadded]
    intro p hp
    rcases List.mem_append.mp hp with hp | hp
    · exact hs.positive p hp
    · obtain ⟨x, hx, hrow⟩ := exists_of_forall₂_mem hstored hp
      rw [hrow.amount]
      exact (hrows x hx).1
  · intro purchase now hnow
    rw [hpurchases] at hnow
    obtain ⟨old, hold, rfl⟩ := getElem?_modify_eq_some.mp hnow
    have hpaid := hs.paid purchase old hold
    rw [himmediate, hcleared]
    by_cases hsame : id = purchase
    · rw [if_pos hsame, if_pos hsame]
      simp only
      omega
    · rw [if_neg hsame, if_neg hsame]
      omega
  · intro purchase now hnow
    rw [hpurchases] at hnow
    obtain ⟨old, hold, rfl⟩ := getElem?_modify_eq_some.mp hnow
    rw [hpending]
    by_cases hsame : id = purchase
    · subst hsame
      obtain rfl : row = old := Option.some.inj (hrow.symm.trans hold)
      have hsplit := @sum_amount_split payments
      change row.amountPaid + paymentSum s id SupplierPayment.isPendingCheque + _ ≤ _ at hcap
      rw [if_pos rfl, if_pos rfl]
      simp only
      omega
    · rw [if_neg hsame, if_neg hsame, add_zero]
      exact hs.capped purchase old hold

lemma PaymentsKept.changed {c : Call} {payment : ℕ} {status : RawChoice ChequeStatus}
    {row : SupplierPayment} {id : ℕ} {new : ChequeStatus} {s t : State}
    (hcheck : checkChequeStatus c payment status s = .ok (row, id, some new))
    (h : t = applyChequeStatus c payment row id new s) (hs : PaymentsKept s) : PaymentsKept t := by
  obtain ⟨hrow, hcheque, hid, -, hpending, hnew⟩ := checkChequeStatus_ok hcheck
  obtain ⟨hpayments, hpurchases, -⟩ := tables_changed h
  have hsum := paymentSum_modify (f := chequeIn c new) hrow hpayments rfl rfl
  have himmediate : ∀ purchase, paymentSum t purchase SupplierPayment.isImmediate =
      paymentSum s purchase SupplierPayment.isImmediate := by
    intro purchase
    rw [hsum]
    simp [SupplierPayment.isImmediate, chequeIn, hcheque]
  have hcleared : ∀ purchase, paymentSum t purchase SupplierPayment.isClearedCheque =
      paymentSum s purchase SupplierPayment.isClearedCheque +
        if id = purchase then (if new = .cleared then row.amount else 0) else 0 := by
    intro purchase
    rw [hsum, hid]
    simp [SupplierPayment.isClearedCheque, chequeIn, hcheque, hpending]
  have hpendingSum : ∀ purchase, paymentSum t purchase SupplierPayment.isPendingCheque =
      paymentSum s purchase SupplierPayment.isPendingCheque -
        if id = purchase then row.amount else 0 := by
    intro purchase
    rw [hsum, hid]
    simp only [SupplierPayment.isPendingCheque, chequeIn, hcheque, hpending, Option.some.injEq,
      hnew, decide_true, decide_false, Bool.and_true, Bool.and_false, Bool.false_eq_true, if_false,
      if_true, zero_sub]
    split <;> omega
  have hpositive := hs.positive row (List.mem_of_getElem? hrow)
  refine ⟨?_, ?_, ?_, ?_⟩
  · rw [hpayments, hpurchases, List.length_modify]
    intro p hp purchase hof
    have hcolumn : p.purchase ∈ s.purchases.payments.map SupplierPayment.purchase := by
      rw [← map_modify_of_eq (f := chequeIn c new) (fun _ => rfl) _ payment]
      exact List.mem_map_of_mem hp
    obtain ⟨old, hold, hsame⟩ := List.mem_map.mp hcolumn
    exact hs.linked old hold purchase (hsame ▸ hof)
  · rw [hpayments]
    intro p hp
    have hcolumn : p.amount ∈ s.purchases.payments.map SupplierPayment.amount := by
      rw [← map_modify_of_eq (f := chequeIn c new) (fun _ => rfl) _ payment]
      exact List.mem_map_of_mem hp
    obtain ⟨old, hold, hsame⟩ := List.mem_map.mp hcolumn
    exact hsame ▸ hs.positive old hold
  · intro purchase now hnow
    rw [hpurchases] at hnow
    obtain ⟨old, hold, rfl⟩ := getElem?_modify_eq_some.mp hnow
    have hpaid := hs.paid purchase old hold
    rw [himmediate, hcleared]
    by_cases hsame : id = purchase
    · rw [if_pos hsame, if_pos hsame]
      simp only
      omega
    · rw [if_neg hsame, if_neg hsame]
      omega
  · intro purchase now hnow
    rw [hpurchases] at hnow
    obtain ⟨old, hold, rfl⟩ := getElem?_modify_eq_some.mp hnow
    have hcapped := hs.capped purchase old hold
    rw [hpendingSum]
    by_cases hsame : id = purchase
    · rw [if_pos hsame, if_pos hsame]
      simp only
      split <;> omega
    · rw [if_neg hsame, if_neg hsame]
      omega

lemma paymentsKept_step (s : State) (op : PurchasingOp) (hs : PaymentsKept s) :
    PaymentsKept (Purchasing.step s op) := by
  cases paymentStep s op with
  | same hpayments hpurchases =>
    have hsum := paymentSum_congr hpayments
    have hlength : (Purchasing.step s op).purchases.purchases.length =
        s.purchases.purchases.length := by
      simpa using congrArg List.length hpurchases
    have hrow : ∀ (id : ℕ) row, (Purchasing.step s op).purchases.purchases[id]? = some row →
        ∃ old, s.purchases.purchases[id]? = some old ∧ old.settlement = row.settlement := by
      intro id row hnow
      have hsame := congrArg (·[id]?) hpurchases
      simp only [List.getElem?_map, hnow, Option.map_some] at hsame
      exact Option.map_eq_some_iff.mp hsame.symm
    refine ⟨?_, ?_, ?_, ?_⟩
    · rw [hpayments, hlength]
      exact hs.linked
    · rw [hpayments]
      exact hs.positive
    · intro id row hnow
      obtain ⟨old, hold, hsettlement⟩ := hrow id row hnow
      have hpaid : old.amountPaid = row.amountPaid := congrArg Prod.fst hsettlement
      rw [hsum, hsum, ← hpaid]
      exact hs.paid id old hold
    · intro id row hnow
      obtain ⟨old, hold, hsettlement⟩ := hrow id row hnow
      rw [hsum]
      have hpaid : old.amountPaid = row.amountPaid := congrArg Prod.fst hsettlement
      have htotal : old.total = row.total := congrArg Prod.snd hsettlement
      rw [← hpaid, ← htotal]
      exact hs.capped id old hold
  | ordered h => exact hs.ordered h
  | paid hcheck h => exact hs.paidRows hcheck h
  | changed hcheck h => exact hs.changed hcheck h

lemma paymentsKept_history (ops : List PurchasingOp) : PaymentsKept (Purchasing.history ops) := by
  refine Trace.invariant paymentsKept_step ⟨?_, ?_, ?_, ?_⟩ ops
  · exact fun p hp => (List.not_mem_nil hp).elim
  · exact fun p hp => (List.not_mem_nil hp).elim
  · exact fun id row hrow => nomatch hrow
  · exact fun id row hrow => nomatch hrow

/-! ## What a cheque takes off the payable -/

/-- The supplier a payment goes to. -/
def payee (s : State) (payment : ℕ) : ℕ :=
  (s.purchases.payments[payment]?.map SupplierPayment.supplier).getD 0

/-- What a request took off its payee's payable on account of a payment: the whole change when
the status of the payment is updated, and when it is recorded, what the immediate payments of
the same call do not account for. -/
def chequeReductions (payment : ℕ) (s : State) (op : PurchasingOp) : List ℤ :=
  let t := Purchasing.step s op
  let drop : ℤ := payable s (payee t payment) - payable t (payee t payment)
  let recorded := t.purchases.payments.drop s.purchases.payments.length
  match op with
  | .updateChequeStatus _ updated _ =>
    if updated = payment ∧ drop ≠ 0 then [drop] else []
  | .recordPurchasePayments _ _ _ =>
    let unexplained := drop -
      ((recorded.filter SupplierPayment.isImmediate).map SupplierPayment.amount).sum
    if s.purchases.payments.length ≤ payment ∧ payment < t.purchases.payments.length ∧
      unexplained ≠ 0 then [unexplained] else []
  | _ => []

/-- The amount of a payment, when it is a cleared cheque. -/
def clearedAmount (s : State) (payment : ℕ) : List ℤ :=
  match s.purchases.payments[payment]? with
  | some p => if p.isClearedCheque then [p.amount] else []
  | none => []

lemma clearedAmount_of_some {s : State} {payment : ℕ} {p : SupplierPayment}
    (h : s.purchases.payments[payment]? = some p) :
    clearedAmount s payment = if p.isClearedCheque then [p.amount] else [] := by
  rw [clearedAmount, h]

lemma clearedAmount_of_none {s : State} {payment : ℕ} (h : s.purchases.payments[payment]? = none) :
    clearedAmount s payment = [] := by
  rw [clearedAmount, h]

lemma clearedAmount_congr {s t : State} {payment : ℕ}
    (h : t.purchases.payments[payment]? = s.purchases.payments[payment]?) :
    clearedAmount t payment = clearedAmount s payment := by
  rw [clearedAmount, clearedAmount, h]

lemma sum_immediate_stored {id supplier : ℕ} {payments : List NormalisedPayment}
    {added : List SupplierPayment} (h : List.Forall₂ (PaymentStored id supplier) payments added) :
    ((added.filter SupplierPayment.isImmediate).map SupplierPayment.amount).sum =
      settledTotal payments := by
  unfold settledTotal
  induction h with
  | nil => rfl
  | @cons p row payments added hrow _ ih =>
    rw [List.filter_cons, List.filter_cons, SupplierPayment.isImmediate, hrow.method]
    by_cases hcheque : p.method = .cheque
    · simpa [hcheque] using ih
    · simp [hcheque, ih, hrow.amount]

lemma chequeReductions_paid {c : Call} {id : ℕ} {rows : List PaymentRow} {row : Purchase}
    {payments : List NormalisedPayment} {s : State} (payment : ℕ)
    (hcheck : checkPurchasePayments c id rows s = .ok (row, payments))
    (h : Purchasing.step s (.recordPurchasePayments c id rows) =
      if settledTotal payments = 0 then payments.foldl (addPayment c id row) s else
        settle id row.supplier (settledTotal payments) (payments.foldl (addPayment c id row) s)) :
    chequeReductions payment s (.recordPurchasePayments c id rows) = [] ∧
      clearedAmount (Purchasing.step s (.recordPurchasePayments c id rows)) payment =
        clearedAmount s payment := by
  obtain ⟨-, hsupplier, hrows, -⟩ := checkPurchasePayments_ok hcheck
  obtain ⟨added, hadded, hstored, -, hsuppliers⟩ := tables_paid h
  generalize hstep : Purchasing.step s (.recordPurchasePayments c id rows) = t at *
  have hnew : ∀ p ∈ added, p.supplier = row.supplier ∧ p.isClearedCheque = false := by
    intro p hp
    obtain ⟨x, hx, hrow⟩ := exists_of_forall₂_mem hstored hp
    refine ⟨hrow.supplier, ?_⟩
    rw [SupplierPayment.isClearedCheque, hrow.method, hrow.chequeStatus, (hrows x hx).2]
    by_cases hcheque : x.method = .cheque <;> simp [hcheque]
  constructor
  · have hdrop : t.purchases.payments.drop s.purchases.payments.length = added := by
      rw [hadded, List.drop_left]
    simp only [chequeReductions, hstep, hdrop, sum_immediate_stored hstored]
    refine if_neg ?_
    rintro ⟨hge, hlt, hne⟩
    refine hne ?_
    have hmem : t.purchases.payments[payment] ∈ added := by
      simp only [hadded]
      rw [List.getElem_append_right hge]
      exact List.getElem_mem _
    have hpayee : payee t payment = row.supplier := by
      rw [payee, List.getElem?_eq_getElem hlt]
      exact (hnew _ hmem).1
    have hchange := payable_of_suppliers hsupplier hsuppliers
    rw [hpayee]
    omega
  · rcases Nat.lt_or_ge payment s.purchases.payments.length with hlt | hge
    · refine clearedAmount_congr ?_
      rw [hadded, List.getElem?_append_left hlt]
    · rw [clearedAmount_of_none (List.getElem?_eq_none hge)]
      cases hp : t.purchases.payments[payment]? with
      | none => exact clearedAmount_of_none hp
      | some p =>
        have hmem : p ∈ added := by
          rw [hadded, List.getElem?_append_right hge] at hp
          exact List.mem_of_getElem? hp
        rw [clearedAmount_of_some hp, (hnew p hmem).2]
        rfl

lemma chequeReductions_changed {c : Call} {updated : ℕ} {status : RawChoice ChequeStatus}
    {row : SupplierPayment} {id : ℕ} {new : ChequeStatus} {s : State} (payment : ℕ)
    (hs : PaymentsKept s) (hcheck : checkChequeStatus c updated status s = .ok (row, id, some new))
    (h : Purchasing.step s (.updateChequeStatus c updated status) =
      applyChequeStatus c updated row id new s) :
    clearedAmount (Purchasing.step s (.updateChequeStatus c updated status)) payment =
      clearedAmount s payment ++ chequeReductions payment s (.updateChequeStatus c updated status)
      := by
  obtain ⟨hrow, hcheque, -, hsupplier, hpending, -⟩ := checkChequeStatus_ok hcheck
  obtain ⟨hpayments, -, hsuppliers⟩ := tables_changed h
  simp only [chequeReductions]
  generalize Purchasing.step s (.updateChequeStatus c updated status) = t at *
  have hpositive := hs.positive row (List.mem_of_getElem? hrow)
  by_cases hsame : updated = payment
  · subst hsame
    have hnow : t.purchases.payments[updated]? = some (chequeIn c new row) := by
      rw [hpayments, List.getElem?_modify_eq, hrow]
      rfl
    have hpayee : payee t updated = row.supplier := by
      rw [payee, hnow]
      rfl
    have hchange := payable_of_suppliers hsupplier hsuppliers
    have hdrop : payable s row.supplier - payable t row.supplier =
        if new = .cleared then row.amount else 0 := by omega
    rw [hpayee, hdrop, clearedAmount_of_some hnow, clearedAmount_of_some hrow]
    by_cases hnew : new = .cleared
    · have hne : row.amount ≠ 0 := by omega
      simp [SupplierPayment.isClearedCheque, chequeIn, hcheque, hpending, hnew, hne]
    · simp [SupplierPayment.isClearedCheque, chequeIn, hcheque, hpending, hnew]
  · rw [if_neg fun h => hsame h.1, List.append_nil]
    refine clearedAmount_congr ?_
    rw [hpayments, List.getElem?_modify]
    simp [hsame]

lemma clearedAmount_step (payment : ℕ) (s : State) (op : PurchasingOp) (hs : PaymentsKept s) :
    clearedAmount (Purchasing.step s op) payment =
      clearedAmount s payment ++ chequeReductions payment s op := by
  cases paymentStep s op with
  | same hpayments hpurchases hquiet hquiet' =>
    have hcleared : clearedAmount (Purchasing.step s op) payment = clearedAmount s payment :=
      clearedAmount_congr (by rw [hpayments])
    have hnone : chequeReductions payment s op = [] := by
      cases op with
      | updateChequeStatus c updated status =>
        rcases hquiet with hquiet | hquiet
        · exact absurd rfl (hquiet c updated status)
        · simp [chequeReductions, hquiet]
      | recordPurchasePayments c id rows =>
        rcases hquiet' with hquiet | hquiet
        · exact absurd rfl (hquiet c id rows)
        · simp [chequeReductions, hquiet]
      | _ => rfl
    rw [hcleared, hnone, List.append_nil]
  | ordered h =>
    have hpayments := congrArg (fun x => x.2.2) h.others
    refine (clearedAmount_congr ?_).trans (List.append_nil _).symm
    exact congrArg (·[payment]?) hpayments
  | paid hcheck h =>
    obtain ⟨hnone, hcleared⟩ := chequeReductions_paid payment hcheck h
    rw [hcleared, hnone, List.append_nil]
  | changed hcheck h => exact chequeReductions_changed payment hs hcheck h

/-- **Payments and cheques.**  After any sequence of requests, what is paid on a purchase is the
sum of its immediate payments and its cleared cheques, and with the pending cheques it is at most
the total; and a payment has been taken off the payable by a cheque's clearing exactly once when
it is a cleared cheque, by its amount, and not at all otherwise. -/
theorem cheques_settle_once (ops : List PurchasingOp) :
    (∀ (id : ℕ) row, (Purchasing.history ops).purchases.purchases[id]? = some row →
      row.amountPaid =
        paymentSum (Purchasing.history ops) id SupplierPayment.isImmediate +
          paymentSum (Purchasing.history ops) id SupplierPayment.isClearedCheque ∧
      row.amountPaid + chequesPending (Purchasing.history ops) id ≤ row.total) ∧
    ∀ (payment : ℕ) p, (Purchasing.history ops).purchases.payments[payment]? = some p →
      Trace.collect Purchasing.step (chequeReductions payment) State.empty ops =
        if p.isClearedCheque then [p.amount] else [] := by
  have hkept := paymentsKept_history ops
  refine ⟨fun id row hrow => ⟨hkept.paid id row hrow, hkept.capped id row hrow⟩, ?_⟩
  intro payment p hp
  let counted : State → List ℤ → Prop := fun s xs =>
    PaymentsKept s ∧ clearedAmount s payment = xs
  have hstep : ∀ s op xs, counted s xs →
      counted (Purchasing.step s op) (xs ++ chequeReductions payment s op) := by
    rintro s op xs ⟨hs, rfl⟩
    exact ⟨paymentsKept_step s op hs, clearedAmount_step payment s op hs⟩
  have hrun := Trace.invariant_collect hstep
    (show counted State.empty [] from ⟨paymentsKept_history [], rfl⟩) ops
  have hcleared : clearedAmount (Purchasing.history ops) payment = _ := hrun.2
  rw [List.nil_append, clearedAmount_of_some hp] at hcleared
  exact hcleared.symm

end NexaPos

