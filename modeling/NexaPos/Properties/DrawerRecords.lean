import NexaPos.Properties.SaleRecords
import NexaPos.Properties.SaleAccounts
import NexaPos.Properties.Shifts

/-!
# What the point of sale does to the drawers

The rows behind a drawer are the payments, returns and collections that name its shift.  A sale,
a later payment, a return and a collection may name an open shift only, so the rows of a shift
that is not open stay as they are (`drawerKept_step`).  What can still change is whether the
payments among them count: voiding their sale takes them out (`isLiveSale_step`).
-/

namespace NexaPos

open Tx

/-- The shift is open. -/
def IsOpenShift (s : State) (shift : ℕ) : Prop :=
  ∃ x, s.tenant.shifts[shift]? = some x ∧ x.IsOpen

lemma isOpenShift_of_isOpenShiftAt {c : Call} {s : State} {branch shift : ℕ}
    (h : isOpenShiftAt c s branch shift = true) : IsOpenShift s shift := by
  unfold isOpenShiftAt at h
  obtain ⟨x, hx, hopen⟩ := (Option.any_eq_true _ _).mp h
  simp only [Bool.and_eq_true, decide_eq_true_eq] at hopen
  exact ⟨x, hx, hopen.2⟩

/-- A shift that is named and checked to be open is none that is not. -/
lemma ne_some_of_all {s : State} {shift : ℕ} {named : Option ℕ} {p : ℕ → Bool}
    (h : named.all p = true) (hp : ∀ k, p k = true → IsOpenShift s k)
    (hclosed : ¬ IsOpenShift s shift) : named ≠ some shift := by
  rintro rfl
  exact hclosed (hp shift h)

/-! ## The rows of a shift -/

/-- The rows of a table that name a shift. -/
def rowsOfShift {α : Type} (g : α → Option ℕ) (rows : List α) (shift : ℕ) : List α :=
  rows.filter fun x => g x = some shift

lemma rowsOfShift_append {α : Type} {g : α → Option ℕ} {rows new : List α} {shift : ℕ}
    (h : ∀ x ∈ new, g x ≠ some shift) :
    rowsOfShift g (rows ++ new) shift = rowsOfShift g rows shift := by
  unfold rowsOfShift
  have hnone : new.filter (fun x => g x = some shift) = [] := by
    rw [List.filter_eq_nil_iff]
    exact fun x hx => by simpa using h x hx
  rw [List.filter_append, hnone, List.append_nil]

/-- The rows of a shift are as they were, and every method is of the kind it was. -/
structure DrawerKept (shift : ℕ) (s t : State) : Prop where
  payments : rowsOfShift SalePayment.shift t.sales.payments shift =
    rowsOfShift SalePayment.shift s.sales.payments shift
  returns : shiftReturns t shift = shiftReturns s shift
  collections : rowsOfShift CustomerPayment.shift t.parties.customerPayments shift =
    rowsOfShift CustomerPayment.shift s.parties.customerPayments shift
  methods : ∀ m < s.sales.paymentMethods.length, isCashMethod t m = isCashMethod s m

lemma isCashMethod_eq (s : State) (m : ℕ) :
    isCashMethod s m =
      decide ((s.sales.paymentMethods[m]?).map PaymentMethod.kind = some .cash) := by
  unfold isCashMethod
  cases s.sales.paymentMethods[m]? <;> simp

/-! ## Collections -/

/-- A request adds a collection that was checked, or none. -/
lemma customerPayments_step (s : State) (op : Op) :
    (step s op).parties.customerPayments = s.parties.customerPayments ∨
      ∃ c r receipt, checkCollection c r s = .ok receipt ∧
        (step s op).parties.customerPayments = s.parties.customerPayments ++ [receipt] := by
  have hframe : (∀ comp ∈ op.footprint, comp ≠ .parties ∧ comp ≠ .collections) →
      (step s op).parties.customerPayments = s.parties.customerPayments := by
    intro hop
    refine step_within (R := Frame fun s => s.parties.customerPayments) op ?_ s
    intro comp hcomp s t hchange
    obtain ⟨hparties, hcollections⟩ := hop comp hcomp
    cases comp with
    | parties => exact absurd rfl hparties
    | collections => exact absurd rfl hcollections
    | movements type =>
      obtain ⟨m, u, -, hrun⟩ := hchange
      have hrest := within_rest_recordMovement m hrun
      exact congrArg (fun r => r.2.2.1.customerPayments) hrest
    | transfers => obtain ⟨x, y, rfl⟩ := hchange; rfl
    | adjustments => obtain ⟨x, y, rfl⟩ := hchange; rfl
    | counts => obtain ⟨x, y, rfl⟩ := hchange; rfl
    | accounts => obtain ⟨x, f, rfl⟩ := hchange; rfl
    | levels => obtain ⟨k, -, rfl⟩ := hchange; rfl
    | _ => obtain ⟨x, rfl⟩ := hchange; rfl
  by_cases haccepted : op.Accepted s
  · cases op with
    | saveMasterData m => exact .inl (by cases m <;> rfl)
    | recordCustomerPayment c r =>
      obtain ⟨receipt, hcheck, ht⟩ := runs_recordCustomerPayment haccepted.runs
      exact .inr ⟨c, r, receipt, hcheck, by rw [ht]; rfl⟩
    | _ => exact .inl (hframe (by simp [Op.footprint]))
  · exact .inl (by rw [step_of_not_accepted haccepted])

/-- A collection is taken with a known method, at an open shift if at any. -/
lemma checkCollection_drawer {c : Call} {r : CollectionRequest} {s : State}
    {receipt : CustomerPayment} (h : checkCollection c r s = .ok receipt) :
    receipt.paymentMethod < s.sales.paymentMethods.length ∧
      ∀ shift, ¬ IsOpenShift s shift → receipt.shift ≠ some shift := by
  unfold checkCollection at h
  simp only [except_bind_eq_ok, found_eq_ok, require_eq_ok, pure, Except.pure,
    Except.ok.injEq] at h
  obtain ⟨-, -, customer, -, method, hmethod, -, -, -, -, -, -, -, hshift, -, -, -, -, rfl⟩ := h
  refine ⟨(List.getElem?_eq_some_iff.mp hmethod).1, fun shift hclosed => ?_⟩
  refine ne_some_of_all hshift (fun k hk => ?_) hclosed
  obtain ⟨branch, -, hopen⟩ := (Option.any_eq_true _ _).mp hk
  rw [Bool.and_eq_true] at hopen
  exact isOpenShift_of_isOpenShiftAt hopen.1

/-! ## The shifts that sales name -/

lemma SaleMade.shift_open {c : Call} {r : CheckoutRequest} {s t : State} {id : ℕ}
    {p : PreparedSale} {number : Text} {items : List SaleItem}
    (h : SaleMade c r s t id p number items) {shift : ℕ} (hclosed : ¬ IsOpenShift s shift) :
    r.shift ≠ some shift := by
  obtain ⟨customer, hcontext, -⟩ := h.prepared
  unfold checkoutContext validateSaleContext at hcontext
  simp only [except_bind_eq_ok, found_eq_ok, require_eq_ok, pure, Except.pure,
    Except.ok.injEq] at hcontext
  obtain ⟨-, -, branch, -, -, -, warehouse, -, customer', -, -, -, -, -, -, -, -, hvalid, -⟩ :=
    hcontext
  obtain ⟨-, -, -, -, -, -, -, -, -, -, -, -, -, -, hshift⟩ := hvalid
  refine ne_some_of_all hshift (fun k hk => ?_) hclosed
  rw [Bool.and_eq_true] at hk
  exact isOpenShift_of_isOpenShiftAt hk.1

lemma checkSalePayment_drawer {c : Call} {r : SalePaymentRequest} {s : State} {sale : Sale}
    {amount : ℤ} (h : checkSalePayment c r s = .ok (sale, amount)) {shift : ℕ}
    (hclosed : ¬ IsOpenShift s shift) : r.shift ≠ some shift := by
  unfold checkSalePayment at h
  simp only [except_bind_eq_ok, found_eq_ok, require_eq_ok, pure, Except.pure,
    Except.ok.injEq] at h
  obtain ⟨sale', -, -, -, method, -, -, -, -, -, -, -, -, -, -, -, -, -, -, -, -, hshift, -⟩ := h
  exact ne_some_of_all hshift (fun k => isOpenShift_of_isOpenShiftAt) hclosed

lemma checkReturn_drawer {c : Call} {r : ReturnRequest} {s : State} {sale : Sale}
    (h : checkReturn c r s = .ok sale) {shift : ℕ} (hclosed : ¬ IsOpenShift s shift) :
    r.shift ≠ some shift := by
  unfold checkReturn at h
  simp only [except_bind_eq_ok, require_eq_ok, pure, Except.pure, Except.ok.injEq] at h
  obtain ⟨sale', -, -, -, -, -, -, -, -, -, -, hshift, -⟩ := h
  exact ne_some_of_all hshift (fun k => isOpenShift_of_isOpenShiftAt) hclosed

/-- A request leaves the rows of a shift alone that is not open. -/
theorem drawerKept_step (s : State) (op : Op) {shift : ℕ} (hclosed : ¬ IsOpenShift s shift) :
    DrawerKept shift s (step s op) := by
  have hcollections : rowsOfShift CustomerPayment.shift (step s op).parties.customerPayments shift =
      rowsOfShift CustomerPayment.shift s.parties.customerPayments shift := by
    rcases customerPayments_step s op with hsame | ⟨c, r, receipt, hcheck, hadded⟩
    · rw [hsame]
    · rw [hadded]
      refine rowsOfShift_append fun x hx => ?_
      rw [List.mem_singleton.mp hx]
      exact (checkCollection_drawer hcheck).2 shift hclosed
  have hsales : ∀ payments returns, (∀ x ∈ payments, x.shift ≠ some shift) →
      (∀ x ∈ returns, x.shift ≠ some shift) →
      (step s op).sales.payments = s.sales.payments ++ payments →
      (step s op).sales.returns = s.sales.returns ++ returns →
      (step s op).sales.paymentMethods = s.sales.paymentMethods →
      DrawerKept shift s (step s op) := by
    intro payments returns hp hr hpayments hreturns hmethods
    refine ⟨?_, ?_, hcollections, fun m _ => by rw [isCashMethod, isCashMethod, hmethods]⟩
    · rw [hpayments]
      exact rowsOfShift_append hp
    · unfold shiftReturns
      rw [hreturns]
      exact rowsOfShift_append (g := SaleReturn.shift) hr
  have hnone : ∀ {α : Type} {g : α → Option ℕ}, ∀ x ∈ ([] : List α), g x ≠ some shift := by
    intro α g x hx
    exact absurd hx List.not_mem_nil
  cases salesStep s op with
  | same h =>
    exact hsales [] [] hnone hnone (by rw [h, List.append_nil]) (by rw [h, List.append_nil])
      (by rw [h])
  | @method pk row h =>
    refine ⟨by rw [h]; rfl, by rw [h]; rfl, hcollections, fun m hm => ?_⟩
    have hkind := (sameAccount_method 0 pk row s).kinds {
      sale := 0, method := m, amount := 0, paymentDate := 0, receivedBy := 0, shift := none } hm
    unfold paymentKind at hkind
    rw [isCashMethod_eq, isCashMethod_eq, h, hkind]
  | @made c r id p number items h =>
    obtain ⟨totalCost, sequences, htables⟩ := h.sales
    refine hsales ((storedTenders p.change p.payments).map (paymentRow c r id)) []
      ?_ hnone ?_ ?_ ?_
    · intro x hx
      obtain ⟨e, -, rfl⟩ := List.mem_map.mp hx
      exact h.shift_open hclosed
    · rw [htables]
    · rw [htables, List.append_nil]
    · rw [htables]
  | @paid c r h =>
    obtain ⟨sale, amount, hcheck, ht⟩ := runs_addSalePayment h
    refine hsales [{
      sale := r.sale, method := r.method, amount := amount
      paymentDate := r.paymentDate.getD c.today, receivedBy := c.actor.user, shift := r.shift }] []
      ?_ hnone ?_ ?_ ?_
    · intro x hx
      rw [List.mem_singleton.mp hx]
      exact checkSalePayment_drawer hcheck hclosed
    · rw [ht]
      rfl
    · rw [ht, List.append_nil]
      rfl
    · rw [ht]
      rfl
  | @voided c id h =>
    obtain ⟨sale, amounts, rows, u, -, -, hmoved, ht⟩ := runs_voidSale h
    have htables := sales_applyVoid c id sale amounts u
    rw [sales_of_rest hmoved.rest, ← ht] at htables
    refine hsales [] [] hnone hnone ?_ ?_ ?_ <;> rw [htables]
    · exact (List.append_nil _).symm
    · exact (List.append_nil _).symm
  | @returned c r h =>
    obtain ⟨sale, p, u, hcheck, -, -, htables⟩ := processReturn_sales h
    refine hsales [] [{ saleReturnRow c r sale s with refundAmount := p.refundTotal }]
      hnone ?_ ?_ ?_ ?_
    · intro x hx
      rw [List.mem_singleton.mp hx]
      exact checkReturn_drawer hcheck hclosed
    · rw [htables, List.append_nil]
    · rw [htables]
    · rw [htables]

/-! ## Which payments count -/

/-- The request is accepted and voids the sale. -/
def Op.Voids (op : Op) (s : State) (sale : ℕ) : Prop :=
  ∃ c, op = .voidSale c sale ∧ op.Accepted s

/-- A sale that is neither a draft nor void. -/
def Sale.IsLive (x : Sale) : Prop := x.status ≠ .draft ∧ x.status ≠ .voided

lemma isLiveSale_eq_true {s : State} {id : ℕ} :
    isLiveSale s id = true ↔ ∃ x, s.sales.sales[id]? = some x ∧ x.IsLive := by
  unfold isLiveSale Sale.IsLive
  rw [Option.any_eq_true]
  simp only [ne_eq, decide_not, Bool.and_eq_true, Bool.not_eq_true', decide_eq_false_iff_not]

/-- Rewriting a sale that stays live, or does not become it. -/
lemma isLiveSale_modify {s t : State} {id : ℕ} (pk : ℕ) (f : Sale → Sale) (new : List Sale)
    (h : t.sales.sales = s.sales.sales.modify pk f ++ new)
    (hf : ∀ x, s.sales.sales[pk]? = some x → ((f x).IsLive ↔ x.IsLive))
    (hid : id < s.sales.sales.length) : isLiveSale t id = isLiveSale s id := by
  rw [Bool.eq_iff_iff, isLiveSale_eq_true, isLiveSale_eq_true, h,
    List.getElem?_append_left (by rwa [List.length_modify])]
  simp only [getElem?_modify_eq_some]
  constructor
  · rintro ⟨_, ⟨x, hx, rfl⟩, hlive⟩
    refine ⟨x, hx, ?_⟩
    split at hlive
    · rename_i hpk
      subst hpk
      exact (hf x hx).mp hlive
    · exact hlive
  · rintro ⟨x, hx, hlive⟩
    refine ⟨_, ⟨x, hx, rfl⟩, ?_⟩
    split
    · rename_i hpk
      subst hpk
      exact (hf x hx).mpr hlive
    · exact hlive

/-- No sale of a history is a draft. -/
def NoDrafts (s : State) : Prop := ∀ x ∈ s.sales.sales, x.status ≠ .draft

lemma paidSale_live (s : State) (id : ℕ) (amount : ℤ) (x : Sale) :
    (paidSale s id amount x).IsLive ↔ x.IsLive := by
  have hstatus : (paidSale s id amount x).status = x.status ∨
      (x.IsLive ∧ (paidSale s id amount x).IsLive) := by
    unfold paidSale Sale.IsLive
    dsimp only
    split
    · rename_i hcredit
      refine .inr ⟨?_, ?_⟩
      · rcases hcredit with h | h <;> simp [h]
      · dsimp only
        split <;> simp
    · exact .inl rfl
  rcases hstatus with hsame | ⟨hx, hpaid⟩
  · unfold Sale.IsLive
    rw [hsame]
  · exact iff_of_true hpaid hx

lemma returnStatus_live (s : State) (id : ℕ) :
    returnStatus s id ≠ .draft ∧ returnStatus s id ≠ .voided := by
  unfold returnStatus
  dsimp only
  split <;> simp

/-- Only a void takes the payments of a sale out of the count. -/
lemma isLiveSale_step {s : State} {op : Op} (hdrafts : NoDrafts s) {id : ℕ}
    (hid : id < s.sales.sales.length) (hop : ¬ op.Voids s id) :
    isLiveSale (step s op) id = isLiveSale s id := by
  have hsame : ∀ {new}, (step s op).sales.sales = s.sales.sales ++ new →
      isLiveSale (step s op) id = isLiveSale s id := by
    intro new hnew
    refine isLiveSale_modify id (fun x => x) new ?_ (fun _ _ => Iff.rfl) hid
    rw [hnew]
    congr 1
    exact (List.modify_id id s.sales.sales).symm
  cases hstep : salesStep s op with
  | same h => exact hsame (by rw [h, List.append_nil])
  | method h => exact hsame (by rw [h]; exact (List.append_nil _).symm)
  | made h =>
    obtain ⟨totalCost, sequences, htables⟩ := h.sales
    exact hsame (by rw [htables])
  | @paid c r h =>
    obtain ⟨sale, payment, -, -, -, -, -, -, u, htables⟩ := addSalePayment_sales h
    refine isLiveSale_modify r.sale (paidSale u r.sale payment.amount) [] ?_
      (fun x _ => paidSale_live u r.sale payment.amount x) hid
    rw [htables, List.append_nil]
  | @voided c sale h =>
    have hne : sale ≠ id := by
      rintro rfl
      refine hop ⟨c, rfl, ?_⟩
      have hrun : (Op.voidSale c sale).service.run s = .ok (⟨⟩, _) := h
      rw [Op.Accepted, hrun]
      rfl
    obtain ⟨row, amounts, rows, u, -, -, hmoved, ht⟩ := runs_voidSale h
    have htables := sales_applyVoid c sale row amounts u
    rw [sales_of_rest hmoved.rest, ← ht] at htables
    rw [isLiveSale, isLiveSale, htables]
    dsimp only
    rw [List.getElem?_modify_ne _ _ hne]
  | @returned c r h =>
    obtain ⟨sale, p, u, hcheck, -, -, htables⟩ := processReturn_sales h
    obtain ⟨hsale, hnot, -⟩ := checkReturn_ok hcheck
    refine isLiveSale_modify r.sale ({ · with status := returnStatus u r.sale }) [] ?_
      (fun x hx => ?_) hid
    · rw [htables, List.append_nil]
    · rw [hsale] at hx
      obtain rfl := Option.some.inj hx
      have hlive : sale.IsLive := ⟨hdrafts sale (List.mem_of_getElem? hsale), hnot⟩
      exact iff_of_true (returnStatus_live u r.sale) hlive

/-- An accepted void is of a live sale. -/
lemma isLiveSale_of_voids {s : State} {op : Op} (hdrafts : NoDrafts s) {id : ℕ}
    (hop : op.Voids s id) : isLiveSale s id = true ∧ isLiveSale (step s op) id = false := by
  obtain ⟨c, rfl, haccepted⟩ := hop
  obtain ⟨sale, amounts, rows, u, hcheck, -, hmoved, ht⟩ := runs_voidSale haccepted.runs
  obtain ⟨hsale, hnot, -, -⟩ := checkVoid_ok hcheck
  refine ⟨isLiveSale_eq_true.mpr ⟨sale, hsale, hdrafts sale (List.mem_of_getElem? hsale), hnot⟩, ?_⟩
  have htables := sales_applyVoid c id sale amounts u
  rw [sales_of_rest hmoved.rest, ← ht] at htables
  rw [isLiveSale, htables]
  dsimp only
  rw [List.getElem?_modify_eq, hsale]
  simp

/-! ## Sound records -/

/-- Every row names rows that exist, payments are positive, and no sale is a draft. -/
structure Filed (s : State) : Prop where
  linked : Linked s
  noDrafts : NoDrafts s
  payment : ∀ x ∈ s.sales.payments, x.method < s.sales.paymentMethods.length ∧ 0 < x.amount
  collection : ∀ x ∈ s.parties.customerPayments,
    x.paymentMethod < s.sales.paymentMethods.length

lemma filed_empty : Filed State.empty where
  linked := linked_history []
  noDrafts _ hx := absurd hx List.not_mem_nil
  payment _ hx := absurd hx List.not_mem_nil
  collection _ hx := absurd hx List.not_mem_nil

lemma methods_le_step (s : State) (op : Op) :
    s.sales.paymentMethods.length ≤ (step s op).sales.paymentMethods.length := by
  cases salesStep s op with
  | same h => rw [h]
  | @method pk row h =>
    rw [h]
    exact (sameAccount_method 0 pk row s).methods
  | made h =>
    obtain ⟨totalCost, sequences, htables⟩ := h.sales
    rw [htables]
  | paid h =>
    obtain ⟨sale, amount, -, ht⟩ := runs_addSalePayment h
    rw [ht]
    exact Nat.le_refl _
  | @voided c id h =>
    obtain ⟨sale, amounts, rows, u, -, -, hmoved, ht⟩ := runs_voidSale h
    rw [ht, sales_applyVoid, sales_of_rest hmoved.rest]
  | returned h =>
    obtain ⟨sale, p, u, -, -, -, htables⟩ := processReturn_sales h
    rw [htables]

lemma noDrafts_step {s : State} (op : Op) (hs : NoDrafts s) : NoDrafts (step s op) := by
  have hmodify : ∀ {pk : ℕ} {f : Sale → Sale}, (∀ x, x.status ≠ .draft → (f x).status ≠ .draft) →
      (step s op).sales.sales = s.sales.sales.modify pk f → NoDrafts (step s op) := by
    intro pk f hf hmodify y hy
    rw [hmodify] at hy
    obtain ⟨j, hj⟩ := List.mem_iff_getElem?.mp hy
    obtain ⟨x, hx, rfl⟩ := getElem?_modify_eq_some.mp hj
    have hold := hs x (List.mem_of_getElem? hx)
    split
    · exact hf x hold
    · exact hold
  have hsame : (step s op).sales.sales = s.sales.sales → NoDrafts (step s op) := by
    intro hsame
    unfold NoDrafts
    rwa [hsame]
  cases salesStep s op with
  | same h => exact hsame (by rw [h])
  | method h => exact hsame (by rw [h]; rfl)
  | @made c r id p number items h =>
    obtain ⟨totalCost, sequences, htables⟩ := h.sales
    intro x hx
    rw [htables] at hx
    rcases List.mem_append.mp hx with hx | hx
    · exact hs x hx
    · rw [List.mem_singleton.mp hx]
      unfold settledSale creditStatus saleRow
      dsimp only
      split
      · split <;> simp
      · simp
  | @paid c r h =>
    obtain ⟨sale, payment, -, -, -, -, -, -, u, htables⟩ := addSalePayment_sales h
    refine hmodify (fun x hx => ?_) (congrArg SalesTables.sales htables)
    unfold paidSale
    dsimp only
    split
    · dsimp only
      split <;> simp
    · exact hx
  | @voided c id h =>
    obtain ⟨sale, amounts, rows, u, -, -, hmoved, ht⟩ := runs_voidSale h
    have htables := sales_applyVoid c id sale amounts u
    rw [sales_of_rest hmoved.rest, ← ht] at htables
    exact hmodify (fun x _ => by simp) (congrArg SalesTables.sales htables)
  | @returned c r h =>
    obtain ⟨sale, p, u, -, -, -, htables⟩ := processReturn_sales h
    exact hmodify (fun x _ => (returnStatus_live u r.sale).1) (congrArg SalesTables.sales htables)

/-- The rows a completed sale pays with. -/
lemma SaleMade.payment_filed {c : Call} {r : CheckoutRequest} {s t : State} {id : ℕ}
    {p : PreparedSale} {number : Text} {items : List SaleItem}
    (h : SaleMade c r s t id p number items) {e : CleanPayment × ℤ}
    (he : e ∈ storedTenders p.change p.payments) :
    (paymentRow c r id e).method < t.sales.paymentMethods.length ∧
      0 < (paymentRow c r id e).amount := by
  refine ⟨?_, (storedTenders_pos he).1⟩
  have hkind := h.paymentKind_eq he
  unfold paymentKind at hkind
  obtain ⟨method, hmethod, -⟩ := Option.map_eq_some_iff.mp hkind
  exact (List.getElem?_eq_some_iff.mp hmethod).1

lemma filed_step {s : State} (op : Op) (hs : Filed s) : Filed (step s op) := by
  have hmethods := methods_le_step s op
  have hpayments : ∀ {rows}, (step s op).sales.payments = s.sales.payments ++ rows →
      (∀ x ∈ rows, x.method < (step s op).sales.paymentMethods.length ∧ 0 < x.amount) →
      ∀ x ∈ (step s op).sales.payments,
        x.method < (step s op).sales.paymentMethods.length ∧ 0 < x.amount := by
    intro rows hrows hnew x hx
    rw [hrows] at hx
    rcases List.mem_append.mp hx with hx | hx
    · obtain ⟨hmethod, hpos⟩ := hs.payment x hx
      exact ⟨hmethod.trans_le hmethods, hpos⟩
    · exact hnew x hx
  have hsame : (step s op).sales.payments = s.sales.payments →
      ∀ x ∈ (step s op).sales.payments,
        x.method < (step s op).sales.paymentMethods.length ∧ 0 < x.amount := by
    intro hsame
    exact hpayments (by rw [hsame, List.append_nil]) fun x hx => absurd hx List.not_mem_nil
  refine {
    linked := linked_step s op hs.linked
    noDrafts := noDrafts_step op hs.noDrafts
    payment := ?_
    collection := fun x hx => ?_ }
  · cases salesStep s op with
    | same h => exact hsame (by rw [h])
    | method h => exact hsame (by rw [h]; rfl)
    | made h =>
      obtain ⟨totalCost, sequences, htables⟩ := h.sales
      refine hpayments (by rw [htables]) fun x hx => ?_
      obtain ⟨e, he, rfl⟩ := List.mem_map.mp hx
      exact h.payment_filed he
    | paid h =>
      obtain ⟨sale, payment, -, -, -, hpos, -, ⟨method, hmethod, -⟩, u, htables⟩ :=
        addSalePayment_sales h
      refine hpayments (by rw [htables]) fun x hx => ?_
      rw [List.mem_singleton.mp hx]
      exact ⟨(List.getElem?_eq_some_iff.mp hmethod).1.trans_le hmethods, hpos⟩
    | @voided c id h =>
      obtain ⟨sale, amounts, rows, u, -, -, hmoved, ht⟩ := runs_voidSale h
      exact hsame (by rw [ht, sales_applyVoid, sales_of_rest hmoved.rest])
    | returned h =>
      obtain ⟨sale, p, u, -, -, -, htables⟩ := processReturn_sales h
      exact hsame (by rw [htables])
  · rcases customerPayments_step s op with hsame | ⟨c, r, receipt, hcheck, hadded⟩
    · rw [hsame] at hx
      exact (hs.collection x hx).trans_le hmethods
    · rw [hadded] at hx
      rcases List.mem_append.mp hx with hx | hx
      · exact (hs.collection x hx).trans_le hmethods
      · rw [List.mem_singleton.mp hx]
        exact (checkCollection_drawer hcheck).1.trans_le hmethods

end NexaPos
