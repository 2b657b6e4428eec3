import NexaPos.Properties.Receivables
import NexaPos.Properties.SaleAccounts
import NexaPos.Properties.StockLedger

/-!
# Voiding a sale

A void recomputes what it puts back from the stored lines, and asks the product as it is now
whether a line without fabric is kept in stock.  The line itself knows: it has a stock warehouse
exactly when the sale deducted it.  So the void undoes the sale's stock rows exactly when, for
these lines, the product is kept in stock now if and only if it was when it was sold
(`void_undoes_iff`).  Receivable and store credit are restored in every case, and a voided sale
is never voided again.
-/

namespace NexaPos

open Tx

/-! ## Stock rows of a line -/

/-- What some ledger rows move for one sale line under one key. -/
def linePosted (rows : List StockMovement) (line : ℕ) (k : StockKey) : ℤ :=
  ((rows.filter fun row => row.saleItem = some line ∧ row.key = k).map
    StockMovement.quantity).sum

/-- What one posting moves under a key. -/
def Posting.at (x : Posting) (k : StockKey) : ℤ := if x.key = k then x.quantity else 0

/-- A line that has at most one posting among the rows. -/
lemma linePosted_eq {rows : List StockMovement} {line : ℕ} {posting : Option Posting}
    (h : (rows.map StockMovement.posting).filter (fun x => x.saleItem = some line) =
      posting.toList) (k : StockKey) :
    linePosted rows line k = posting.elim 0 fun x => x.at k := by
  have hfilter : (rows.filter fun row => row.saleItem = some line ∧ row.key = k).map
      StockMovement.quantity =
      (posting.toList.filter fun x => x.key = k).map Posting.quantity := by
    rw [← h, List.filter_filter, List.filter_map, List.map_map]
    refine congrArg (List.map StockMovement.quantity) (List.filter_congr fun row _ => ?_)
    by_cases hline : row.saleItem = some line <;> by_cases hkey : row.key = k <;>
      simp [StockMovement.posting, hline, hkey]
  unfold linePosted
  rw [hfilter]
  cases posting with
  | none => rfl
  | some x =>
    unfold Posting.at
    by_cases hk : x.key = k <;> simp [hk]

/-- What a completed sale deducted for its lines. -/
lemma SaleMade.linePosted_eq {c : Call} {r : CheckoutRequest} {s t : State} {id : ℕ}
    {p : PreparedSale} {number : Text} {items : List SaleItem}
    (h : SaleMade c r s t id p number items) (line : ℕ) (k : StockKey) :
    linePosted (movementsSince s t) line k =
      (if s.sales.items.length ≤ line then
        (items[line - s.sales.items.length]?).bind fun item => deductionOf number (item, line)
      else none).elim 0 fun x => x.at k := by
  obtain ⟨rows, hrows, hpostings⟩ := h.movements
  rw [movementsSince_of_append hrows]
  refine NexaPos.linePosted_eq ?_ k
  have hlabel : ∀ e, ∀ x ∈ deductionOf number e, Posting.saleItem x = some e.2 := by
    intro e x hx
    obtain ⟨warehouse, -, rfl⟩ := Option.map_eq_some_iff.mp hx
    rfl
  rw [hpostings, filter_filterMap_zipIdx hlabel]
  split <;> rfl

/-- What a void puts back for the lines of its sale. -/
lemma voidSale_linePosted {c : Call} {id : ℕ} {s t : State} {x : Unit}
    (h : Runs (voidSale c id) s x t) :
    ∃ sale, s.sales.sales[id]? = some sale ∧
      (∀ line k, linePosted (movementsSince s t) line k =
        ((s.sales.items[line]?).bind fun item => if item.sale = id then
          (voidMovement c s sale (line, item)).map Movement.posting else none).elim 0
            fun x => x.at k) ∧
      ∀ e ∈ itemsOfSale s id, isRestockable s e.2 = true → e.2.inventoryQuantity ≠ 0 := by
  obtain ⟨sale, amounts, rows, u, hcheck, hrows, hmoved, ht⟩ := runs_voidSale h
  obtain ⟨hsale, -⟩ := checkVoid_ok hcheck
  have hmovements : t.stock.movements = s.stock.movements ++ rows := by
    have hstock : t.stock = u.stock := by
      rw [ht]
      unfold applyVoid
      dsimp only
      split <;> split <;> rfl
    rw [hstock]
    exact hmoved.movements
  refine ⟨sale, hsale, fun line k => ?_, fun e he hrestock => ?_⟩
  · rw [movementsSince_of_append hmovements]
    refine linePosted_eq ?_ k
    rw [postings_eq hrows, List.map_filterMap]
    refine filter_filterMap_childrenOf ?_ _ _ _ _
    intro e x hx
    obtain ⟨m, hm, rfl⟩ := Option.map_eq_some_iff.mp hx
    unfold voidMovement at hm
    split at hm
    · obtain rfl := Option.some.inj hm
      rfl
    · exact nomatch hm
  · have hmovement : restockMovement c sale e.1 e.2 (dec e.2.inventoryQuantity)
        (.void sale.invoiceNumber) ∈ (itemsOfSale s id).filterMap (voidMovement c s sale) :=
      List.mem_filterMap.mpr ⟨e, he, if_pos hrestock⟩
    obtain ⟨row, -, hrow⟩ := exists_of_forall₂_mem hrows.flip hmovement
    have hquantity : row.quantity = e.2.inventoryQuantity :=
      hrow.quantity.trans (qty_dec e.2.inventoryQuantity)
    rw [← hquantity]
    exact hrow.quantity_ne_zero

/-! ## The condition -/

/-- A line that is neither of the customer's fabric nor cut by the metre is of a product that is
kept in stock if and only if the line was deducted. -/
def StockedAsSold (s : State) (id : ℕ) : Prop :=
  ∀ e ∈ itemsOfSale s id, e.2.customerSuppliedFabric = false → e.2.fabricMeterUsed = none →
    isStockedProduct s e.2.product = e.2.stockWarehouse.isSome

instance (s : State) (id : ℕ) : Decidable (StockedAsSold s id) :=
  inferInstanceAs (Decidable (∀ _ ∈ _, _))

/-- A void puts back every line exactly if each is put back exactly when it was deducted. -/
lemma stockedAsSold_iff {s : State} (hs : (salesView s).Recorded) (id : ℕ) :
    StockedAsSold s id ↔ ∀ (line : ℕ) item, s.sales.items[line]? = some item → item.sale = id →
      isRestockable s item = item.stockWarehouse.isSome := by
  have hline : ∀ {line : ℕ} {item : SaleItem}, s.sales.items[line]? = some item →
      (isRestockable s item = item.stockWarehouse.isSome ↔
        (item.customerSuppliedFabric = false → item.fabricMeterUsed = none →
          isStockedProduct s item.product = item.stockWarehouse.isSome)) := by
    intro line item hitem
    have hrecorded := hs.lineRecorded hitem
    unfold isRestockable
    cases hfabric : item.customerSuppliedFabric with
    | true => simp [hrecorded.customerFabric hfabric]
    | false =>
      cases hmeter : item.fabricMeterUsed with
      | some m => simp [(hrecorded.meter (by rw [hmeter]; rfl)).1]
      | none => simp
  constructor
  · intro h line item hitem hsale
    refine (hline hitem).mpr ?_
    exact h (line, item) (mem_childrenOf.mpr ⟨hitem, hsale⟩)
  · rintro h ⟨line, item⟩ hmem
    obtain ⟨hitem, hsale⟩ := mem_childrenOf.mp hmem
    exact (hline hitem).mp (h line item hitem hsale)

/-! ## A voided sale stays void -/

/-- The sale is void. -/
def IsVoid (id : ℕ) (s : State) : Prop :=
  ∃ sale, s.sales.sales[id]? = some sale ∧ sale.status = .voided

/-- Rewriting other sales, or this one into a void one. -/
lemma IsVoid.of_modify {id pk : ℕ} {s t : State} {f : Sale → Sale} (hs : IsVoid id s)
    (h : t.sales.sales = s.sales.sales.modify pk f)
    (hf : ∀ x, pk = id → x.status = .voided → s.sales.sales[id]? = some x →
      (f x).status = .voided) : IsVoid id t := by
  obtain ⟨sale, hsale, hvoid⟩ := hs
  refine ⟨if pk = id then f sale else sale, ?_, ?_⟩
  · rw [h]
    exact getElem?_modify_eq_some.mpr ⟨sale, hsale, rfl⟩
  · split
    · rename_i hpk
      exact hf sale hpk hvoid hsale
    · exact hvoid

lemma isVoid_step (id : ℕ) (s : State) (op : Op) (hs : IsVoid id s) : IsVoid id (step s op) := by
  cases salesStep s op with
  | same h =>
    unfold IsVoid
    rw [h]
    exact hs
  | method h =>
    rw [h]
    exact hs
  | made h =>
    obtain ⟨totalCost, sequences, hsales⟩ := h.sales
    obtain ⟨sale, hsale, hvoid⟩ := hs
    refine ⟨sale, ?_, hvoid⟩
    rw [hsales]
    exact getElem?_of_prefix (List.prefix_append _ _) hsale
  | @paid c r h =>
    obtain ⟨sale, amount, hcheck, ht⟩ := runs_addSalePayment h
    obtain ⟨hsale, -, -, hnot, -⟩ := checkSalePayment_ok hcheck
    refine hs.of_modify (congrArg (fun s => s.sales.sales) ht) fun x hid hvoid hx => ?_
    -- a void sale takes no payment
    subst hid
    rw [hx] at hsale
    obtain rfl := Option.some.inj hsale
    exact absurd hvoid hnot
  | @voided c pk h =>
    obtain ⟨sale, amounts, rows, u, -, -, hmoved, ht⟩ := runs_voidSale h
    have hsales := sales_applyVoid c pk sale amounts u
    rw [sales_of_rest hmoved.rest, ← ht] at hsales
    exact hs.of_modify (congrArg SalesTables.sales hsales) fun x _ _ _ => rfl
  | @returned c r h =>
    obtain ⟨sale, p, u, hcheck, -, -, hsales⟩ := processReturn_sales h
    obtain ⟨hsale, hnot, -⟩ := checkReturn_ok hcheck
    refine hs.of_modify (congrArg SalesTables.sales hsales) fun x hid hvoid hx => ?_
    -- nor does it take anything back
    subst hid
    rw [hx] at hsale
    obtain rfl := Option.some.inj hsale
    exact absurd hvoid hnot

/-- A void sale is not voided again. -/
lemma IsVoid.not_accepted {id : ℕ} {s : State} (hs : IsVoid id s) (c : Call) :
    ¬ (Op.voidSale c id).Accepted s := by
  intro haccepted
  obtain ⟨sale, amounts, rows, u, hcheck, -⟩ := runs_voidSale haccepted.runs
  obtain ⟨hsale, hnot, -⟩ := checkVoid_ok hcheck
  obtain ⟨sale', hsale', hvoid⟩ := hs
  rw [hsale] at hsale'
  obtain rfl := Option.some.inj hsale'
  exact hnot hvoid

/-- A void leaves the sale void. -/
lemma isVoid_of_voidSale {c : Call} {id : ℕ} {s t : State} {x : Unit}
    (h : Runs (voidSale c id) s x t) : IsVoid id t := by
  obtain ⟨sale, amounts, rows, u, hcheck, -, hmoved, ht⟩ := runs_voidSale h
  obtain ⟨hsale, -⟩ := checkVoid_ok hcheck
  refine ⟨{ sale with
    status := .voided, voidedAt := some c.now, voidedBy := some c.actor.user }, ?_, rfl⟩
  rw [ht, sales_applyVoid, sales_of_rest hmoved.rest]
  refine getElem?_modify_eq_some.mpr ⟨sale, hsale, ?_⟩
  rw [if_pos rfl]

/-! ## Undoing a sale -/

/-- What it is for a void, from `s₂` to `t`, to undo the sale made from `s₀` to `s₁`: every line
gets back what it had taken out of stock, wherever that was; the customer is released from what
is still on account of the sale and gets back the store credit it took; and no later request
voids the sale again. -/
structure VoidUndoes (s₀ s₁ s₂ t : State) (id customer : ℕ) : Prop where
  stock : ∀ line k,
    linePosted (movementsSince s₂ t) line k = -linePosted (movementsSince s₀ s₁) line k
  balance : balanceOf t customer = balanceOf s₂ customer -
    (balanceOf s₁ customer - balanceOf s₀ customer - paidOn (paymentsSince s₁ s₂) id)
  storeCredit : storeCreditOf t customer =
    storeCreditOf s₂ customer + (storeCreditOf s₀ customer - storeCreditOf s₁ customer)
  final : ∀ c later, ¬ (Op.voidSale c id).Accepted (run t later)

section Run

variable {c c' : Call} {r : CheckoutRequest} {s₀ s₁ s₂ t : State} {id : ℕ} {p : PreparedSale}
  {number : Text} {items : List SaleItem} {x : Unit} (hmade : SaleMade c r s₀ s₁ id p number items)
  (hkept : AccountKept s₁ id s₂) (hvoid : Runs (voidSale c' id) s₂ x t)

include hmade hkept hvoid

/-- The unpaid part and the store credit a void reverses. -/
lemma balance_void (hlinked : Linked s₀) (hgrow : CustomersGrow s₀ s₂)
    (hsale : ∀ sale, s₂.sales.sales[id]? = some sale → sale.customer = r.customer) :
    balanceOf t r.customer = balanceOf s₂ r.customer -
        (balanceOf s₁ r.customer - balanceOf s₀ r.customer - paidOn (paymentsSince s₁ s₂) id) ∧
      storeCreditOf t r.customer = storeCreditOf s₂ r.customer +
        (storeCreditOf s₀ r.customer - storeCreditOf s₁ r.customer) := by
  obtain ⟨sale, amounts, rows, u, hcheck, -, hmoved, ht⟩ := runs_voidSale hvoid
  obtain ⟨hrow, -, hreturns, hamounts⟩ := checkVoid_ok hcheck
  obtain ⟨_, -, hprepared⟩ := hmade.prepared
  have hstore := (accountTenders_nonneg hprepared).2
  have hparties : u.parties = s₂.parties := parties_of_rest hmoved.rest
  have hlt : r.customer < u.parties.customers.length := by
    rw [hparties]
    exact Nat.lt_of_lt_of_le hmade.customer_lt hgrow
  have hunpaid : unpaid s₂ id = sale.total - sale.amountPaid := by
    rw [unpaid, hrow, Option.map_some, Option.getD_some]
  have hnonneg := hkept.unpaid_nonneg hreturns
  have hsplit := hkept.unpaid_eq
  have hused := hkept.storeCredit
  have hbalance := hmade.balanceOf_eq
  have hcredit := hmade.storeCreditOf_eq
  rw [hmade.unpaid_eq] at hsplit
  rw [hmade.storeCreditUsed_eq hlinked] at hused
  have hu : balanceOf u r.customer = balanceOf s₂ r.customer ∧
      storeCreditOf u r.customer = storeCreditOf s₂ r.customer := by
    rw [balanceOf, balanceOf, storeCreditOf, storeCreditOf, hparties]
    exact ⟨rfl, rfl⟩
  rw [ht, balanceOf_applyVoid hlt, storeCreditOf_applyVoid hlt, if_pos (hsale sale hrow),
    if_pos (hsale sale hrow), hamounts, hu.1, hu.2]
  dsimp only
  rw [max_eq_right (by omega), max_eq_right (by omega)]
  omega

end Run

/-- What a line took out of stock under a key. -/
def SaleItem.deductedAt (i : SaleItem) (k : StockKey) : ℤ :=
  i.stockWarehouse.elim 0 fun warehouse =>
    if (⟨warehouse, i.product, i.variant⟩ : StockKey) = k then -i.inventoryQuantity else 0

lemma elim_deductionOf (number : Text) (item : SaleItem) (line : ℕ) (k : StockKey) :
    ((deductionOf number (item, line)).elim 0 fun x => x.at k) = item.deductedAt k := by
  unfold deductionOf SaleItem.deductedAt
  cases item.stockWarehouse <;> rfl

lemma deductedAt_of_core {i j : SaleItem} (h : i.core = j.core) (k : StockKey) :
    i.deductedAt k = j.deductedAt k := by
  have hcore : ∀ i : SaleItem, i.core.deductedAt k = i.deductedAt k := fun _ => rfl
  rw [← hcore i, ← hcore j, h]

/-- A line that was deducted was deducted by something. -/
lemma inventoryQuantity_ne_zero {s : State} (hs : (salesView s).Recorded)
    (hmoves : NoEmptyMovement s) {line : ℕ} {item : SaleItem}
    (hitem : s.sales.items[line]? = some item) (hstock : item.stockWarehouse.isSome = true) :
    item.inventoryQuantity ≠ 0 := by
  obtain ⟨warehouse, hwarehouse⟩ := Option.isSome_iff_exists.mp hstock
  have hlt := hs.item_sale_lt hitem
  have hpostings := hs.linePostings_eq hitem (List.getElem?_eq_getElem hlt)
  have hmem : (deductionOf s.sales.sales[item.sale].invoiceNumber (item, line)).isSome := by
    rw [deductionOf, Option.isSome_map]
    exact hstock
  obtain ⟨x, hx⟩ := Option.isSome_iff_exists.mp hmem
  have hquantity : x.quantity = -item.inventoryQuantity := by
    obtain ⟨w, -, rfl⟩ := Option.map_eq_some_iff.mp hx
    rfl
  have hin : x ∈ linePostings s line .sale := by
    rw [hpostings, hx]
    exact List.mem_singleton_self x
  obtain ⟨row, hrow, rfl⟩ := List.mem_map.mp (List.mem_filter.mp hin).1
  have hne : row.posting.quantity ≠ 0 := hmoves row hrow
  omega

/-- What a completed sale deducted, read off the lines of any later state. -/
lemma SaleMade.linePosted_later {c : Call} {r : CheckoutRequest} {s₀ s₁ s₂ : State} {id : ℕ}
    {p : PreparedSale} {number : Text} {items : List SaleItem}
    (h : SaleMade c r s₀ s₁ id p number items) (hs₀ : (salesView s₀).Recorded)
    (hgrow : SalesGrow s₁ s₂) (line : ℕ) (k : StockKey) :
    linePosted (movementsSince s₀ s₁) line k =
      (s₂.sales.items[line]?).elim 0 fun item => if item.sale = id then item.deductedAt k else 0 := by
  obtain ⟨totalCost, sequences, hsales⟩ := h.sales
  have hitems : s₁.sales.items = s₀.sales.items ++ items := by rw [hsales]
  have hid : id < s₁.sales.sales.length := by
    rw [hsales, h.id_eq, List.length_append, List.length_singleton]
    exact Nat.lt_succ_self _
  rw [h.linePosted_eq line k]
  cases hnew : (if s₀.sales.items.length ≤ line then items[line - s₀.sales.items.length]?
      else none) with
  | some item =>
    -- a line of the sale is still there
    split at hnew
    · rename_i hle
      have hmem : s₁.sales.items[line]? = some item := by
        rw [hitems, List.getElem?_append_right hle, hnew]
      obtain ⟨item', hitem', hcore⟩ := hgrow.item hmem
      have hsale : item'.sale = id :=
        (congrArg SaleItem.sale hcore).trans (h.lineRecorded (List.mem_of_getElem? hnew)).1
      rw [if_pos hle, hnew, Option.bind_some, elim_deductionOf, hitem', Option.elim_some,
        if_pos hsale, deductedAt_of_core hcore]
    · cases hnew
  | none =>
    have hleft : (if s₀.sales.items.length ≤ line then
        (items[line - s₀.sales.items.length]?).bind fun item => deductionOf number (item, line)
        else none) = none := by
      split at hnew
      · rename_i hle
        rw [if_pos hle, hnew, Option.bind_none]
      · rename_i hlt
        rw [if_neg hlt]
    rw [hleft]
    cases hitem : s₂.sales.items[line]? with
    | none => rfl
    | some item =>
      rw [Option.elim_some, if_neg]
      · rfl
      · -- its lines are among those of `s₁`, and not among those of `s₀`
        intro hsale
        obtain ⟨item', hitem', hcore⟩ := hgrow.item_of_sale_lt hitem (by rw [hsale]; exact hid)
        have hsale' : item'.sale = id := (congrArg SaleItem.sale hcore).symm.trans hsale
        rw [hitems] at hitem'
        rcases getElem?_append_eq_some.mp hitem' with hold | ⟨hle, hmem⟩
        · have hlt := hs₀.item_sale_lt hold
          rw [hsale', h.id_eq] at hlt
          exact Nat.lt_irrefl _ hlt
        · rw [if_pos hle, hmem] at hnew
          cases hnew

/-- The stock rows of a line: what the sale wrote, and what the void writes. -/
lemma stock_void_iff {c c' : Call} {r : CheckoutRequest} {s₀ s₁ s₂ t : State} {id : ℕ}
    {p : PreparedSale} {number : Text} {items : List SaleItem} {x : Unit}
    (hmade : SaleMade c r s₀ s₁ id p number items) (hvoid : Runs (voidSale c' id) s₂ x t)
    (hs₀ : (salesView s₀).Recorded) (hs₂ : (salesView s₂).Recorded)
    (hmoves : NoEmptyMovement s₂) (hgrow : SalesGrow s₁ s₂) :
    (∀ line k,
      linePosted (movementsSince s₂ t) line k = -linePosted (movementsSince s₀ s₁) line k) ↔
      StockedAsSold s₂ id := by
  obtain ⟨sale, -, hback, hne⟩ := voidSale_linePosted hvoid
  have hout := hmade.linePosted_later hs₀ hgrow
  have hback' : ∀ line k, linePosted (movementsSince s₂ t) line k =
      (s₂.sales.items[line]?).elim 0 fun item => if item.sale = id then
        (if isRestockable s₂ item = true ∧
            (⟨item.stockWarehouse.getD sale.warehouse, item.product, item.variant⟩ : StockKey) = k
          then item.inventoryQuantity else 0) else 0 := by
    intro line k
    rw [hback line k]
    cases s₂.sales.items[line]? with
    | none => rfl
    | some item =>
      rw [Option.bind_some, Option.elim_some]
      by_cases hsale : item.sale = id
      · rw [if_pos hsale, if_pos hsale]
        unfold voidMovement
        by_cases hrestock : isRestockable s₂ item = true
        · simp [hrestock, Posting.at, Movement.posting, restockMovement]
        · simp [hrestock]
      · rw [if_neg hsale, if_neg hsale]
        rfl
  rw [stockedAsSold_iff hs₂]
  constructor
  · intro hundoes line item hitem hsale
    let k : StockKey := ⟨item.stockWarehouse.getD sale.warehouse, item.product, item.variant⟩
    have hline := hundoes line k
    rw [hout, hback', hitem, Option.elim_some, Option.elim_some, if_pos hsale, if_pos hsale]
      at hline
    cases hwarehouse : item.stockWarehouse with
    | none =>
      cases hrestock : isRestockable s₂ item with
      | false => rfl
      | true =>
        -- put back without having been deducted
        have hzero := hne (line, item) (mem_childrenOf.mpr ⟨hitem, hsale⟩) hrestock
        rw [if_pos ⟨hrestock, rfl⟩, SaleItem.deductedAt, hwarehouse] at hline
        exact absurd hline hzero
    | some warehouse =>
      cases hrestock : isRestockable s₂ item with
      | true => rfl
      | false =>
        -- deducted and not put back
        have hzero := inventoryQuantity_ne_zero hs₂ hmoves hitem (by rw [hwarehouse]; rfl)
        rw [if_neg (by simp [hrestock]), SaleItem.deductedAt, hwarehouse] at hline
        simp only [k, hwarehouse, Option.getD_some, Option.elim_some, if_true] at hline
        omega
  · intro hstocked line k
    rw [hout, hback']
    cases hitem : s₂.sales.items[line]? with
    | none => rfl
    | some item =>
      rw [Option.elim_some, Option.elim_some]
      by_cases hsale : item.sale = id
      · have hsame := hstocked line item hitem hsale
        rw [if_pos hsale, if_pos hsale, hsame, SaleItem.deductedAt]
        cases item.stockWarehouse with
        | none => simp
        | some warehouse =>
          simp only [Option.isSome_some, true_and, Option.getD_some, Option.elim_some]
          split <;> simp
      · rw [if_neg hsale, if_neg hsale, neg_zero]

/-- **Voids.**  Take a sale completed in any history, any requests after it, and an accepted
void of it.  The void undoes the sale if and only if, at that moment, the lines without fabric
are of products that are kept in stock exactly when the line was deducted. -/
theorem void_undoes_iff (before between : List Op) {c c' : Call} {r : CheckoutRequest}
    {s₀ s₁ s₂ : State} {id : ℕ} (h₀ : history before = s₀)
    (h₁ : step s₀ (.completeSale c r) = s₁) (h₂ : run s₁ between = s₂)
    (hid : s₀.sales.sales.length = id) (hsold : id < s₁.sales.sales.length)
    (hvoid : (Op.voidSale c' id).Accepted s₂) :
    VoidUndoes s₀ s₁ s₂ (step s₂ (.voidSale c' id)) id r.customer ↔ StockedAsSold s₂ id := by
  have hrow := List.getElem?_eq_getElem hsold
  have hmade : ∃ p number items, SaleMade c r s₀ s₁ id p number items := by
    subst h₁ hid
    exact saleMade_of_new hrow
  obtain ⟨p, number, items, hmade⟩ := hmade
  have hrun := hvoid.runs
  -- the three states are reachable
  have hs₀ : (salesView s₀).Recorded := by
    rw [← h₀]
    exact recorded_history before
  have hlinked : Linked s₀ := by
    rw [← h₀]
    exact linked_history before
  have hs₂ : s₂ = history (before ++ .completeSale c r :: between) := by
    rw [history_append, h₀, ← h₂, ← h₁]
    rfl
  have hrecorded : (salesView s₂).Recorded := by
    rw [hs₂]
    exact recorded_history _
  have hmoves : NoEmptyMovement s₂ := by
    rw [hs₂]
    exact noEmptyMovement_history _
  have hgrow : SalesGrow s₁ s₂ := by
    rw [← h₂]
    exact salesGrow_run s₁ between
  have hcustomers : CustomersGrow s₀ s₂ := by
    rw [← h₂, ← h₁]
    exact Trace.related customersGrow_step s₀ (.completeSale c r :: between)
  have hkept : AccountKept s₁ id s₂ := by
    rw [← h₂]
    exact accountKept_run (hmade.accountKept hlinked) between
  have hcustomer : ∀ sale, s₂.sales.sales[id]? = some sale →
      sale.customer = r.customer := by
    intro sale hsale
    obtain ⟨sale', hsale', hcore⟩ := hgrow.sale hrow
    obtain ⟨totalCost, hold⟩ := hmade.sale_eq hrow
    rw [hsale] at hsale'
    obtain rfl := Option.some.inj hsale'
    have hsame : sale.core.customer = (s₁.sales.sales[id]).core.customer := by rw [hcore]
    exact hsame.trans (congrArg Sale.customer hold)
  have hstock := stock_void_iff hmade hrun hs₀ hrecorded hmoves hgrow
  obtain ⟨hbalance, hcredit⟩ := balance_void hmade hkept hrun hlinked hcustomers hcustomer
  constructor
  · intro hundoes
    exact hstock.mp hundoes.stock
  · intro hstocked
    refine ⟨hstock.mpr hstocked, hbalance, hcredit, fun c later => ?_⟩
    have hvoided := Trace.invariant (isVoid_step id) (isVoid_of_voidSale hrun) later
    exact hvoided.not_accepted c

/-- A shop where one piece costs 30. -/
def thirtyShop : State := history (Shop.stocked 30000)

/-- Two pieces, paid partly in cash, partly on account. -/
def soldOnAccount : State := step thirtyShop (Shop.sell 2 [⟨0, 20⟩, ⟨2, 40⟩])

/-- Ten paid later on the sale. -/
def paidLater : List Op := [.addSalePayment Shop.call { sale := 0, amount := 10, method := 0 }]

theorem void_undoes_run :
    VoidUndoes thirtyShop soldOnAccount (run soldOnAccount paidLater)
      (step (run soldOnAccount paidLater) (.voidSale Shop.call 0)) 0 0 := by
  refine (void_undoes_iff (r := Shop.cart 2 [⟨0, 20⟩, ⟨2, 40⟩]) (Shop.stocked 30000) paidLater
    rfl rfl rfl ?_ ?_ ?_).mpr ?_
  · decide +kernel
  · decide +kernel
  · decide +kernel
  · decide +kernel

/-- The product of the sale is taken out of stock keeping before the void. -/
def untracked : List Op := [
  .saveMasterData (.product (some 0)
    { name := "item", salePrice := 30000, trackInventory := false })]

/-- The void is accepted, and the two pieces do not come back. -/
theorem void_does_not_undo :
    (Op.voidSale Shop.call 0).Accepted (run soldOnAccount untracked) ∧
      ¬ VoidUndoes thirtyShop soldOnAccount (run soldOnAccount untracked)
        (step (run soldOnAccount untracked) (.voidSale Shop.call 0)) 0 0 := by
  refine ⟨by decide +kernel, fun h => ?_⟩
  have hlost : linePosted (movementsSince (run soldOnAccount untracked)
      (step (run soldOnAccount untracked) (.voidSale Shop.call 0))) 0 ⟨0, 0, none⟩ ≠
        -linePosted (movementsSince thirtyShop soldOnAccount) 0 ⟨0, 0, none⟩ := by
    decide +kernel
  exact hlost (h.stock 0 ⟨0, 0, none⟩)

end NexaPos
