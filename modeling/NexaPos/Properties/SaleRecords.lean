import NexaPos.System

/-!
# What is fixed when a sale is completed

A completed sale is a snapshot.  Later requests move its status, what was paid on it and how
much of each line came back; everything else about the sale and its lines, and the stock rows
that the sale wrote for each line, stays as `complete_sale` left it.  `salesView` is that fixed
part.  Only `complete_sale` changes it (`salesView_step`), and only by adding a sale
(`SaleMade.salesView_eq`).

`SalesView.Recorded` is what the fixed part always says: lines belong to existing sales, the
stock rows of a line are its deduction, and the lines of a sale add up to it.
-/

namespace NexaPos

open Tx

/-! ## The fixed part -/

/-- The columns of a sale that are never rewritten. -/
def Sale.core (x : Sale) : Sale :=
  { x with status := .completed, amountPaid := 0, voidedAt := none, voidedBy := none }

/-- The columns of a line that are never rewritten. -/
def SaleItem.core (i : SaleItem) : SaleItem := { i with returnedQuantity := 0 }

/-- The ledger rows of one kind that were written for a line. -/
def linePostings (s : State) (line : ℕ) (type : ReferenceType) : List Posting :=
  (s.stock.movements.map StockMovement.posting).filter fun x =>
    x.saleItem = some line ∧ x.reference.type = type

/-- The fixed part of the sales tables, with the stock rows that the sales wrote. -/
structure SalesView where
  sales : List Sale
  items : List SaleItem
  deductions : ℕ → List Posting

def salesView (s : State) : SalesView where
  sales := s.sales.sales.map Sale.core
  items := s.sales.items.map SaleItem.core
  deductions line := linePostings s line .sale

lemma salesView_congr {s t : State}
    (hsales : t.sales.sales.map Sale.core = s.sales.sales.map Sale.core)
    (hitems : t.sales.items.map SaleItem.core = s.sales.items.map SaleItem.core)
    (hstock : t.stock = s.stock) : salesView t = salesView s := by
  unfold salesView linePostings
  rw [hsales, hitems, hstock]

/-- Appending ledger rows of another kind leaves the rows of this kind. -/
lemma linePostings_append {s t : State} {rows : List StockMovement} {line : ℕ}
    {type : ReferenceType} (h : t.stock.movements = s.stock.movements ++ rows) :
    linePostings t line type = linePostings s line type ++
      (rows.map StockMovement.posting).filter fun x =>
        x.saleItem = some line ∧ x.reference.type = type := by
  unfold linePostings
  rw [h, List.map_append, List.filter_append]

lemma within_linePostings_recordMovement {m : Movement} {type : ReferenceType}
    (hm : m.reference.type ≠ type) (line : ℕ) :
    Within (Frame fun s => linePostings s line type) (recordMovement m) := by
  intro s u t h
  obtain ⟨row, hrow, hstock, -⟩ := runs_recordMovement h
  have hrows : t.stock.movements = s.stock.movements ++ [row] := by
    rw [hstock, Stock.movements_post]
  have hnone : (([row] : List StockMovement).map StockMovement.posting).filter (fun x =>
      x.saleItem = some line ∧ x.reference.type = type) = [] := by
    rw [List.map_singleton, hrow.toRowFor.posting_eq]
    simp [Movement.posting, hm]
  change linePostings t line type = linePostings s line type
  rw [linePostings_append hrows, hnone, List.append_nil]

lemma within_salesView_recordMovement {m : Movement} (hm : m.reference.type ≠ .sale) :
    Within (Frame salesView) (recordMovement m) := by
  intro s u t h
  have hsales : t.sales = s.sales := sales_of_rest (within_rest_recordMovement m h)
  have hlines : ∀ line, linePostings t line .sale = linePostings s line .sale :=
    fun line => within_linePostings_recordMovement hm line h
  unfold Frame salesView
  rw [hsales, funext hlines]

/-! ## Who changes it -/

/-- A write outside the sales tables, on the account of something else than a sale. -/
lemma Component.salesView_eq {comp : Component} {s t : State} (h : comp.Change s t)
    (hs : comp ≠ .sales) (hm : comp ≠ .movements .sale) : salesView t = salesView s := by
  cases comp with
  | sales => exact absurd rfl hs
  | movements type =>
    obtain ⟨m, u, rfl, hrun⟩ := h
    refine within_salesView_recordMovement ?_ hrun
    rintro hsale
    rw [hsale] at hm
    exact hm rfl
  | transfers => obtain ⟨x, y, rfl⟩ := h; rfl
  | adjustments => obtain ⟨x, y, rfl⟩ := h; rfl
  | counts => obtain ⟨x, y, rfl⟩ := h; rfl
  | accounts => obtain ⟨x, f, rfl⟩ := h; rfl
  | levels =>
    obtain ⟨k, -, rfl⟩ := h
    rfl
  | _ => obtain ⟨x, rfl⟩ := h; rfl

/-- Rewriting a sale outside its fixed part. -/
lemma salesView_updateSale {f : Sale → Sale} (hf : ∀ x, (f x).core = x.core) (id : ℕ)
    (s : State) : salesView (updateSale id f s) = salesView s :=
  salesView_congr (map_modify_of_eq hf _ _) rfl rfl

lemma core_paidSale (s : State) (id : ℕ) (amount : ℤ) (sale : Sale) :
    (paidSale s id amount sale).core = sale.core := by
  unfold paidSale
  dsimp only
  split <;> rfl

lemma within_salesView_addSalePayment (c : Call) (r : SalePaymentRequest) :
    Within (Frame salesView) (addSalePayment c r) := by
  refine within_bind within_reads fun ⟨sale, amount⟩ => within_modify fun s => ?_
  exact salesView_updateSale (core_paidSale _ r.sale amount) r.sale _

lemma within_salesView_voidSale (c : Call) (id : ℕ) :
    Within (Frame salesView) (voidSale c id) := by
  refine within_bind within_reads fun ⟨row, amounts⟩ => within_bind within_get fun s => ?_
  refine within_bind (within_forM fun m hm => ?_) fun _ => within_modify fun s => ?_
  · obtain ⟨entry, -, hentry⟩ := List.mem_filterMap.mp hm
    refine within_salesView_recordMovement ?_
    rw [type_of_voidMovement hentry]
    decide
  · have haccounts : ∀ u : State, salesView (if 0 < amounts.storeCreditUsed then
        applyStoreCreditChange row.customer amounts.storeCreditUsed u else u) = salesView u := by
      intro u
      split <;> rfl
    refine (salesView_updateSale ?_ _ _).trans ?_
    · intro x
      rfl
    · rw [haccounts]
      split <;> rfl

lemma within_salesView_returnLine (c : Call) (r : ReturnRequest) (sale : Sale)
    (saleReturn number : ℕ) (p : ReturnProgress) (entry : ReturnEntry) :
    Within (Frame salesView) (returnLine c r sale saleReturn number p entry) := by
  refine within_ite (fun _ => within_pure) fun _ => ?_
  refine within_bind within_reads fun item => ?_
  refine within_bind (within_modify fun s => ?_) fun _ => within_bind within_get fun s => ?_
  · refine salesView_congr rfl ?_ rfl
    refine map_modify_of_eq ?_ _ _
    intro x
    rfl
  · refine within_bind (within_recordOptional fun m hm => ?_) fun _ => within_pure
    have htype : m.reference.type = .saleReturn := type_of_mem_ite hm rfl
    refine within_salesView_recordMovement ?_
    rw [htype]
    decide

lemma salesView_applyRefund (method : RefundMethod) (customer : ℕ) (refund : ℤ) (s : State) :
    salesView (applyRefund method customer refund s) = salesView s := by
  obtain ⟨customers, hrefund⟩ := applyRefund_eq method customer refund s
  rw [hrefund]
  rfl

lemma within_salesView_processReturn (c : Call) (r : ReturnRequest) :
    Within (Frame salesView) (processReturn c r) := by
  refine within_bind within_reads fun sale => within_bind within_get fun s => ?_
  refine within_bind (within_modify fun s => rfl) fun _ => ?_
  refine within_bind (within_foldlM (within_salesView_returnLine c r sale _ _) _ _) fun p => ?_
  refine within_bind within_check fun _ => within_modify fun s => ?_
  refine (salesView_updateSale ?_ _ _).trans ?_
  · intro x
    rfl
  · rw [salesView_applyRefund]
    rfl

/-- Only `complete_sale` changes the fixed part, and only when it makes a sale. -/
lemma salesView_step (s : State) (op : Op) :
    salesView (step s op) = salesView s ∨
      ∃ c r id p number items, op = .completeSale c r ∧
        SaleMade c r s (step s op) id p number items := by
  have hframe : (∀ comp ∈ op.footprint, comp ≠ .sales ∧ comp ≠ .movements .sale) →
      salesView (step s op) = salesView s := by
    intro hop
    refine step_within (R := Frame salesView) op ?_ s
    intro comp hcomp s t hchange
    exact Component.salesView_eq hchange (hop comp hcomp).1 (hop comp hcomp).2
  cases op with
  | completeSale c r =>
    rcases commit_cases (Op.completeSale c r).service s with hsame | ⟨x, hrun⟩
    · left
      unfold step
      rw [hsame]
    · obtain ⟨id, hrun⟩ := runs_discard.mp hrun
      rcases runs_completeSale hrun with hreplayed | ⟨p, number, items, hmade⟩
      · left
        exact congrArg salesView hreplayed.unchanged
      · exact .inr ⟨c, r, id, p, number, items, rfl, hmade⟩
  | addSalePayment c r => exact .inl (within_commit (within_salesView_addSalePayment c r) s)
  | voidSale c id => exact .inl (within_commit (within_salesView_voidSale c id) s)
  | processReturn c r => exact .inl (within_commit (within_salesView_processReturn c r) s)
  | saveMasterData m =>
    exact .inl (hframe (by cases m <;> simp [Op.footprint, MasterData.component]))
  | _ => exact .inl (hframe (by simp [Op.footprint]))

/-! ## What a sale records -/

/-- What every stored line satisfies.  A line of the customer's own fabric has no stock
warehouse; a line that measures fabric has one, and is one piece. -/
structure LineRecorded (item : SaleItem) : Prop where
  quantity_nonneg : 0 ≤ item.quantity
  lineTotal_nonneg : 0 ≤ item.lineTotal
  customerFabric : item.customerSuppliedFabric = true → item.stockWarehouse = none
  meter : item.fabricMeterUsed.isSome = true → item.stockWarehouse.isSome = true ∧
    item.quantity = 1000

lemma lineRecorded_core {item : SaleItem} : LineRecorded item.core ↔ LineRecorded item :=
  ⟨fun h => ⟨h.1, h.2, h.3, h.4⟩, fun h => ⟨h.1, h.2, h.3, h.4⟩⟩

/-- What every database says about its sales. -/
structure SalesView.Recorded (v : SalesView) : Prop where
  sale_lt : ∀ item ∈ v.items, item.sale < v.sales.length
  line : ∀ item ∈ v.items, LineRecorded item
  total : ∀ id sale, v.sales[id]? = some sale →
    ((v.items.filter fun i => i.sale = id).map SaleItem.lineTotal).sum = sale.total - sale.rounding
  stray : ∀ line, v.items.length ≤ line → v.deductions line = []
  deducted : ∀ line item sale, v.items[line]? = some item → v.sales[item.sale]? = some sale →
    v.deductions line = (deductionOf sale.invoiceNumber (item, line)).toList

/-- The fixed part after a new sale. -/
lemma SaleMade.salesView_eq {c : Call} {r : CheckoutRequest} {s t : State} {id : ℕ}
    {p : PreparedSale} {number : Text} {items : List SaleItem}
    (h : SaleMade c r s t id p number items) :
    ∃ totalCost, salesView t = {
      sales := (salesView s).sales ++ [(settledSale r p totalCost (saleRow c r p number)).core]
      items := (salesView s).items ++ items.map SaleItem.core
      deductions := fun line => (salesView s).deductions line ++
        if s.sales.items.length ≤ line then
          ((items[line - s.sales.items.length]?).bind fun item =>
            deductionOf number (item, line)).toList
        else [] } := by
  obtain ⟨totalCost, sequences, hsales⟩ := h.sales
  obtain ⟨rows, hrows, hpostings⟩ := h.movements
  have hsale : ∀ e, ∀ x ∈ deductionOf number e, x.saleItem = some e.2 ∧
      x.reference.type = .sale := by
    intro e x hx
    obtain ⟨warehouse, -, rfl⟩ := Option.map_eq_some_iff.mp hx
    exact ⟨rfl, rfl⟩
  have hlines : ∀ line, linePostings t line .sale = linePostings s line .sale ++
      if s.sales.items.length ≤ line then
        ((items[line - s.sales.items.length]?).bind fun item =>
          deductionOf number (item, line)).toList
      else [] := by
    intro line
    rw [linePostings_append hrows, hpostings,
      ← filter_filterMap_zipIdx (fun e x hx => (hsale e x hx).1)]
    congr 1
    refine List.filter_congr fun x hx => ?_
    obtain ⟨e, -, he⟩ := List.mem_filterMap.mp hx
    simp [(hsale e x he).2]
  refine ⟨totalCost, ?_⟩
  unfold salesView
  rw [hsales, funext hlines]
  simp only [List.map_append, List.map_singleton]

/-- A prepared sale was computed from validated lines. -/
lemma SaleMade.lines_ok {c : Call} {r : CheckoutRequest} {s t : State} {id : ℕ}
    {p : PreparedSale} {number : Text} {items : List SaleItem}
    (h : SaleMade c r s t id p number items) :
    (p.totals.lines.map fun e => e.2.total).sum = p.totals.total - p.totals.rounding ∧
      ∀ e ∈ p.totals.lines, e.2.quantity = e.1.quantity ∧ 0 ≤ e.2.total ∧
        (e.1.fabricMeterUsed.isSome = true →
          e.1.product.isStocked = true ∧ e.1.quantity = 1) := by
  obtain ⟨customer, -, hprepared⟩ := h.prepared
  obtain ⟨lines, -, hlines, htotals, -⟩ := prepareSale_ok hprepared
  obtain ⟨hsum, hparts⟩ := calculateSaleTotals_ok htotals
  refine ⟨hsum, fun e he => ?_⟩
  obtain ⟨hmem, hquantity, hnonneg⟩ := hparts e he
  refine ⟨hquantity, hnonneg, fun hmeter => ?_⟩
  unfold normalizeItems at hlines
  simp only [except_bind_eq_ok, mapM_eq_ok] at hlines
  obtain ⟨members, -, hlines⟩ := hlines
  obtain ⟨entry, -, hentry⟩ := exists_of_forall₂_mem hlines hmem
  exact normalizeLine_meter hentry hmeter

/-- The lines of a new sale. -/
lemma SaleMade.lineRecorded {c : Call} {r : CheckoutRequest} {s t : State} {id : ℕ}
    {p : PreparedSale} {number : Text} {items : List SaleItem}
    (h : SaleMade c r s t id p number items) {item : SaleItem} (hitem : item ∈ items) :
    item.sale = id ∧ LineRecorded item := by
  obtain ⟨e, he, warehouse, unitCost, lineCost, hwarehouse, rfl⟩ :=
    exists_of_forall₂_mem h.stored hitem
  obtain ⟨hquantity, htotal, hmeter⟩ := h.lines_ok.2 e he
  refine ⟨rfl, ?_, htotal, fun hfabric => ?_, fun hsome => ?_⟩
  · change 0 ≤ qty e.2.quantity
    rw [hquantity]
    exact qty_nonneg e.1.quantity_pos.le
  · change e.1.customerSuppliedFabric = true at hfabric
    rw [hfabric] at hwarehouse
    have hnone : warehouse = none := by simpa using hwarehouse
    change (if e.1.product.isStocked = true then warehouse else none) = none
    rw [hnone, ite_self]
  · obtain ⟨hstocked, hone⟩ := hmeter hsome
    have hown : e.1.customerSuppliedFabric = false := by
      by_contra hfabric
      have hnone := e.1.customerFabric_noMeter (by simpa using hfabric)
      change e.1.fabricMeterUsed.isSome = true at hsome
      rw [hnone] at hsome
      exact nomatch hsome
    constructor
    · change (if e.1.product.isStocked = true then warehouse else none).isSome = true
      rw [if_pos hstocked, hwarehouse, hown]
      rfl
    · change qty e.2.quantity = 1000
      rw [hquantity, hone, qty_one]

/-- The lines of a new sale add up to its total before rounding. -/
lemma SaleMade.sum_lineTotal {c : Call} {r : CheckoutRequest} {s t : State} {id : ℕ}
    {p : PreparedSale} {number : Text} {items : List SaleItem}
    (h : SaleMade c r s t id p number items) :
    (items.map SaleItem.lineTotal).sum = p.totals.total - p.totals.rounding := by
  rw [← h.lines_ok.1]
  refine congrArg List.sum ?_
  have hstored := h.stored
  clear h
  generalize p.totals.lines = lines at hstored
  induction hstored with
  | nil => rfl
  | cons hitem _ ih =>
    obtain ⟨warehouse, unitCost, lineCost, -, rfl⟩ := hitem
    rw [List.map_cons, List.map_cons, ih]
    rfl

/-- Adding a sale keeps the records. -/
lemma SaleMade.recorded {c : Call} {r : CheckoutRequest} {s t : State} {id : ℕ}
    {p : PreparedSale} {number : Text} {items : List SaleItem}
    (h : SaleMade c r s t id p number items) (hs : (salesView s).Recorded) :
    (salesView t).Recorded := by
  obtain ⟨totalCost, hview⟩ := h.salesView_eq
  rw [hview]
  set v := salesView s with hv
  have hid : id = v.sales.length := by rw [hv, h.id_eq, salesView, List.length_map]
  have hlength : s.sales.items.length = v.items.length := by rw [hv, salesView, List.length_map]
  rw [hlength]
  have hnew : ∀ item ∈ items.map SaleItem.core, item.sale = v.sales.length ∧
      LineRecorded item := by
    intro item hitem
    obtain ⟨item', hitem', rfl⟩ := List.mem_map.mp hitem
    obtain ⟨hsale, hline⟩ := h.lineRecorded hitem'
    exact ⟨hsale.trans hid, lineRecorded_core.mpr hline⟩
  refine { sale_lt := ?_, line := ?_, total := ?_, stray := ?_, deducted := ?_ }
  · intro item hitem
    rw [List.length_append, List.length_singleton]
    rcases List.mem_append.mp hitem with hitem | hitem
    · exact Nat.lt_succ_of_lt (hs.sale_lt item hitem)
    · rw [(hnew item hitem).1]
      exact Nat.lt_succ_self _
  · intro item hitem
    rcases List.mem_append.mp hitem with hitem | hitem
    · exact hs.line item hitem
    · exact (hnew item hitem).2
  · intro sid sale hsale
    rcases getElem?_concat_eq_some.mp hsale with hsale | ⟨rfl, rfl⟩
    · have hlt := (List.getElem?_eq_some_iff.mp hsale).1
      have hnone : ((items.map SaleItem.core).filter fun i => i.sale = sid) = [] := by
        refine List.filter_eq_nil_iff.mpr fun item hitem => ?_
        rw [(hnew item hitem).1, decide_eq_true_eq]
        omega
      rw [List.filter_append, hnone, List.append_nil]
      exact hs.total sid sale hsale
    · have hold : (v.items.filter fun i => i.sale = v.sales.length) = [] := by
        refine List.filter_eq_nil_iff.mpr fun item hitem => ?_
        rw [decide_eq_true_eq]
        exact (hs.sale_lt item hitem).ne
      have hall : ((items.map SaleItem.core).filter fun i => i.sale = v.sales.length) =
          items.map SaleItem.core := by
        refine List.filter_eq_self.mpr fun item hitem => ?_
        exact decide_eq_true (hnew item hitem).1
      rw [List.filter_append, hold, hall, List.nil_append, List.map_map]
      exact h.sum_lineTotal
  · intro line hline
    dsimp only at hline ⊢
    rw [List.length_append, List.length_map] at hline
    rw [hs.stray line (by omega), if_pos (by omega), List.getElem?_eq_none (by omega)]
    rfl
  · intro line item sale hitem hsale
    rcases getElem?_append_eq_some.mp hitem with hitem | ⟨hge, hitem⟩
    · have hlt := (List.getElem?_eq_some_iff.mp hitem).1
      have hold : v.sales[item.sale]? = some sale := by
        rcases getElem?_concat_eq_some.mp hsale with hsale | ⟨heq, -⟩
        · exact hsale
        · exact absurd heq (hs.sale_lt item (List.mem_of_getElem? hitem)).ne
      dsimp only
      rw [if_neg (by omega), List.append_nil]
      exact hs.deducted line item sale hitem hold
    · rw [List.getElem?_map] at hitem
      obtain ⟨item', hitem', rfl⟩ := Option.map_eq_some_iff.mp hitem
      have hmem : item'.core ∈ items.map SaleItem.core :=
        List.mem_map_of_mem (List.mem_of_getElem? hitem')
      have hnumber : sale.invoiceNumber = number := by
        rcases getElem?_concat_eq_some.mp hsale with hsale | ⟨-, rfl⟩
        · rw [(hnew _ hmem).1, List.getElem?_eq_none le_rfl] at hsale
          exact nomatch hsale
        · rfl
      dsimp only
      rw [hs.stray line hge, if_pos hge, hitem', hnumber]
      rfl

lemma recorded_step (s : State) (op : Op) (hs : (salesView s).Recorded) :
    (salesView (step s op)).Recorded := by
  rcases salesView_step s op with hsame | ⟨c, r, id, p, number, items, -, hmade⟩
  · rw [hsame]
    exact hs
  · exact hmade.recorded hs

/-- **Sale records.**  In every history, what the lines of a sale took out of stock is written
in the rows of that sale, and the lines add up to the sale's total before rounding. -/
theorem recorded_history (ops : List Op) : (salesView (history ops)).Recorded := by
  refine Trace.invariant recorded_step ?_ ops
  refine { sale_lt := ?_, line := ?_, total := ?_, stray := ?_, deducted := ?_ }
  · intro item hitem
    exact absurd hitem List.not_mem_nil
  · intro item hitem
    exact absurd hitem List.not_mem_nil
  · intro id sale hsale
    exact nomatch hsale
  · intro line _
    rfl
  · intro line item sale hitem
    exact nomatch hitem

section Reading

variable {s : State} (hs : (salesView s).Recorded) {line : ℕ} {item : SaleItem}
  (hitem : s.sales.items[line]? = some item)

include hs hitem

lemma SalesView.Recorded.lineRecorded : LineRecorded item :=
  lineRecorded_core.mp (hs.line item.core (List.mem_map_of_mem (List.mem_of_getElem? hitem)))

lemma SalesView.Recorded.item_sale_lt : item.sale < s.sales.sales.length := by
  have hlt := hs.sale_lt item.core (List.mem_map_of_mem (List.mem_of_getElem? hitem))
  rwa [salesView, List.length_map] at hlt

lemma SalesView.Recorded.linePostings_eq {sale : Sale}
    (hsale : s.sales.sales[item.sale]? = some sale) :
    linePostings s line .sale = (deductionOf sale.invoiceNumber (item, line)).toList := by
  refine hs.deducted line item.core sale.core ?_ ?_
  · rw [salesView, List.getElem?_map, hitem, Option.map_some]
  · rw [salesView, List.getElem?_map]
    exact congrArg (Option.map Sale.core) hsale

end Reading

/-! ## Rows refer to rows -/

/-- Payments and returns belong to sales, and return lines to lines. -/
structure Linked (s : State) : Prop where
  payment : ∀ x ∈ s.sales.payments, x.sale < s.sales.sales.length
  saleReturn : ∀ x ∈ s.sales.returns, x.sale < s.sales.sales.length
  returnItem : ∀ x ∈ s.sales.returnItems, x.saleItem < s.sales.items.length

/-- Return lines belong to lines. -/
def ReturnItemsLinked (s : State) : Prop :=
  ∀ x ∈ s.sales.returnItems, x.saleItem < s.sales.items.length

lemma keeps_returnItemsLinked_returnLine (c : Call) (r : ReturnRequest) (sale : Sale)
    (saleReturn number : ℕ) (p : ReturnProgress) (entry : ReturnEntry) :
    Keeps ReturnItemsLinked (returnLine c r sale saleReturn number p entry) := by
  intro s p' t h hs
  rcases runs_returnLine h with ⟨-, -, rfl⟩ | ⟨item, hline⟩
  · exact hs
  · have hsales := sales_of_rest hline.rest
    have hlt := (List.getElem?_eq_some_iff.mp hline.line).1
    intro x hx
    rw [hsales] at hx ⊢
    unfold recordReturnLine at hx ⊢
    dsimp only at hx ⊢
    rw [List.length_modify]
    rcases List.mem_append.mp hx with hx | hx
    · exact hs x hx
    · rw [List.mem_singleton.mp hx]
      exact hlt

lemma linked_step (s : State) (op : Op) (hs : Linked s) : Linked (step s op) := by
  cases salesStep s op with
  | same h =>
    refine ⟨?_, ?_, ?_⟩ <;> rw [h]
    · exact hs.payment
    · exact hs.saleReturn
    · exact hs.returnItem
  | method h =>
    rw [h]
    exact ⟨hs.payment, hs.saleReturn, hs.returnItem⟩
  | @made c r id p number items h =>
    obtain ⟨totalCost, sequences, hsales⟩ := h.sales
    have hid := h.id_eq
    refine ⟨?_, ?_, ?_⟩ <;> rw [hsales] <;> dsimp only <;> intro x hx <;> rw [List.length_append]
    · rw [List.length_singleton]
      rcases List.mem_append.mp hx with hx | hx
      · exact Nat.lt_succ_of_lt (hs.payment x hx)
      · obtain ⟨e, -, rfl⟩ := List.mem_map.mp hx
        change id < _
        omega
    · exact Nat.lt_add_right _ (hs.saleReturn x hx)
    · exact Nat.lt_add_right _ (hs.returnItem x hx)
  | @paid c r h =>
    obtain ⟨sale, amount, hcheck, ht⟩ := runs_addSalePayment h
    obtain ⟨hsale, -⟩ := checkSalePayment_ok hcheck
    rw [ht]
    refine ⟨fun x hx => ?_, fun x hx => ?_, hs.returnItem⟩
    · change x.sale < (s.sales.sales.modify _ _).length
      rw [List.length_modify]
      rcases List.mem_append.mp hx with hx | hx
      · exact hs.payment x hx
      · rw [List.mem_singleton.mp hx]
        exact (List.getElem?_eq_some_iff.mp hsale).1
    · change x.sale < (s.sales.sales.modify _ _).length
      rw [List.length_modify]
      exact hs.saleReturn x hx
  | @voided c id h =>
    obtain ⟨sale, amounts, rows, u, -, -, hmoved, ht⟩ := runs_voidSale h
    have hsales : u.sales = s.sales := sales_of_rest hmoved.rest
    refine ⟨?_, ?_, ?_⟩ <;> rw [ht, sales_applyVoid, hsales] <;> dsimp only
    · rw [List.length_modify]
      exact hs.payment
    · rw [List.length_modify]
      exact hs.saleReturn
    · exact hs.returnItem
  | @returned c r h =>
    obtain ⟨sale, p, u, hcheck, hloop, -, hsales⟩ := processReturn_sales h
    obtain ⟨hsale, -⟩ := checkReturn_ok hcheck
    refine ⟨?_, ?_, ?_⟩
    · rw [hsales]
      dsimp only
      rw [List.length_modify]
      exact hs.payment
    · rw [hsales]
      dsimp only
      intro x hx
      rw [List.length_modify]
      rcases List.mem_append.mp hx with hx | hx
      · exact hs.saleReturn x hx
      · rw [List.mem_singleton.mp hx]
        exact (List.getElem?_eq_some_iff.mp hsale).1
    · rw [hsales]
      have hkeeps := within_foldlM (keeps_returnItemsLinked_returnLine c r sale
        s.sales.returns.length (saleReturnRow c r sale s).returnNumber) r.items
        (startProgress s) hloop
      exact hkeeps hs.returnItem

lemma linked_history (ops : List Op) : Linked (history ops) := by
  refine Trace.invariant linked_step ⟨?_, ?_, ?_⟩ ops
  · exact fun x hx => absurd hx List.not_mem_nil
  · exact fun x hx => absurd hx List.not_mem_nil
  · exact fun x hx => absurd hx List.not_mem_nil

/-! ## The fixed part only grows -/

/-- What was fixed before is still there, and new lines belong to new sales. -/
structure SalesView.Extends (v w : SalesView) : Prop where
  sales : v.sales <+: w.sales
  items : v.items <+: w.items
  deductions : ∀ line < v.items.length, w.deductions line = v.deductions line
  new : ∀ (line : ℕ) item, w.items[line]? = some item → v.items.length ≤ line →
    v.sales.length ≤ item.sale

/-- The step relation of the fixed part. -/
def SalesGrow (s t : State) : Prop := (salesView s).Extends (salesView t)

lemma SalesView.Extends.trans {u v w : SalesView} (h₁ : u.Extends v) (h₂ : v.Extends w) :
    u.Extends w where
  sales := h₁.sales.trans h₂.sales
  items := h₁.items.trans h₂.items
  deductions line hline := by
    rw [h₂.deductions line (Nat.lt_of_lt_of_le hline h₁.items.length_le),
      h₁.deductions line hline]
  new line item hitem hline := by
    rcases Nat.lt_or_ge line v.items.length with hlt | hge
    · -- the line was already there in between
      have hget := List.getElem?_eq_getElem hlt
      have hsame := getElem?_of_prefix h₂.items hget
      rw [hitem] at hsame
      obtain rfl := Option.some.inj hsame
      exact h₁.new line _ hget hline
    · exact h₁.sales.length_le.trans (h₂.new line item hitem hge)

instance : IsPreorder State SalesGrow where
  refl s := ⟨List.prefix_rfl, List.prefix_rfl, fun _ _ => rfl, fun line item hitem hline => by
    rw [List.getElem?_eq_none hline] at hitem
    exact nomatch hitem⟩
  trans _ _ _ h₁ h₂ := SalesView.Extends.trans h₁ h₂

lemma SaleMade.salesGrow {c : Call} {r : CheckoutRequest} {s t : State} {id : ℕ}
    {p : PreparedSale} {number : Text} {items : List SaleItem}
    (h : SaleMade c r s t id p number items) : SalesGrow s t := by
  obtain ⟨totalCost, hview⟩ := h.salesView_eq
  unfold SalesGrow
  rw [hview]
  refine ⟨List.prefix_append _ _, List.prefix_append _ _, fun line hline => ?_,
    fun line item hitem hline => ?_⟩
  · have hlt : line < s.sales.items.length := by
      rwa [salesView, List.length_map] at hline
    dsimp only
    rw [if_neg (by omega), List.append_nil]
  · dsimp only at hitem
    rw [List.getElem?_append_right hline, List.getElem?_map] at hitem
    obtain ⟨item', hitem', rfl⟩ := Option.map_eq_some_iff.mp hitem
    have hsale := (h.lineRecorded (List.mem_of_getElem? hitem')).1
    have hlength : (salesView s).sales.length = id := by
      rw [h.id_eq, salesView, List.length_map]
    exact (hlength.trans hsale.symm).le

lemma salesGrow_step (s : State) (op : Op) : SalesGrow s (step s op) := by
  rcases salesView_step s op with hsame | ⟨c, r, id, p, number, items, -, hmade⟩
  · unfold SalesGrow
    rw [hsame]
    exact refl (r := SalesGrow) s
  · exact hmade.salesGrow

lemma salesGrow_run (s : State) (ops : List Op) : SalesGrow s (run s ops) :=
  Trace.related salesGrow_step s ops

/-- A line stays, and changes at most in how much of it came back. -/
lemma SalesGrow.item {s t : State} (h : SalesGrow s t) {line : ℕ} {item : SaleItem}
    (hitem : s.sales.items[line]? = some item) :
    ∃ item', t.sales.items[line]? = some item' ∧ item'.core = item.core := by
  have hcore : (salesView s).items[line]? = some item.core := by
    rw [salesView, List.getElem?_map, hitem, Option.map_some]
  have hlater := getElem?_of_prefix h.items hcore
  rw [salesView, List.getElem?_map] at hlater
  exact Option.map_eq_some_iff.mp hlater

/-- A sale stays, and changes at most in its status and payments. -/
lemma SalesGrow.sale {s t : State} (h : SalesGrow s t) {id : ℕ} {sale : Sale}
    (hsale : s.sales.sales[id]? = some sale) :
    ∃ sale', t.sales.sales[id]? = some sale' ∧ sale'.core = sale.core := by
  have hcore : (salesView s).sales[id]? = some sale.core := by
    rw [salesView, List.getElem?_map, hsale, Option.map_some]
  have hlater := getElem?_of_prefix h.sales hcore
  rw [salesView, List.getElem?_map] at hlater
  exact Option.map_eq_some_iff.mp hlater

/-- A line of a sale that was there before was there, too. -/
lemma SalesGrow.item_of_sale_lt {s t : State} (h : SalesGrow s t) {line : ℕ} {item : SaleItem}
    (hitem : t.sales.items[line]? = some item) (hlt : item.sale < s.sales.sales.length) :
    ∃ item', s.sales.items[line]? = some item' ∧ item.core = item'.core := by
  have hold : line < s.sales.items.length := by
    by_contra hge
    have hcore : (salesView t).items[line]? = some item.core := by
      rw [salesView, List.getElem?_map, hitem, Option.map_some]
    have hnew := h.new line item.core hcore (by rw [salesView, List.length_map]; omega)
    rw [salesView, List.length_map] at hnew
    exact absurd hnew (not_le.mpr hlt)
  have hget := List.getElem?_eq_getElem hold
  obtain ⟨item', hitem', hcore⟩ := h.item hget
  rw [hitem] at hitem'
  obtain rfl := Option.some.inj hitem'
  exact ⟨_, hget, hcore⟩

end NexaPos
