import NexaPos.Properties.ReturnRecords

/-!
# What returns put back

A line carries what came back of it, its stock comes back as movements of its own, and the sale
says whether all of it was returned.  The three agree as long as the quantities of a request
survive being stored: `process_return` rounds each entry of a line by itself for the stock
movement, but their sum for the line.
-/

namespace NexaPos

/-! ## The property -/

/-- What the sale took out of stock for a line. -/
def deducted (s : State) (line : ℕ) : ℤ :=
  -((linePostings s line .sale).map Posting.quantity).sum

/-- The line is one of the sale. -/
def IsLine (s : State) (id line : ℕ) (item : SaleItem) : Prop :=
  s.sales.items[line]? = some item ∧ item.sale = id

/-- Every line of the sale came back whole. -/
def FullyReturned (s : State) (id : ℕ) : Prop :=
  ∀ line item, IsLine s id line item → item.returnedQuantity = item.quantity

/-- Something of the sale came back, but not everything. -/
def PartlyReturned (s : State) (id : ℕ) : Prop :=
  (∃ line item, IsLine s id line item ∧ 0 < item.returnedQuantity) ∧
    ∃ line item, IsLine s id line item ∧ item.returnedQuantity < item.quantity

/-- A line of the sale has a quantity that does not round to nothing. -/
def SoldSomething (s : State) (id : ℕ) : Prop :=
  ∃ line item, IsLine s id line item ∧ 0 < item.quantity

/-- Returns of the sale give back what was sold, and its status says what came back. -/
structure ReturnsRight (s : State) (id : ℕ) : Prop where
  returned : ∀ line item, IsLine s id line item → item.returnedQuantity ≤ item.quantity
  stock : ∀ line item, IsLine s id line item → restocked s line ≤ deducted s line
  returnedStatus : ∀ sale, s.sales.sales[id]? = some sale →
    (sale.status = .returned ↔ FullyReturned s id)
  partlyStatus : ∀ sale, s.sales.sales[id]? = some sale →
    (sale.status = .partiallyReturned ↔ PartlyReturned s id)

/-! ## The condition -/

/-- The entries of a line that put stock back, each rounded by itself. -/
def restockRequested (r : ReturnRequest) (line : ℕ) : ℤ :=
  (((entriesOf r.items line).filter fun e => r.restock && e.restock).map
    fun e => qty e.quantity).sum

/-- A return of the sale takes back at least a thousandth of some line, its restocked entries
round to no more than what comes back of their line, and it restocks only lines that were
deducted. -/
def ReturnsCleanly (id : ℕ) (s : State) (op : Op) : Prop :=
  ∀ r ∈ op.returnRequest, r.sale = id → op.Accepted s →
    (∃ e ∈ r.items, 0 < qty (requested r.items e.saleItem)) ∧
    (∀ e ∈ r.items, restockRequested r e.saleItem ≤ qty (requested r.items e.saleItem)) ∧
    ∀ e ∈ r.items, (r.restock && e.restock) = true →
      ∀ item ∈ s.sales.items[e.saleItem]?, isRestockable s item = true →
        item.stockWarehouse.isSome = true

instance (id : ℕ) (s : State) (op : Op) : Decidable (ReturnsCleanly id s op) :=
  inferInstanceAs (Decidable (∀ r ∈ op.returnRequest, _))

/-! ## Stock -/

/-- The metres of a line are positive. -/
def MetersPositive (s : State) : Prop :=
  ∀ item ∈ s.sales.items, ∀ m ∈ item.fabricMeterUsed, 0 < m

/-- What was put back for a line, against what came back of it. -/
structure RestockBounded (s : State) (line : ℕ) (item : SaleItem) : Prop where
  unstocked : item.stockWarehouse = none → restocked s line = 0
  pieces : item.fabricMeterUsed = none → restocked s line ≤ item.returnedQuantity
  meters : ∀ m ∈ item.fabricMeterUsed,
    restocked s line * item.quantity ≤ m * item.returnedQuantity

/-- Every line of the sale. -/
def StockBounded (id : ℕ) (s : State) : Prop :=
  ∀ line item, IsLine s id line item → RestockBounded s line item

/-- What the sale deducted for a line, read off the line. -/
lemma deducted_eq {s : State} {line : ℕ} {item : SaleItem} (hs : (salesView s).Recorded)
    (hitem : s.sales.items[line]? = some item) :
    deducted s line = if item.stockWarehouse.isSome then item.inventoryQuantity else 0 := by
  have hlt := hs.item_sale_lt hitem
  unfold deducted
  rw [hs.linePostings_eq hitem (List.getElem?_eq_getElem hlt)]
  unfold deductionOf
  cases item.stockWarehouse with
  | none => rfl
  | some warehouse => simp

/-- The stock put back is bounded by the stock deducted. -/
lemma RestockBounded.le_deducted {s : State} {line : ℕ} {item : SaleItem}
    (h : RestockBounded s line item) (hs : (salesView s).Recorded) (hmeters : MetersPositive s)
    (hreturned : item.returnedQuantity ≤ item.quantity)
    (hitem : s.sales.items[line]? = some item) : restocked s line ≤ deducted s line := by
  have hline := hs.lineRecorded hitem
  rw [deducted_eq hs hitem]
  cases hwarehouse : item.stockWarehouse with
  | none =>
    rw [h.unstocked hwarehouse]
    exact le_rfl
  | some warehouse =>
    have hown : item.customerSuppliedFabric = false := by
      by_contra hfabric
      rw [hline.customerFabric (by simpa using hfabric)] at hwarehouse
      exact nomatch hwarehouse
    rw [Option.isSome_some, if_pos rfl]
    unfold SaleItem.inventoryQuantity
    rw [hown]
    cases hmeter : item.fabricMeterUsed with
    | none => exact (h.pieces hmeter).trans hreturned
    | some m =>
      have hpos := hmeters item (List.mem_of_getElem? hitem) m hmeter
      have hone := (hline.meter (by rw [hmeter]; rfl)).2
      have hbound := h.meters m hmeter
      rw [hone] at hbound hreturned
      have hmost : m * item.returnedQuantity ≤ m * 1000 :=
        mul_le_mul_of_nonneg_left hreturned hpos.le
      change restocked s line ≤ m
      omega

/-! ## Stock, step by step -/

lemma SaleMade.meter_pos {c : Call} {r : CheckoutRequest} {s t : State} {id : ℕ}
    {p : PreparedSale} {number : Text} {items : List SaleItem}
    (h : SaleMade c r s t id p number items) {item : SaleItem} (hitem : item ∈ items) :
    ∀ m ∈ item.fabricMeterUsed, 0 < m := by
  obtain ⟨e, -, warehouse, unitCost, lineCost, -, rfl⟩ := exists_of_forall₂_mem h.stored hitem
  exact e.1.meter_pos

lemma metersPositive_step (s : State) (op : Op) (hs : MetersPositive s) :
    MetersPositive (step s op) := by
  rcases salesView_step s op with hsame | ⟨c, r, id, p, number, items, rfl, hmade⟩
  · intro item hitem m hm
    have hcore : item.core ∈ (salesView s).items := by
      rw [← hsame]
      exact List.mem_map_of_mem hitem
    obtain ⟨old, hold, heq⟩ := List.mem_map.mp hcore
    have hmeter : old.core.fabricMeterUsed = item.core.fabricMeterUsed := by rw [heq]
    change old.fabricMeterUsed = item.fabricMeterUsed at hmeter
    exact hs old hold m (by rwa [hmeter])
  · obtain ⟨totalCost, sequences, hsales⟩ := hmade.sales
    intro item hitem
    rw [hsales] at hitem
    rcases List.mem_append.mp hitem with hold | hnew
    · exact hs item hold
    · exact hmade.meter_pos hnew

/-- An entry puts back at most its own quantity of a line that is counted in pieces. -/
lemma sum_entryRestock_le {r : ReturnRequest} {s : State} {line : ℕ} {item : SaleItem}
    (hitem : s.sales.items[line]? = some item) (hpieces : item.fabricMeterUsed = none) :
    ((entriesOf r.items line).map (entryRestock r s)).sum ≤ restockRequested r line := by
  have hmem : ∀ e ∈ entriesOf r.items line, e.saleItem = line ∧ 0 < e.quantity :=
    fun e he => of_decide_eq_true (List.mem_filter.mp he).2
  unfold restockRequested
  generalize entriesOf r.items line = own at hmem
  induction own with
  | nil => exact le_rfl
  | cons e own ih =>
    obtain ⟨hline, hpos⟩ := hmem e List.mem_cons_self
    have hrest := ih fun e he => hmem e (List.mem_cons_of_mem _ he)
    have hnonneg : 0 ≤ qty e.quantity := qty_nonneg hpos.le
    have hone : entryRestock r s e = if doesRestock r e item = true ∧ isRestockable s item = true
        then qty e.quantity else 0 := by
      rw [entryRestock, hline, hitem, Option.elim_some, hpieces, Option.getD_none]
    rw [List.map_cons, List.sum_cons, List.filter_cons, hone]
    by_cases hrestock : (r.restock && e.restock) = true
    · rw [if_pos hrestock, List.map_cons, List.sum_cons]
      split <;> omega
    · have hnot : ¬ (doesRestock r e item = true ∧ isRestockable s item = true) := by
        rintro ⟨hdoes, -⟩
        unfold doesRestock at hdoes
        rw [Bool.and_assoc, Bool.and_eq_true] at hdoes
        exact hrestock hdoes.2
      rw [if_neg hrestock, if_neg hnot]
      omega

/-- Entries that each name a whole garment put back at most its metres each. -/
lemma sum_entryRestock_meter_le {r : ReturnRequest} {s : State} {line : ℕ} {item : SaleItem}
    {m : ℤ} (hitem : s.sales.items[line]? = some item) (hmeter : item.fabricMeterUsed = some m)
    (hm : 0 ≤ m) (hquantity : 0 ≤ item.quantity)
    (hwhole : ∀ e ∈ r.items, 0 < e.quantity → e.saleItem = line → e.quantity = dec item.quantity) :
    ((entriesOf r.items line).map (entryRestock r s)).sum * item.quantity ≤
      m * qty (requested r.items line) := by
  have hmem : ∀ e ∈ entriesOf r.items line, e.saleItem = line ∧ e.quantity = dec item.quantity := by
    intro e he
    obtain ⟨hentry, hof⟩ := List.mem_filter.mp he
    obtain ⟨hline, hpos⟩ := of_decide_eq_true hof
    exact ⟨hline, hwhole e hentry hpos hline⟩
  have hsum : ∀ own : List ReturnEntry,
      (∀ e ∈ own, e.saleItem = line ∧ e.quantity = dec item.quantity) →
        (own.map (entryRestock r s)).sum ≤ m * own.length ∧
          (own.map ReturnEntry.quantity).sum = dec (own.length * item.quantity) := by
    intro own
    induction own with
    | nil => simp
    | cons e own ih =>
      intro hown
      obtain ⟨hline, hwhole⟩ := hown e List.mem_cons_self
      obtain ⟨hrestock, hsum⟩ := ih fun e he => hown e (List.mem_cons_of_mem _ he)
      have hone : entryRestock r s e ≤ m := by
        rw [entryRestock, hline, hitem, Option.elim_some, hmeter, Option.getD_some]
        split
        · exact le_rfl
        · exact hm
      constructor
      · rw [List.map_cons, List.sum_cons, List.length_cons, Nat.cast_add, Nat.cast_one, mul_add,
          mul_one]
        omega
      · rw [List.map_cons, List.sum_cons, hsum, hwhole, ← dec_add, List.length_cons]
        congr 1
        push_cast
        ring
  obtain ⟨hrestock, hreq⟩ := hsum _ hmem
  have hstored : qty (requested r.items line) = (entriesOf r.items line).length * item.quantity := by
    rw [requested, hreq, qty_dec]
  rw [hstored, ← mul_assoc]
  exact mul_le_mul_of_nonneg_right hrestock hquantity

/-- A line that was not deducted gets nothing back. -/
lemma sum_entryRestock_eq_zero {r : ReturnRequest} {s : State} {line : ℕ} {item : SaleItem}
    (hitem : s.sales.items[line]? = some item) (hnone : item.stockWarehouse = none)
    (hclean : ∀ e ∈ r.items, (r.restock && e.restock) = true →
      ∀ item ∈ s.sales.items[e.saleItem]?, isRestockable s item = true →
        item.stockWarehouse.isSome = true) :
    ((entriesOf r.items line).map (entryRestock r s)).sum = 0 := by
  refine List.sum_eq_zero fun x hx => ?_
  obtain ⟨e, he, rfl⟩ := List.mem_map.mp hx
  obtain ⟨hentry, hof⟩ := List.mem_filter.mp he
  obtain ⟨rfl, -⟩ := of_decide_eq_true hof
  rw [entryRestock, hitem, Option.elim_some, if_neg]
  rintro ⟨hdoes, hrestockable⟩
  unfold doesRestock at hdoes
  rw [Bool.and_assoc, Bool.and_eq_true] at hdoes
  have hsome := hclean e hentry hdoes.2 item hitem hrestockable
  rw [hnone] at hsome
  cases hsome

lemma ReturnMade.stockBounded {r : ReturnRequest} {s t u : State} {p : ReturnProgress} {id : ℕ}
    (h : ReturnMade r s t p u) (hrecorded : (salesView s).Recorded) (hwithin : ReturnedWithin s)
    (hmeters : MetersPositive s)
    (hrounds : r.sale = id → ∀ e ∈ r.items,
      restockRequested r e.saleItem ≤ qty (requested r.items e.saleItem))
    (hdeducted : r.sale = id → ∀ e ∈ r.items, (r.restock && e.restock) = true →
      ∀ item ∈ s.sales.items[e.saleItem]?, isRestockable s item = true →
        item.stockWarehouse.isSome = true)
    (hs : StockBounded id s) : StockBounded id t := by
  rintro line item ⟨hitem, hsale⟩
  obtain ⟨old, hold, hcore, hreturned, -⟩ := h.item hitem
  obtain ⟨hsale_eq, hmeter_eq, hwarehouse_eq, hquantity_eq⟩ :
      old.sale = item.sale ∧ old.fabricMeterUsed = item.fabricMeterUsed ∧
        old.stockWarehouse = item.stockWarehouse ∧ old.quantity = item.quantity := by
    have hfields : ∀ i : SaleItem, (i.core.sale, i.core.fabricMeterUsed, i.core.stockWarehouse,
        i.core.quantity) = (i.sale, i.fabricMeterUsed, i.stockWarehouse, i.quantity) :=
      fun _ => rfl
    have hsame := hfields old
    rw [hcore, hfields item] at hsame
    simpa [eq_comm] using hsame
  have hbefore := hs line old ⟨hold, hsale_eq.trans hsale⟩
  have hafter : item.returnedQuantity = old.returnedQuantity + qty (requested r.items line) := by
    rw [hreturned, qty_dec_add (hwithin line old hold).1 (requested_nonneg _ _)]
  by_cases hid : r.sale = id
  · refine { unstocked := fun hnone => ?_, pieces := fun hpieces => ?_, meters := fun m hm => ?_ }
    · rw [← hwarehouse_eq] at hnone
      rw [h.restocked_eq, hbefore.unstocked hnone,
        sum_entryRestock_eq_zero hold hnone (hdeducted hid), add_zero]
    · rw [← hmeter_eq] at hpieces
      have hkept := hbefore.pieces hpieces
      have hnew := sum_entryRestock_le (r := r) hold hpieces
      have hround : restockRequested r line ≤ qty (requested r.items line) := by
        by_cases hentry : ∃ e ∈ r.items, e.saleItem = line
        · obtain ⟨e, he, rfl⟩ := hentry
          exact hrounds hid e he
        · have hnone : entriesOf r.items line = [] := by
            refine List.filter_eq_nil_iff.mpr fun e he => ?_
            rw [decide_eq_true_eq]
            exact fun hline => hentry ⟨e, he, hline.1⟩
          rw [restockRequested, requested, hnone]
          simp
      rw [h.restocked_eq, hafter]
      omega
    · rw [← hmeter_eq] at hm
      have hkept := hbefore.meters m hm
      have hpos := hmeters old (List.mem_of_getElem? hold) m hm
      have hnonneg := (hrecorded.lineRecorded hold).quantity_nonneg
      have hnew := sum_entryRestock_meter_le (r := r) hold hm hpos.le hnonneg ?_
      · rw [h.restocked_eq, hafter, ← hquantity_eq, add_mul, mul_add]
        omega
      · rintro e he hpositive rfl
        exact h.loop.whole e he hpositive old hold (by rw [hm]; rfl)
  · have hnone := h.entriesOf_other hold fun hr => hid (hr.symm.trans (hsale_eq.trans hsale))
    have hsame : item.returnedQuantity = old.returnedQuantity := by
      rw [hafter, requested, hnone]
      simp
    have hstock : restocked t line = restocked s line := by
      rw [h.restocked_eq, hnone, List.map_nil, List.sum_nil, add_zero]
    refine { unstocked := fun hw => ?_, pieces := fun hp => ?_, meters := fun m hm => ?_ }
    · rw [hstock]
      exact hbefore.unstocked (hwarehouse_eq.trans hw)
    · rw [hstock, hsame]
      exact hbefore.pieces (hmeter_eq.trans hp)
    · rw [hstock, hsame, ← hquantity_eq]
      exact hbefore.meters m (by rwa [hmeter_eq])

/-- What the steps keep about every sale. -/
structure SalesInvariant (s : State) : Prop where
  recorded : (salesView s).Recorded
  linked : Linked s
  returns : ReturnsRecorded s
  meters : MetersPositive s

lemma salesInvariant_step (s : State) (op : Op) (hs : SalesInvariant s) :
    SalesInvariant (step s op) where
  recorded := recorded_step s op hs.recorded
  linked := linked_step s op hs.linked
  returns := returnsRecorded_step s op hs.linked hs.returns
  meters := metersPositive_step s op hs.meters

lemma stockBounded_step {id : ℕ} (s : State) (op : Op) (hs : SalesInvariant s)
    (hclean : ReturnsCleanly id s op) (hbound : StockBounded id s) :
    StockBounded id (step s op) := by
  by_cases haccepted : op.Accepted s
  · cases returnStep s op with
    | same h =>
      rintro line item ⟨hitem, hsale⟩
      rw [h.items] at hitem
      have hbefore := hbound line item ⟨hitem, hsale⟩
      exact ⟨by rw [h.stock]; exact hbefore.unstocked, by rw [h.stock]; exact hbefore.pieces,
        by rw [h.stock]; exact hbefore.meters⟩
    | @made c r sid p number items h hstock =>
      obtain ⟨totalCost, sequences, hsales⟩ := h.sales
      rintro line item ⟨hitem, hsale⟩
      rw [hsales] at hitem
      rcases getElem?_append_eq_some.mp hitem with hold | ⟨hnew, hmem⟩
      · have hbefore := hbound line item ⟨hold, hsale⟩
        exact ⟨by rw [hstock]; exact hbefore.unstocked, by rw [hstock]; exact hbefore.pieces,
          by rw [hstock]; exact hbefore.meters⟩
      · have hzero := h.returnedQuantity_eq (List.mem_of_getElem? hmem)
        have hnone := hs.returns.stray line hnew
        exact ⟨by rw [hstock]; exact fun _ => hnone, by rw [hstock, hnone, hzero]; simp,
          by rw [hstock, hnone, hzero]; simp⟩
    | returned h =>
      obtain ⟨p, u, hmade⟩ := returnMade_of_runs hs.returns.within h
      exact hmade.stockBounded hs.recorded hs.returns.within hs.meters
        (fun hid => (hclean _ rfl hid haccepted).2.1)
        (fun hid => (hclean _ rfl hid haccepted).2.2) hbound
  · rw [step_of_not_accepted haccepted]
    exact hbound

/-! ## Status -/

/-- The status of a sale that sold something says what came back of it. -/
def StatusRight (s : State) (id : ℕ) : Prop :=
  ∀ sale, s.sales.sales[id]? = some sale → SoldSomething s id →
    (sale.status = .returned ↔ FullyReturned s id) ∧
      (sale.status = .partiallyReturned ↔ PartlyReturned s id)

/-- The lines of the sale are as they were, and so is what its status says about returns. -/
lemma StatusRight.of_same {s t : State} {id : ℕ}
    (hlines : ∀ line item, IsLine t id line item ↔ IsLine s id line item)
    (hstatus : ∀ sale, t.sales.sales[id]? = some sale → ∃ old, s.sales.sales[id]? = some old ∧
      (sale.status = .returned ↔ old.status = .returned) ∧
      (sale.status = .partiallyReturned ↔ old.status = .partiallyReturned))
    (hs : StatusRight s id) : StatusRight t id := by
  intro sale hsale hsold
  obtain ⟨old, hold, hreturned, hpartial⟩ := hstatus sale hsale
  unfold SoldSomething FullyReturned PartlyReturned at *
  simp only [hlines] at hsold ⊢
  rw [hreturned, hpartial]
  exact hs old hold hsold

/-- Nothing came back of the sale, and its status does not say so. -/
lemma StatusRight.of_untouched {t : State} {id : ℕ}
    (hzero : ∀ line item, IsLine t id line item → item.returnedQuantity = 0)
    (hstatus : ∀ sale, t.sales.sales[id]? = some sale →
      sale.status ≠ .returned ∧ sale.status ≠ .partiallyReturned) : StatusRight t id := by
  rintro sale hsale ⟨line, item, hline, hpos⟩
  obtain ⟨hreturned, hpartial⟩ := hstatus sale hsale
  refine ⟨⟨fun h => absurd h hreturned, fun h => ?_⟩, ⟨fun h => absurd h hpartial, ?_⟩⟩
  · have hfull := h line item hline
    rw [hzero line item hline] at hfull
    omega
  · rintro ⟨⟨line, item, hline, hpos⟩, -⟩
    rw [hzero line item hline] at hpos
    omega

/-- A sum of parts that are each within their whole reaches the sum of the wholes exactly when
every part is its whole. -/
lemma sum_le_sum_iff_forall_eq {α : Type} {f g : α → ℤ} {l : List α} (h : ∀ x ∈ l, f x ≤ g x) :
    (l.map g).sum ≤ (l.map f).sum ↔ ∀ x ∈ l, f x = g x := by
  induction l with
  | nil => simp
  | cons a l ih =>
    have ha := h a List.mem_cons_self
    have hl : ∀ x ∈ l, f x ≤ g x := fun x hx => h x (List.mem_cons_of_mem _ hx)
    have hle := List.sum_le_sum hl
    rw [List.forall_mem_cons, ← ih hl, List.map_cons, List.map_cons, List.sum_cons, List.sum_cons]
    constructor
    · intro hsum
      constructor <;> omega
    · rintro ⟨heq, hsum⟩
      omega

/-- The status a return leaves, when something of the sale has come back. -/
lemma returnStatus_eq {u : State} {id : ℕ}
    (hwithin : ∀ line item, IsLine u id line item →
      0 ≤ item.returnedQuantity ∧ item.returnedQuantity ≤ item.quantity)
    (hsome : ∃ line item, IsLine u id line item ∧ 0 < item.returnedQuantity) :
    (returnStatus u id = .returned ↔ FullyReturned u id) ∧
      (returnStatus u id = .partiallyReturned ↔ PartlyReturned u id) := by
  have hmem : ∀ e, e ∈ itemsOfSale u id ↔ IsLine u id e.1 e.2 := fun e => mem_childrenOf
  have hnonneg : ∀ e ∈ itemsOfSale u id, 0 ≤ e.2.returnedQuantity :=
    fun e he => (hwithin _ _ ((hmem e).mp he)).1
  have hle : ∀ e ∈ itemsOfSale u id, e.2.returnedQuantity ≤ e.2.quantity :=
    fun e he => (hwithin _ _ ((hmem e).mp he)).2
  have hreturned : 0 < ((itemsOfSale u id).map fun e => e.2.returnedQuantity).sum := by
    obtain ⟨line, item, hline, hpos⟩ := hsome
    have hparts : ∀ x ∈ (itemsOfSale u id).map fun e => e.2.returnedQuantity, 0 ≤ x := by
      intro x hx
      obtain ⟨e, he, rfl⟩ := List.mem_map.mp hx
      exact hnonneg e he
    have hone := List.single_le_sum hparts item.returnedQuantity
      (List.mem_map.mpr ⟨(line, item), (hmem _).mpr hline, rfl⟩)
    omega
  have hsold := List.sum_le_sum hle
  have hfull : FullyReturned u id ↔
      ((itemsOfSale u id).map fun e => e.2.quantity).sum ≤
        ((itemsOfSale u id).map fun e => e.2.returnedQuantity).sum := by
    rw [sum_le_sum_iff_forall_eq hle]
    constructor
    · exact fun h e he => h _ _ ((hmem e).mp he)
    · exact fun h line item hline => h (line, item) ((hmem _).mpr hline)
  have hpart : PartlyReturned u id ↔ ¬ FullyReturned u id := by
    constructor
    · rintro ⟨-, line, item, hline, hlt⟩ hall
      have heq := hall line item hline
      omega
    · intro hnot
      unfold FullyReturned at hnot
      push Not at hnot
      obtain ⟨line, item, hline, hne⟩ := hnot
      exact ⟨hsome, line, item, hline, lt_of_le_of_ne (hwithin _ _ hline).2 hne⟩
  unfold returnStatus
  dsimp only
  rw [hpart, hfull]
  split <;> simp <;> omega

lemma SaleItem.eq_of_core {i j : SaleItem} (hcore : i.core = j.core)
    (hreturned : i.returnedQuantity = j.returnedQuantity) : i = j := by
  have hself : ∀ i : SaleItem, i = { i.core with returnedQuantity := i.returnedQuantity } :=
    fun _ => rfl
  rw [hself i, hself j, hcore, hreturned]

/-- A line that is there before a return is there after it. -/
lemma ReturnMade.line {r : ReturnRequest} {s t u : State} {p : ReturnProgress}
    (h : ReturnMade r s t p u) (hwithin : ReturnedWithin s) {line : ℕ} {old : SaleItem}
    (hold : s.sales.items[line]? = some old) :
    ∃ item, t.sales.items[line]? = some item ∧ old.core = item.core ∧
      item.returnedQuantity = old.returnedQuantity + qty (requested r.items line) := by
  have hlt : line < t.sales.items.length := by
    rw [h.length_items]
    exact (List.getElem?_eq_some_iff.mp hold).1
  obtain ⟨old', hold', hcore, hreturned, -⟩ := h.item (List.getElem?_eq_getElem hlt)
  rw [hold] at hold'
  obtain rfl := Option.some.inj hold'
  refine ⟨_, List.getElem?_eq_getElem hlt, hcore, ?_⟩
  rw [hreturned, qty_dec_add (hwithin line old hold).1 (requested_nonneg _ _)]

/-- A return leaves the lines of the other sales as they were. -/
lemma ReturnMade.isLine_other {r : ReturnRequest} {s t u : State} {p : ReturnProgress} {id : ℕ}
    (h : ReturnMade r s t p u) (hwithin : ReturnedWithin s) (hid : r.sale ≠ id) (line : ℕ)
    (item : SaleItem) : IsLine t id line item ↔ IsLine s id line item := by
  have hsame : ∀ {old new : SaleItem}, s.sales.items[line]? = some old → old.sale = id →
      old.core = new.core →
      new.returnedQuantity = old.returnedQuantity + qty (requested r.items line) → old = new := by
    intro old new hold hsale hcore hreturned
    have hnone := h.entriesOf_other hold fun hr => hid (hr.symm.trans hsale)
    rw [requested, hnone, List.map_nil, List.sum_nil, qty_zero, add_zero] at hreturned
    exact SaleItem.eq_of_core hcore hreturned.symm
  constructor
  · rintro ⟨hitem, hsale⟩
    obtain ⟨old, hold, hcore, hreturned, -⟩ := h.item hitem
    have hsale_eq : old.core.sale = item.core.sale := by rw [hcore]
    change old.sale = item.sale at hsale_eq
    rw [qty_dec_add (hwithin line old hold).1 (requested_nonneg _ _)] at hreturned
    rw [← hsame hold (hsale_eq.trans hsale) hcore hreturned]
    exact ⟨hold, hsale_eq.trans hsale⟩
  · rintro ⟨hold, hsale⟩
    obtain ⟨new, hnew, hcore, hreturned⟩ := h.line hwithin hold
    rw [hsame hold hsale hcore hreturned]
    rw [hsame hold hsale hcore hreturned] at hsale
    exact ⟨hnew, hsale⟩

lemma ReturnMade.statusRight {r : ReturnRequest} {s t u : State} {p : ReturnProgress} {id : ℕ}
    (h : ReturnMade r s t p u) (hwithin : ReturnedWithin s)
    (hsome : r.sale = id → ∃ e ∈ r.items, 0 < qty (requested r.items e.saleItem))
    (hs : StatusRight s id) : StatusRight t id := by
  obtain ⟨header, -, -, hsales⟩ := h.sales
  have hrow : ∀ sale, t.sales.sales[id]? = some sale → ∃ old, s.sales.sales[id]? = some old ∧
      (if r.sale = id then { old with status := returnStatus u r.sale } else old) = sale := by
    intro sale hsale
    rw [hsales] at hsale
    exact getElem?_modify_eq_some.mp hsale
  by_cases hid : r.sale = id
  · have hlines : ∀ line item, IsLine u id line item ↔ IsLine t id line item := by
      intro line item
      unfold IsLine
      rw [h.items]
    have hreturned : ∃ line item, IsLine u id line item ∧ 0 < item.returnedQuantity := by
      obtain ⟨e, he, hpos⟩ := hsome hid
      have hof := h.items_of e he
      unfold isItemOfSale at hof
      rw [Option.any_eq_true] at hof
      obtain ⟨old, hold, hsale⟩ := hof
      obtain ⟨item, hitem, hcore, hafter⟩ := h.line hwithin hold
      have hsale_eq : old.core.sale = item.core.sale := by rw [hcore]
      change old.sale = item.sale at hsale_eq
      have hnonneg := (hwithin e.saleItem old hold).1
      refine ⟨e.saleItem, item, (hlines _ _).mpr ⟨hitem, ?_⟩, by omega⟩
      rw [← hsale_eq, of_decide_eq_true hsale, hid]
    have hkept : ∀ line item, IsLine u id line item →
        0 ≤ item.returnedQuantity ∧ item.returnedQuantity ≤ item.quantity :=
      fun line item hline => h.returnedWithin hwithin line item ((hlines line item).mp hline).1
    obtain ⟨hfull, hpart⟩ := returnStatus_eq hkept hreturned
    unfold FullyReturned at hfull
    unfold PartlyReturned at hpart
    simp only [hlines] at hfull hpart
    intro sale hsale _
    obtain ⟨old, -, rfl⟩ := hrow sale hsale
    rw [if_pos hid, hid]
    exact ⟨hfull, hpart⟩
  · refine hs.of_same (h.isLine_other hwithin hid) fun sale hsale => ?_
    obtain ⟨old, hold, rfl⟩ := hrow sale hsale
    rw [if_neg hid]
    exact ⟨old, hold, Iff.rfl, Iff.rfl⟩

/-- A new sale has a status of its own, and the old ones keep theirs. -/
lemma SaleMade.statusRight {c : Call} {r : CheckoutRequest} {s t : State} {sid id : ℕ}
    {p : PreparedSale} {number : Text} {items : List SaleItem}
    (h : SaleMade c r s t sid p number items) (hrecorded : (salesView s).Recorded)
    (hs : StatusRight s id) : StatusRight t id := by
  obtain ⟨totalCost, sequences, hsales⟩ := h.sales
  by_cases hid : sid = id
  · subst hid
    refine .of_untouched ?_ ?_
    · rintro line item ⟨hitem, hsale⟩
      rw [hsales] at hitem
      rcases getElem?_append_eq_some.mp hitem with hold | ⟨-, hnew⟩
      · have hlt := hrecorded.item_sale_lt hold
        have hsid := h.id_eq
        omega
      · exact h.returnedQuantity_eq (List.mem_of_getElem? hnew)
    · intro sale hsale
      rw [hsales, h.id_eq] at hsale
      dsimp only at hsale
      rw [List.getElem?_concat_length] at hsale
      obtain rfl := Option.some.inj hsale
      unfold settledSale creditStatus saleRow
      dsimp only
      split
      · split <;> exact ⟨by simp, by simp⟩
      · exact ⟨by simp, by simp⟩
  · refine hs.of_same (fun line item => ?_) fun sale hsale => ⟨sale, ?_, Iff.rfl, Iff.rfl⟩
    · unfold IsLine
      rw [hsales]
      dsimp only
      rw [getElem?_append_eq_some]
      constructor
      · rintro ⟨hold | ⟨-, hnew⟩, hsale⟩
        · exact ⟨hold, hsale⟩
        · rw [(h.lineRecorded (List.mem_of_getElem? hnew)).1] at hsale
          exact absurd hsale hid
      · exact fun hold => ⟨.inl hold.1, hold.2⟩
    · rw [hsales] at hsale
      rcases getElem?_concat_eq_some.mp hsale with hold | ⟨hlength, -⟩
      · exact hold
      · exact absurd (h.id_eq.trans hlength.symm) hid

lemma statusRight_step {id : ℕ} (s : State) (op : Op) (hs : SalesInvariant s)
    (hclean : ReturnsCleanly id s op) (hright : StatusRight s id) :
    StatusRight (step s op) id := by
  by_cases haccepted : op.Accepted s
  · cases salesStep s op with
    | same h =>
      refine hright.of_same (fun line item => ?_) fun sale hsale => ⟨sale, ?_, Iff.rfl, Iff.rfl⟩
      · unfold IsLine
        rw [h]
      · rwa [h] at hsale
    | method h =>
      refine hright.of_same (fun line item => ?_) fun sale hsale => ⟨sale, ?_, Iff.rfl, Iff.rfl⟩
      · unfold IsLine
        rw [h]
        rfl
      · rw [h] at hsale
        exact hsale
    | made h => exact h.statusRight hs.recorded hright
    | @paid c r h =>
      obtain ⟨sale, amount, -, ht⟩ := runs_addSalePayment h
      have hrows : (step s (.addSalePayment c r)).sales.sales =
          s.sales.sales.modify r.sale (paidSale { s with
            sales.payments := (step s (.addSalePayment c r)).sales.payments } r.sale amount) := by
        rw [ht]
        rfl
      refine hright.of_same (fun line item => ?_) fun sale hsale => ?_
      · unfold IsLine
        rw [ht]
        rfl
      · rw [hrows] at hsale
        obtain ⟨old, hold, rfl⟩ := getElem?_modify_eq_some.mp hsale
        refine ⟨old, hold, ?_⟩
        split
        · unfold paidSale
          dsimp only
          split
          · rename_i hopen
            split <;> rcases hopen with hopen | hopen <;> simp [hopen]
          · exact ⟨Iff.rfl, Iff.rfl⟩
        · exact ⟨Iff.rfl, Iff.rfl⟩
    | @voided c vid h =>
      obtain ⟨sale, amounts, rows, u, hcheck, -, hmoved, ht⟩ := runs_voidSale h
      obtain ⟨-, -, hreturns, -⟩ := checkVoid_ok hcheck
      have hsales := sales_applyVoid c vid sale amounts u
      rw [sales_of_rest hmoved.rest, ← ht] at hsales
      have hlines : ∀ line item, IsLine (step s (.voidSale c vid)) id line item ↔
          IsLine s id line item := by
        intro line item
        unfold IsLine
        rw [hsales]
      by_cases hid : vid = id
      · refine .of_untouched ?_ ?_
        · intro line item hline
          obtain ⟨hitem, hsale⟩ := (hlines line item).mp hline
          refine hs.returns.untouched line item hitem ?_
          rw [hsale, ← hid]
          exact hreturns
        · intro sale hsale
          rw [hsales] at hsale
          obtain ⟨old, hold, rfl⟩ := getElem?_modify_eq_some.mp hsale
          rw [if_pos hid]
          exact ⟨by simp, by simp⟩
      · refine hright.of_same hlines fun sale hsale => ⟨sale, ?_, Iff.rfl, Iff.rfl⟩
        rw [hsales] at hsale
        obtain ⟨old, hold, heq⟩ := getElem?_modify_eq_some.mp hsale
        rw [if_neg hid] at heq
        rwa [← heq]
    | returned h =>
      obtain ⟨p, u, hmade⟩ := returnMade_of_runs hs.returns.within h
      exact hmade.statusRight hs.returns.within
        (fun hid => (hclean _ rfl hid haccepted).1) hright
  · rw [step_of_not_accepted haccepted]
    exact hright

/-! ## Every run -/

/-- **Returns.**  When a sale has a line whose quantity does not round to nothing, and every
return of it takes back something that is stored, rounds what it restocks of a line to no more
than what comes back of it, and restocks only what was deducted, then what came back of each line
is at most what was sold, the stock put back is at most the stock deducted, and the status of the
sale says what came back. -/
theorem returns_right {ops : List Op} {id : ℕ} (hsold : SoldSomething (history ops) id)
    (hclean : Trace.All step (ReturnsCleanly id) State.empty ops) :
    ReturnsRight (history ops) id := by
  let kept : State → Prop := fun s => SalesInvariant s ∧ StockBounded id s ∧ StatusRight s id
  have hstep : ∀ s op, ReturnsCleanly id s op → kept s → kept (step s op) := by
    rintro s op hop ⟨hsales, hstock, hstatus⟩
    exact ⟨salesInvariant_step s op hsales, stockBounded_step s op hsales hop hstock,
      statusRight_step s op hsales hop hstatus⟩
  have hempty : kept State.empty := by
    refine ⟨⟨recorded_history [], linked_history [], returnsRecorded_history [], ?_⟩, ?_, ?_⟩
    · exact fun item hitem => absurd hitem List.not_mem_nil
    · exact fun line item hline => nomatch hline.1
    · exact fun sale hsale => nomatch hsale
  obtain ⟨hsales, hstock, hstatus⟩ : kept (history ops) :=
    Trace.invariant_of_all hstep hempty hclean
  have hreturned : ∀ line item, IsLine (history ops) id line item →
      item.returnedQuantity ≤ item.quantity :=
    fun line item hline => (hsales.returns.within line item hline.1).2
  refine {
    returned := hreturned
    stock := fun line item hline => ?_
    returnedStatus := fun sale hsale => (hstatus sale hsale hsold).1
    partlyStatus := fun sale hsale => (hstatus sale hsale hsold).2 }
  exact (hstock line item hline).le_deducted hsales.recorded hsales.meters
    (hreturned line item hline) hline.1

/-- One piece is sold and taken back by a request that splits it. -/
def splitReturn (first second : ℚ) : List Op := Shop.stocked 20000 ++ [
  Shop.sell 1 [⟨0, 20⟩],
  .processReturn Shop.call {
    sale := 0, items := [⟨0, first, true⟩, ⟨0, second, true⟩], refundMethod := .cash }]

theorem returns_right_run : ReturnsRight (history (splitReturn (1 / 4) (1 / 2))) 0 := by
  refine returns_right ?_ (by decide +kernel)
  have hsome : ((history (splitReturn (1 / 4) (1 / 2))).sales.items[0]?).any
      (fun item => item.sale = 0 ∧ 0 < item.quantity) = true := by
    decide +kernel
  rw [Option.any_eq_true] at hsome
  obtain ⟨item, hitem, hsale⟩ := hsome
  obtain ⟨hsale, hpos⟩ := of_decide_eq_true hsale
  exact ⟨0, item, ⟨hitem, hsale⟩, hpos⟩

/-- Half a thousandth more or less than a half: both parts are rounded up, and 1.001 come back
of the one piece that was sold. -/
theorem returns_wrong :
    restocked (history (splitReturn (4995 / 10000) (5005 / 10000))) 0 = 1001 ∧
      deducted (history (splitReturn (4995 / 10000) (5005 / 10000))) 0 = 1000 ∧
      ¬ ReturnsRight (history (splitReturn (4995 / 10000) (5005 / 10000))) 0 := by
  have hrestocked : restocked (history (splitReturn (4995 / 10000) (5005 / 10000))) 0 = 1001 := by
    decide +kernel
  have hdeducted : deducted (history (splitReturn (4995 / 10000) (5005 / 10000))) 0 = 1000 := by
    decide +kernel
  refine ⟨hrestocked, hdeducted, fun h => ?_⟩
  have hsome : ((history (splitReturn (4995 / 10000) (5005 / 10000))).sales.items[0]?).any
      (fun item => item.sale = 0) = true := by
    decide +kernel
  rw [Option.any_eq_true] at hsome
  obtain ⟨item, hitem, hsale⟩ := hsome
  have hle := h.stock 0 item ⟨hitem, of_decide_eq_true hsale⟩
  omega

end NexaPos
