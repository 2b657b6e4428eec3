import NexaPos.Properties.SaleRecords

/-!
# What returns record

`process_return` works through its entries one by one, with an unrounded count of what came back
of every line.  `ReturnLoop` is the state of that loop after the entries `done`: what each line
got back, refunded and put back in stock is the sum over the entries of that line.

Over whole histories, what was returned of a line stays between nothing and what was sold, and
the refunds of a sale's returns are the refunds of its lines (`ReturnsRecorded`).
-/

namespace NexaPos

open Tx

/-! ## Sums over return lines -/

/-- The return rows of a line. -/
def returnRows (s : State) (line : ℕ) : List SaleReturnItem :=
  s.sales.returnItems.filter fun x => x.saleItem = line

/-- What was refunded for a line. -/
def lineRefunds (s : State) (line : ℕ) : ℤ :=
  ((returnRows s line).map SaleReturnItem.lineRefund).sum

/-- What returns put back in stock for a line. -/
def restocked (s : State) (line : ℕ) : ℤ :=
  ((linePostings s line .saleReturn).map Posting.quantity).sum

/-- The keys of the lines of a sale. -/
def saleLines (s : State) (id : ℕ) : List ℕ := (itemsOfSale s id).map Prod.fst

/-- The arguments of a return. -/
def Op.returnRequest : Op → Option ReturnRequest
  | .processReturn _ r => some r
  | _ => none

/-- The entries of a request that take back something of a line. -/
def entriesOf (entries : List ReturnEntry) (line : ℕ) : List ReturnEntry :=
  entries.filter fun e => e.saleItem = line ∧ 0 < e.quantity

/-- What a request takes back of a line. -/
def requested (entries : List ReturnEntry) (line : ℕ) : ℚ :=
  ((entriesOf entries line).map ReturnEntry.quantity).sum

/-- The refund of one unit of a line. -/
def unitRefund (s : State) (line : ℕ) : ℤ :=
  (s.sales.items[line]?.map refundPerUnit).getD 0

/-- The refund of an entry. -/
def entryRefund (s : State) (e : ReturnEntry) : ℤ :=
  if 0 < e.quantity then money (dec (unitRefund s e.saleItem) * e.quantity) else 0

/-- The stock an entry puts back. -/
def entryRestock (r : ReturnRequest) (s : State) (e : ReturnEntry) : ℤ :=
  (s.sales.items[e.saleItem]?).elim 0 fun item =>
    if doesRestock r e item = true ∧ isRestockable s item = true then
      item.fabricMeterUsed.getD (qty e.quantity)
    else
      0

lemma entriesOf_append (done : List ReturnEntry) (e : ReturnEntry) (line : ℕ) :
    entriesOf (done ++ [e]) line =
      entriesOf done line ++ if e.saleItem = line ∧ 0 < e.quantity then [e] else [] := by
  unfold entriesOf
  rw [List.filter_append]
  by_cases h : e.saleItem = line ∧ 0 < e.quantity <;> simp [h]

lemma entriesOf_skip {e : ReturnEntry} (he : e.quantity ≤ 0) (done : List ReturnEntry)
    (line : ℕ) : entriesOf (done ++ [e]) line = entriesOf done line := by
  rw [entriesOf_append, if_neg fun h => absurd h.2 (not_lt.mpr he), List.append_nil]

lemma requested_nonneg (entries : List ReturnEntry) (line : ℕ) : 0 ≤ requested entries line := by
  unfold requested
  refine List.sum_nonneg fun x hx => ?_
  obtain ⟨e, he, rfl⟩ := List.mem_map.mp hx
  exact (of_decide_eq_true (List.mem_filter.mp he).2).2.le

lemma requested_append (done : List ReturnEntry) (e : ReturnEntry) (line : ℕ) :
    requested (done ++ [e]) line =
      requested done line + if e.saleItem = line ∧ 0 < e.quantity then e.quantity else 0 := by
  unfold requested
  rw [entriesOf_append, List.map_append, List.sum_append]
  congr 1
  split <;> simp

/-! ## What the loop reads does not change -/

/-- A line read through its fixed columns. -/
lemma item_of_core {s₀ s : State}
    (h : s.sales.items.map SaleItem.core = s₀.sales.items.map SaleItem.core) {line : ℕ}
    {item : SaleItem} (hitem : s.sales.items[line]? = some item) :
    ∃ item₀, s₀.sales.items[line]? = some item₀ ∧ item₀.core = item.core := by
  have hcore : (s₀.sales.items.map SaleItem.core)[line]? = some item.core := by
    rw [← h, List.getElem?_map, hitem, Option.map_some]
  rw [List.getElem?_map] at hcore
  exact Option.map_eq_some_iff.mp hcore

lemma refundPerUnit_of_core {i j : SaleItem} (h : i.core = j.core) :
    refundPerUnit i = refundPerUnit j := by
  have hcore : ∀ i : SaleItem, refundPerUnit i.core = refundPerUnit i := fun _ => rfl
  rw [← hcore i, ← hcore j, h]

/-- Whether a product is stocked does not depend on its cost cache. -/
lemma isStockedProduct_of_shape {s t : State} (h : t.catalog.shape = s.catalog.shape)
    (product : ℕ) : isStockedProduct t product = isStockedProduct s product := by
  have hshape : ∀ s : State, isStockedProduct s product =
      ((s.catalog.shape.products)[product]?).any Product.isStocked := by
    intro s
    unfold isStockedProduct Catalog.shape
    rw [List.getElem?_map]
    cases s.catalog.products[product]? <;> rfl
  rw [hshape t, hshape s, h]

lemma isRestockable_of_core {s t : State} (h : t.catalog.shape = s.catalog.shape)
    {i j : SaleItem} (hij : i.core = j.core) : isRestockable t i = isRestockable s j := by
  have hcore : ∀ i : SaleItem, isRestockable t i.core = isRestockable t i := fun _ => rfl
  rw [← hcore i, hij, hcore j]
  unfold isRestockable
  rw [isStockedProduct_of_shape h]

/-! ## The loop -/

/-- The loop of a return that started in `s₀`, after the entries `done`. -/
structure ReturnLoop (r : ReturnRequest) (s₀ : State) (done : List ReturnEntry)
    (p : ReturnProgress) (s : State) : Prop where
  core : s.sales.items.map SaleItem.core = s₀.sales.items.map SaleItem.core
  catalog : s.catalog.shape = s₀.catalog.shape
  progress : ∀ line, p.returned line = (startProgress s₀).returned line + requested done line
  refundTotal : p.refundTotal = (done.map (entryRefund s₀)).sum
  stored : ∀ (line : ℕ) item, s.sales.items[line]? = some item →
    item.returnedQuantity = qty (p.returned line)
  within : ∀ (line : ℕ) item, s.sales.items[line]? = some item →
    p.returned line ≤ dec item.quantity
  rows : ∀ line, (returnRows s line).map SaleReturnItem.lineRefund =
    (returnRows s₀ line).map SaleReturnItem.lineRefund ++
      (entriesOf done line).map (entryRefund s₀)
  stock : ∀ line, restocked s line =
    restocked s₀ line + ((entriesOf done line).map (entryRestock r s₀)).sum
  whole : ∀ e ∈ done, 0 < e.quantity → ∀ item, s₀.sales.items[e.saleItem]? = some item →
    item.fabricMeterUsed.isSome = true → e.quantity = dec item.quantity

/-- An entry that takes nothing back is skipped. -/
lemma ReturnLoop.skip {r : ReturnRequest} {s₀ s : State} {done : List ReturnEntry}
    {p : ReturnProgress} {e : ReturnEntry} (h : ReturnLoop r s₀ done p s) (he : e.quantity ≤ 0) :
    ReturnLoop r s₀ (done ++ [e]) p s where
  core := h.core
  catalog := h.catalog
  progress line := by
    rw [h.progress, requested_append, if_neg fun h => absurd h.2 (not_lt.mpr he), add_zero]
  refundTotal := by
    have hzero : entryRefund s₀ e = 0 := if_neg (not_lt.mpr he)
    rw [h.refundTotal, List.map_append, List.sum_append, List.map_singleton, List.sum_singleton,
      hzero, add_zero]
  stored := h.stored
  within := h.within
  rows line := by rw [h.rows, entriesOf_skip he]
  stock line := by rw [h.stock, entriesOf_skip he]
  whole e' he' hpos := by
    rcases List.mem_append.mp he' with he' | he'
    · exact h.whole e' he' hpos
    · rw [List.mem_singleton.mp he'] at hpos
      exact absurd hpos (not_lt.mpr he)

/-- The other entries take back their quantity. -/
lemma ReturnLoop.line {c : Call} {r : ReturnRequest} {sale : Sale} {saleReturn number : ℕ}
    {s₀ s t : State} {done : List ReturnEntry} {p p' : ReturnProgress} {e : ReturnEntry}
    {item : SaleItem} (h : ReturnLoop r s₀ done p s)
    (hline : LineReturned c r sale saleReturn number e item p p' s t) :
    ReturnLoop r s₀ (done ++ [e]) p' t := by
  obtain ⟨item₀, hitem₀, hcore₀⟩ := item_of_core h.core hline.line
  have hpos := hline.positive
  have hsales := sales_of_rest hline.rest
  have hshape : t.catalog.shape = s.catalog.shape := congrArg (fun x => x.2.1) hline.rest
  have hunit : unitRefund s₀ e.saleItem = refundPerUnit item := by
    rw [unitRefund, hitem₀, Option.map_some, Option.getD_some, refundPerUnit_of_core hcore₀]
  have hrefund : entryRefund s₀ e = money (dec (refundPerUnit item) * e.quantity) := by
    rw [entryRefund, if_pos hpos, hunit]
  have hrestockable : isRestockable s item = isRestockable s₀ item₀ :=
    isRestockable_of_core h.catalog hcore₀.symm
  have hprogress : ∀ line, p'.returned line = if line = e.saleItem
      then p.returned e.saleItem + e.quantity else p.returned line := by
    intro line
    rw [hline.progress]
    exact Function.update_apply _ _ _ _
  have hmod : ∀ {line : ℕ} {item' : SaleItem}, t.sales.items[line]? = some item' →
      ∃ a, s.sales.items[line]? = some a ∧ (if e.saleItem = line then { a with
        returnedQuantity := qty (p.returned e.saleItem + e.quantity) } else a) = item' := by
    intro line item' hitem'
    rw [hsales] at hitem'
    exact getElem?_modify_eq_some.mp hitem'
  refine {
    core := ?_
    catalog := hshape.trans h.catalog
    progress := fun line => ?_
    refundTotal := ?_
    stored := fun line item' hitem' => ?_
    within := fun line item' hitem' => ?_
    rows := fun line => ?_
    stock := fun line => ?_
    whole := fun e' he' hpos' item' hitem' hmeter => ?_ }
  · rw [hsales, ← h.core]
    refine map_modify_of_eq ?_ _ _
    intro a
    rfl
  · rw [hprogress, requested_append]
    by_cases hsame : line = e.saleItem
    · rw [if_pos hsame, if_pos ⟨hsame.symm, hpos⟩, hsame, h.progress, add_assoc]
    · rw [if_neg hsame, if_neg fun h => hsame h.1.symm, h.progress, add_zero]
  · rw [hline.progress, List.map_append, List.sum_append, ← h.refundTotal, List.map_singleton,
      List.sum_singleton, hrefund]
  · obtain ⟨a, ha, rfl⟩ := hmod hitem'
    rw [hprogress]
    by_cases hsame : line = e.saleItem
    · rw [if_pos hsame, if_pos hsame.symm]
    · rw [if_neg hsame, if_neg (Ne.symm hsame)]
      exact h.stored line a ha
  · obtain ⟨a, ha, rfl⟩ := hmod hitem'
    rw [hprogress]
    by_cases hsame : line = e.saleItem
    · rw [if_pos hsame, if_pos hsame.symm]
      subst hsame
      rw [hline.line] at ha
      obtain rfl := Option.some.inj ha
      exact hline.remaining
    · rw [if_neg hsame, if_neg (Ne.symm hsame)]
      exact h.within line a ha
  · have hrows : (returnRows t line).map SaleReturnItem.lineRefund =
        (returnRows s line).map SaleReturnItem.lineRefund ++
          if e.saleItem = line then [entryRefund s₀ e] else [] := by
      unfold returnRows
      rw [hsales]
      unfold recordReturnLine
      dsimp only
      rw [List.filter_append, List.map_append, hrefund]
      congr 1
      by_cases hsame : e.saleItem = line <;> simp [hsame]
    rw [hrows, h.rows, entriesOf_append, List.map_append, List.append_assoc]
    by_cases hsame : e.saleItem = line <;> simp [hsame, hpos]
  · obtain ⟨rows, hmovements, hpostings⟩ := hline.movements
    have hnew : restocked t line = restocked s line +
        if e.saleItem = line then entryRestock r s₀ e else 0 := by
      have hentry : entryRestock r s₀ e = if (doesRestock r e item && isRestockable s item) = true
          then item.fabricMeterUsed.getD (qty e.quantity) else 0 := by
        have hsame : doesRestock r e item₀ = doesRestock r e item ∧
            item₀.fabricMeterUsed = item.fabricMeterUsed := by
          have hfabric := congrArg SaleItem.customerSuppliedFabric hcore₀
          have hmeter := congrArg SaleItem.fabricMeterUsed hcore₀
          change item₀.customerSuppliedFabric = item.customerSuppliedFabric at hfabric
          exact ⟨by rw [doesRestock, doesRestock, hfabric], hmeter⟩
        rw [entryRestock, hitem₀, Option.elim_some, hsame.1, hsame.2, ← hrestockable]
        simp only [Bool.and_eq_true]
      have hquantity : qty ((item.fabricMeterUsed.map dec).getD e.quantity) =
          item.fabricMeterUsed.getD (qty e.quantity) := by
        cases item.fabricMeterUsed with
        | none => rfl
        | some m => exact qty_dec m
      unfold restocked
      rw [linePostings_append hmovements, hpostings, List.map_append, List.sum_append, hentry]
      congr 1
      by_cases hrestock : (doesRestock r e item && isRestockable s item) = true
      · rw [if_pos hrestock, if_pos hrestock, ← hquantity]
        by_cases hsame : e.saleItem = line <;>
          simp [hsame, returnMovement, restockMovement, Movement.posting, Reference.type]
      · rw [if_neg hrestock, if_neg hrestock]
        simp
    rw [hnew, h.stock, entriesOf_append, List.map_append, List.sum_append, add_assoc]
    by_cases hsame : e.saleItem = line <;> simp [hsame, hpos]
  · rcases List.mem_append.mp he' with he' | he'
    · exact h.whole e' he' hpos' item' hitem' hmeter
    · rw [List.mem_singleton.mp he'] at hitem' ⊢
      rw [hitem₀] at hitem'
      obtain rfl := Option.some.inj hitem'
      have hmeter₀ : item.fabricMeterUsed.isSome = true := by
        have hsame : item₀.core.fabricMeterUsed = item.core.fabricMeterUsed := by rw [hcore₀]
        change item₀.fabricMeterUsed = item.fabricMeterUsed at hsame
        rwa [← hsame]
      have hquantity : item₀.core.quantity = item.core.quantity := by rw [hcore₀]
      rw [hline.whole (by rw [isMeterGarment, hmeter₀, Bool.true_or])]
      exact congrArg dec hquantity.symm

/-- A line nothing was returned of before starts at what is stored. -/
lemma startProgress_eq {s : State} {line : ℕ} {item : SaleItem}
    (hitem : s.sales.items[line]? = some item) :
    (startProgress s).returned line = dec item.returnedQuantity := by
  change ((s.sales.items[line]?).map fun x => dec x.returnedQuantity).getD 0 = _
  rw [hitem, Option.map_some, Option.getD_some]

/-- What comes back of every line was sold. -/
def ReturnedWithin (s : State) : Prop :=
  ∀ (line : ℕ) item, s.sales.items[line]? = some item →
    0 ≤ item.returnedQuantity ∧ item.returnedQuantity ≤ item.quantity

/-- Before the first entry. -/
lemma returnLoop_start {c : Call} {r : ReturnRequest} {sale : Sale} {s : State}
    (hs : ReturnedWithin s) : ReturnLoop r s [] (startProgress s) (openReturn c r sale s) := by
  refine {
    core := rfl
    catalog := rfl
    progress := fun line => ?_
    refundTotal := rfl
    stored := fun line item hitem => ?_
    within := fun line item hitem => ?_
    rows := fun line => ?_
    stock := fun line => ?_
    whole := fun e he => absurd he List.not_mem_nil }
  · exact (add_zero _).symm
  · rw [startProgress_eq (s := s) hitem, qty_dec]
  · rw [startProgress_eq (s := s) hitem]
    exact dec_le_dec.mpr (hs line item hitem).2
  · exact (List.append_nil _).symm
  · exact (add_zero _).symm

/-- The whole loop of a return. -/
lemma returnLoop_of_runs {c : Call} {r : ReturnRequest} {sale : Sale} {saleReturn number : ℕ}
    {s u : State} {p : ReturnProgress} (hs : ReturnedWithin s)
    (h : Runs (r.items.foldlM (returnLine c r sale saleReturn number) (startProgress s))
      (openReturn c r sale s) p u) : ReturnLoop r s r.items p u := by
  refine runs_foldlM_induct (I := ReturnLoop r s) ?_ h (returnLoop_start hs)
  intro done e p s' p' t _ hrun hloop
  rcases runs_returnLine hrun with ⟨hle, rfl, rfl⟩ | ⟨item, hline⟩
  · exact hloop.skip hle
  · exact hloop.line hline

/-! ## What a request does to the returns -/

/-- The tables of the returns are as they were. -/
structure SameReturns (s t : State) : Prop where
  items : t.sales.items = s.sales.items
  returns : t.sales.returns = s.sales.returns
  returnItems : t.sales.returnItems = s.sales.returnItems
  stock : ∀ line, restocked t line = restocked s line

/-- Outside `process_return` nothing is put back on the account of a return. -/
lemma restocked_step {s : State} {op : Op} (h : ∀ c r, op ≠ .processReturn c r) (line : ℕ) :
    restocked (step s op) line = restocked s line := by
  have hframe : (∀ comp ∈ op.footprint, comp ≠ .movements .saleReturn) →
      linePostings (step s op) line .saleReturn = linePostings s line .saleReturn := by
    intro hop
    refine step_within (R := Frame fun s => linePostings s line .saleReturn) op ?_ s
    intro comp hcomp s t hchange
    have hne := hop comp hcomp
    cases comp with
    | movements type =>
      obtain ⟨m, u, rfl, hrun⟩ := hchange
      refine within_linePostings_recordMovement ?_ line hrun
      intro htype
      rw [htype] at hne
      exact hne rfl
    | levels =>
      obtain ⟨k, -, rfl⟩ := hchange
      rfl
    | _ =>
      change linePostings t line .saleReturn = linePostings s line .saleReturn
      rw [linePostings, linePostings, hchange.kept.stock (by simp) (by simp)]
  unfold restocked
  cases op with
  | processReturn c r => exact absurd rfl (h c r)
  | saveMasterData m =>
    rw [hframe (by cases m <;> simp [Op.footprint, MasterData.component])]
  | _ => rw [hframe (by simp [Op.footprint])]

/-- Everything a request can do to the returns. -/
inductive ReturnStep (s t : State) : Op → Prop
  | same {op : Op} (h : SameReturns s t) : ReturnStep s t op
  | made {c : Call} {r : CheckoutRequest} {id : ℕ} {p : PreparedSale} {number : Text}
      {items : List SaleItem} (h : SaleMade c r s t id p number items)
      (hstock : ∀ line, restocked t line = restocked s line) :
      ReturnStep s t (.completeSale c r)
  | returned {c : Call} {r : ReturnRequest} (h : Runs (processReturn c r) s ⟨⟩ t) :
      ReturnStep s t (.processReturn c r)

theorem returnStep (s : State) (op : Op) : ReturnStep s (step s op) op := by
  by_cases hreturn : ∃ c r, op = .processReturn c r
  · obtain ⟨c, r, rfl⟩ := hreturn
    cases salesStep s (.processReturn c r) with
    | same h =>
      by_cases haccepted : (Op.processReturn c r).Accepted s
      · exact .returned haccepted.runs
      · refine .same ?_
        rw [step_of_not_accepted haccepted]
        exact ⟨rfl, rfl, rfl, fun _ => rfl⟩
    | returned h => exact .returned h
  · have hstock : ∀ line, restocked (step s op) line = restocked s line :=
      restocked_step fun c r hop => hreturn ⟨c, r, hop⟩
    cases salesStep s op with
    | same h => exact .same ⟨by rw [h], by rw [h], by rw [h], hstock⟩
    | method h =>
      refine .same ⟨?_, ?_, ?_, hstock⟩ <;> rw [h] <;> rfl
    | made h => exact .made h hstock
    | @paid c r h =>
      obtain ⟨sale, amount, -, ht⟩ := runs_addSalePayment h
      refine .same ⟨?_, ?_, ?_, hstock⟩ <;> rw [ht] <;> rfl
    | @voided c id h =>
      obtain ⟨sale, amounts, rows, u, -, -, hmoved, ht⟩ := runs_voidSale h
      have hsales := sales_applyVoid c id sale amounts u
      rw [sales_of_rest hmoved.rest, ← ht] at hsales
      refine .same ⟨?_, ?_, ?_, hstock⟩ <;> rw [hsales]
    | returned h => exact absurd ⟨_, _, rfl⟩ hreturn

/-! ## What the database says about returns -/

/-- What came back of a line was sold, nothing came back without a return, and the refunds of a
sale's returns are the refunds of its lines. -/
structure ReturnsRecorded (s : State) : Prop where
  within : ReturnedWithin s
  untouched : ∀ (line : ℕ) item, s.sales.items[line]? = some item →
    returnsOfSale s item.sale = [] → item.returnedQuantity = 0
  stray : ∀ line, s.sales.items.length ≤ line → restocked s line = 0
  refunds : ∀ id, returnedAmount s id = ((saleLines s id).map (lineRefunds s)).sum

lemma SameReturns.recorded {s t : State} (h : SameReturns s t) (hs : ReturnsRecorded s) :
    ReturnsRecorded t := by
  have hlines : ∀ line, lineRefunds t line = lineRefunds s line := by
    intro line
    rw [lineRefunds, lineRefunds, returnRows, returnRows, h.returnItems]
  refine { within := ?_, untouched := ?_, stray := ?_, refunds := ?_ }
  · intro line item hitem
    rw [h.items] at hitem
    exact hs.within line item hitem
  · intro line item hitem hreturns
    rw [h.items] at hitem
    rw [returnsOfSale, h.returns] at hreturns
    exact hs.untouched line item hitem hreturns
  · intro line hline
    rw [h.items] at hline
    rw [h.stock]
    exact hs.stray line hline
  · intro id
    rw [returnedAmount, returnsOfSale, h.returns, saleLines, itemsOfSale, h.items,
      funext hlines]
    exact hs.refunds id

/-- A line that is new has no return rows. -/
lemma lineRefunds_eq_zero {s : State} (hs : Linked s) {line : ℕ}
    (hline : s.sales.items.length ≤ line) : returnRows s line = [] := by
  refine List.filter_eq_nil_iff.mpr fun x hx => ?_
  have hlt := hs.returnItem x hx
  rw [decide_eq_true_eq]
  omega

/-- Nothing was returned of a new line. -/
lemma SaleMade.returnedQuantity_eq {c : Call} {r : CheckoutRequest} {s t : State} {id : ℕ}
    {p : PreparedSale} {number : Text} {items : List SaleItem}
    (h : SaleMade c r s t id p number items) {item : SaleItem} (hitem : item ∈ items) :
    item.returnedQuantity = 0 := by
  obtain ⟨e, -, warehouse, unitCost, lineCost, -, rfl⟩ := exists_of_forall₂_mem h.stored hitem
  rfl

lemma SaleMade.returnsRecorded {c : Call} {r : CheckoutRequest} {s t : State} {sid : ℕ}
    {p : PreparedSale} {number : Text} {items : List SaleItem}
    (h : SaleMade c r s t sid p number items) (hlinked : Linked s)
    (hstock : ∀ line, restocked t line = restocked s line) (hs : ReturnsRecorded s) :
    ReturnsRecorded t := by
  obtain ⟨totalCost, sequences, hsales⟩ := h.sales
  have hitems : t.sales.items = s.sales.items ++ items := by rw [hsales]
  have hlines : ∀ line, lineRefunds t line = lineRefunds s line := by
    intro line
    rw [lineRefunds, lineRefunds, returnRows, returnRows, hsales]
  refine { within := ?_, untouched := ?_, stray := ?_, refunds := ?_ }
  · intro line item hitem
    rw [hitems] at hitem
    rcases getElem?_append_eq_some.mp hitem with hitem | ⟨-, hitem⟩
    · exact hs.within line item hitem
    · have hmem := List.mem_of_getElem? hitem
      rw [h.returnedQuantity_eq hmem]
      exact ⟨le_rfl, (h.lineRecorded hmem).2.quantity_nonneg⟩
  · intro line item hitem hreturns
    rw [hitems] at hitem
    rw [returnsOfSale, hsales] at hreturns
    rcases getElem?_append_eq_some.mp hitem with hitem | ⟨-, hitem⟩
    · exact hs.untouched line item hitem hreturns
    · exact h.returnedQuantity_eq (List.mem_of_getElem? hitem)
  · intro line hline
    rw [hitems, List.length_append] at hline
    rw [hstock]
    exact hs.stray line (by omega)
  · intro id
    obtain ⟨added, hchildren, hadded⟩ :=
      childrenOf_append SaleItem.sale s.sales.items items id
    have hnew : ((added.map Prod.fst).map (lineRefunds s)).sum = 0 := by
      refine List.sum_eq_zero fun x hx => ?_
      obtain ⟨line, hline, rfl⟩ := List.mem_map.mp hx
      obtain ⟨e, he, rfl⟩ := List.mem_map.mp hline
      rw [lineRefunds, lineRefunds_eq_zero hlinked (hadded e he)]
      rfl
    rw [returnedAmount, returnsOfSale, saleLines, itemsOfSale, hitems, hchildren, funext hlines,
      hsales, List.map_append, List.map_append, List.sum_append, hnew, add_zero]
    exact hs.refunds id

/-- A request takes nothing back of a line of another sale. -/
lemma entriesOf_other {s : State} {sale line : ℕ} {item : SaleItem} {entries : List ReturnEntry}
    (hitems : ∀ e ∈ entries, isItemOfSale s sale e.saleItem = true)
    (hitem : s.sales.items[line]? = some item) (hne : item.sale ≠ sale) :
    entriesOf entries line = [] := by
  refine List.filter_eq_nil_iff.mpr fun e he => ?_
  rw [decide_eq_true_eq]
  rintro ⟨rfl, -⟩
  have hof := hitems e he
  rw [isItemOfSale, hitem, Option.any_some, decide_eq_true_eq] at hof
  exact hne hof

/-- The refunds of a request are refunds of the lines it names. -/
lemma sum_entryRefund (s : State) {lines : List ℕ} (hnodup : lines.Nodup)
    {entries : List ReturnEntry} (hmem : ∀ e ∈ entries, e.saleItem ∈ lines) :
    (lines.map fun line => ((entriesOf entries line).map (entryRefund s)).sum).sum =
      (entries.map (entryRefund s)).sum := by
  induction entries using List.reverseRecOn with
  | nil => simp [entriesOf]
  | append_singleton entries e ih =>
    have hone : (lines.map fun line =>
        if e.saleItem = line then entryRefund s e else 0).sum = entryRefund s e := by
      have hline := hmem e (List.mem_append_right _ (List.mem_singleton_self e))
      rw [List.sum_map_eq_nsmul_single e.saleItem, List.count_eq_one_of_mem hnodup hline,
        one_nsmul, if_pos rfl]
      exact fun line hne _ => if_neg (Ne.symm hne)
    have hsplit : ∀ line, ((entriesOf (entries ++ [e]) line).map (entryRefund s)).sum =
        ((entriesOf entries line).map (entryRefund s)).sum +
          if e.saleItem = line then entryRefund s e else 0 := by
      intro line
      rw [entriesOf_append, List.map_append, List.sum_append]
      by_cases hpos : 0 < e.quantity
      · by_cases hsame : e.saleItem = line <;> simp [hsame, hpos]
      · have hzero : entryRefund s e = 0 := if_neg hpos
        simp [hpos, hzero]
    rw [List.map_congr_left fun line _ => hsplit line, List.sum_map_add, hone,
      ih fun e' he' => hmem e' (List.mem_append_left _ he'), List.map_append, List.sum_append,
      List.map_singleton, List.sum_singleton]

/-- What a return does, in terms of its whole loop. -/
structure ReturnMade (r : ReturnRequest) (s t : State) (p : ReturnProgress) (u : State) :
    Prop where
  sale : ∃ sale, s.sales.sales[r.sale]? = some sale ∧ sale.status ≠ .voided
  items_of : ∀ e ∈ r.items, isItemOfSale s r.sale e.saleItem = true
  loop : ReturnLoop r s r.items p u
  stock : t.stock = u.stock
  sales : ∃ header, header.sale = r.sale ∧ header.refundAmount = p.refundTotal ∧
    t.sales = { s.sales with
      items := u.sales.items
      returnItems := u.sales.returnItems
      returns := s.sales.returns ++ [header]
      sales := s.sales.sales.modify r.sale ({ · with status := returnStatus u r.sale }) }

lemma returnMade_of_runs {c : Call} {r : ReturnRequest} {s t : State} {x : Unit}
    (hs : ReturnedWithin s) (h : Runs (processReturn c r) s x t) :
    ∃ p u, ReturnMade r s t p u := by
  obtain ⟨sale, p, u, hcheck, hloop, hstock, hsales⟩ := processReturn_sales h
  obtain ⟨hsale, hvoid, hitems⟩ := checkReturn_ok hcheck
  exact ⟨p, u, ⟨sale, hsale, hvoid⟩, hitems, returnLoop_of_runs hs hloop, hstock, _, rfl, rfl,
    hsales⟩

section Made

variable {r : ReturnRequest} {s t u : State} {p : ReturnProgress} (h : ReturnMade r s t p u)

include h

lemma ReturnMade.items : t.sales.items = u.sales.items := by
  obtain ⟨header, -, -, hsales⟩ := h.sales
  rw [hsales]

lemma ReturnMade.lineRefunds_eq (line : ℕ) :
    lineRefunds t line =
      lineRefunds s line + ((entriesOf r.items line).map (entryRefund s)).sum := by
  obtain ⟨header, -, -, hsales⟩ := h.sales
  have hrows : returnRows t line = returnRows u line := by
    rw [returnRows, returnRows, hsales]
  rw [lineRefunds, hrows, h.loop.rows, List.sum_append]
  rfl

lemma ReturnMade.restocked_eq (line : ℕ) :
    restocked t line =
      restocked s line + ((entriesOf r.items line).map (entryRestock r s)).sum := by
  rw [← h.loop.stock]
  unfold restocked linePostings
  rw [h.stock]

/-- A line after a return. -/
lemma ReturnMade.item {line : ℕ} {item : SaleItem} (hitem : t.sales.items[line]? = some item) :
    ∃ old, s.sales.items[line]? = some old ∧ old.core = item.core ∧
      item.returnedQuantity = qty (dec old.returnedQuantity + requested r.items line) ∧
      dec old.returnedQuantity + requested r.items line ≤ dec item.quantity := by
  rw [h.items] at hitem
  obtain ⟨old, hold, hcore⟩ := item_of_core h.loop.core hitem
  have hprogress := h.loop.progress line
  rw [startProgress_eq hold] at hprogress
  refine ⟨old, hold, hcore, ?_, ?_⟩
  · rw [← hprogress]
    exact h.loop.stored line item hitem
  · rw [← hprogress]
    exact h.loop.within line item hitem

lemma ReturnMade.saleLines_eq (id : ℕ) : saleLines t id = saleLines s id := by
  have hkeys : ∀ v : State, saleLines v id =
      (childrenOf SaleItem.sale (v.sales.items.map SaleItem.core) id).map Prod.fst := by
    intro v
    exact (keys_childrenOf_map SaleItem.sale SaleItem.core (fun _ => rfl) v.sales.items id).symm
  rw [hkeys t, hkeys s, h.items, h.loop.core]

lemma ReturnMade.length_items : t.sales.items.length = s.sales.items.length := by
  have hlength := congrArg List.length h.loop.core
  rw [List.length_map, List.length_map] at hlength
  rw [h.items, hlength]

lemma ReturnMade.returnsOfSale_eq (id : ℕ) :
    ∃ header : SaleReturn, header.refundAmount = p.refundTotal ∧
      returnsOfSale t id = returnsOfSale s id ++ if r.sale = id then [header] else [] := by
  obtain ⟨header, hsale, hrefund, hsales⟩ := h.sales
  refine ⟨header, hrefund, ?_⟩
  unfold returnsOfSale
  rw [hsales, List.filter_append]
  by_cases hid : r.sale = id <;> simp [hsale, hid]

lemma ReturnMade.returnedAmount_eq (id : ℕ) :
    returnedAmount t id = returnedAmount s id + if r.sale = id then p.refundTotal else 0 := by
  obtain ⟨header, hrefund, hreturns⟩ := h.returnsOfSale_eq id
  unfold returnedAmount
  rw [hreturns, List.map_append, List.sum_append]
  congr 1
  split <;> simp [hrefund]

/-- Lines of other sales are left alone. -/
lemma ReturnMade.entriesOf_other {line : ℕ} {item : SaleItem}
    (hitem : s.sales.items[line]? = some item) (hne : item.sale ≠ r.sale) :
    entriesOf r.items line = [] :=
  NexaPos.entriesOf_other h.items_of hitem hne

lemma ReturnMade.returnedWithin (hs : ReturnedWithin s) : ReturnedWithin t := by
  intro line item hitem
  obtain ⟨old, hold, -, hreturned, hle⟩ := h.item hitem
  have hold_nonneg := dec_nonneg.mpr (hs line old hold).1
  have hrequested := requested_nonneg r.items line
  rw [hreturned]
  exact ⟨qty_nonneg (by linarith), qty_le_of_le_dec hle⟩

lemma ReturnMade.returnsRecorded (hs : ReturnsRecorded s) : ReturnsRecorded t := by
  refine {
    within := h.returnedWithin hs.within
    untouched := ?_
    stray := ?_
    refunds := ?_ }
  · intro line item hitem hreturns
    obtain ⟨old, hold, hcore, hreturned, -⟩ := h.item hitem
    have hsale : old.core.sale = item.core.sale := by rw [hcore]
    change old.sale = item.sale at hsale
    obtain ⟨header, -, heq⟩ := h.returnsOfSale_eq item.sale
    rw [heq, List.append_eq_nil_iff] at hreturns
    have hne : old.sale ≠ r.sale := by
      intro hsame
      rw [if_pos (hsame.symm.trans hsale)] at hreturns
      exact nomatch hreturns.2
    have hzero := hs.untouched line old hold (by rw [hsale]; exact hreturns.1)
    rw [hreturned, hzero, requested, h.entriesOf_other hold hne]
    simp
  · intro line hline
    rw [h.length_items] at hline
    rw [h.restocked_eq, hs.stray line hline, zero_add]
    refine List.sum_eq_zero fun x hx => ?_
    obtain ⟨e, he, rfl⟩ := List.mem_map.mp hx
    rw [(of_decide_eq_true (List.mem_filter.mp he).2).1.symm] at hline
    rw [entryRestock, List.getElem?_eq_none hline]
    rfl
  · intro id
    rw [h.returnedAmount_eq, h.saleLines_eq, hs.refunds id,
      List.map_congr_left fun line _ => h.lineRefunds_eq line, List.sum_map_add]
    congr 1
    by_cases hid : r.sale = id
    · rw [if_pos hid, h.loop.refundTotal]
      refine (sum_entryRefund s (nodup_keys_childrenOf _ _ _) ?_).symm
      intro e he
      have hof := h.items_of e he
      unfold isItemOfSale at hof
      rw [Option.any_eq_true] at hof
      obtain ⟨item, hitem, hsale⟩ := hof
      refine List.mem_map.mpr ⟨(e.saleItem, item), mem_childrenOf.mpr ⟨hitem, ?_⟩, rfl⟩
      exact (of_decide_eq_true hsale).trans hid
    · rw [if_neg hid]
      refine (List.sum_eq_zero fun x hx => ?_).symm
      obtain ⟨line, hline, rfl⟩ := List.mem_map.mp hx
      obtain ⟨⟨_, item⟩, hmem, rfl⟩ := List.mem_map.mp hline
      obtain ⟨hitem, hsale⟩ := mem_childrenOf.mp hmem
      rw [h.entriesOf_other hitem fun hsame => hid (hsame.symm.trans hsale)]
      rfl

end Made

/-! ## Every history -/

lemma returnsRecorded_step (s : State) (op : Op) (hlinked : Linked s) (hs : ReturnsRecorded s) :
    ReturnsRecorded (step s op) := by
  cases returnStep s op with
  | same h => exact h.recorded hs
  | made h hstock => exact h.returnsRecorded hlinked hstock hs
  | returned h =>
    obtain ⟨p, u, hmade⟩ := returnMade_of_runs hs.within h
    exact hmade.returnsRecorded hs

theorem returnsRecorded_history (ops : List Op) : ReturnsRecorded (history ops) := by
  induction ops using List.reverseRecOn with
  | nil =>
    refine { within := ?_, untouched := ?_, stray := fun _ _ => rfl, refunds := fun _ => rfl }
    · intro line item hitem
      exact nomatch hitem
    · intro line item hitem
      exact nomatch hitem
  | append_singleton ops op ih =>
    rw [history_append]
    exact returnsRecorded_step _ op (linked_history ops) ih

end NexaPos
