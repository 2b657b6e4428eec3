import NexaPos.Reports.Fabric
import NexaPos.Properties.DrawerRecords
import NexaPos.Properties.Returns
import NexaPos.Properties.StockLedger
import NexaPos.Properties.Transfers

/-!
# What the lines use of the fabric

The report works out from the lines of sales and returns what was used of a product that is sold by
the metre.  The movements it does not show are those of sales, voids and returns, which are the
metres used, and those of transfers, which are what is in transit (`FabricBalanced`).  Each of
these requests keeps that balance.
-/

namespace NexaPos

open Tx

/-! ## What movements move -/

/-- What a posting moves of a product or variant. -/
def Posting.moves (x : Posting) (product : ℕ) (variant : Option ℕ) : ℤ :=
  if x.key.product = product ∧ x.key.variant = variant then x.quantity else 0

/-- Opening stock and purchases, the movements that the report shows. -/
def isReported : MovementType → Bool
  | .opening | .purchase | .purchaseReturn => true
  | _ => false

/-- What the other movements have moved. -/
def otherMoved (s : State) (product : ℕ) (variant : Option ℕ) : ℤ :=
  Stock.productTotal (s.stock.movements.filter fun row => !isReported row.movementType) product
    variant

section Moves

variable {product : ℕ} {variant : Option ℕ} {s t : State}

lemma productTotal_eq_sum (rows : List StockMovement) :
    Stock.productTotal rows product variant =
      (rows.map fun row => row.posting.moves product variant).sum := by
  induction rows with
  | nil => rfl
  | cons row rows ih =>
    rw [Stock.productTotal_cons, ih, List.map_cons, List.sum_cons]
    rfl

lemma productTotal_append (rows rows' : List StockMovement) :
    Stock.productTotal (rows ++ rows') product variant =
      Stock.productTotal rows product variant + Stock.productTotal rows' product variant := by
  simp only [productTotal_eq_sum, List.map_append, List.sum_append]

/-- Movements of two kinds, taken together. -/
lemma productTotal_filter_or {a b : StockMovement → Bool}
    (h : ∀ row, a row = true → b row = false) (rows : List StockMovement) :
    Stock.productTotal (rows.filter fun row => a row || b row) product variant =
      Stock.productTotal (rows.filter a) product variant +
        Stock.productTotal (rows.filter b) product variant := by
  simp only [productTotal_eq_sum, sum_map_filter]
  rw [← List.sum_map_add]
  refine congrArg List.sum (List.map_congr_left fun row _ => ?_)
  cases ha : a row with
  | false => simp
  | true => simp [h row ha]

/-- Movements that are not reported. -/
lemma otherMoved_append {rows : List StockMovement} {ps : List Posting}
    (hmovements : t.stock.movements = s.stock.movements ++ rows)
    (hpostings : rows.map StockMovement.posting = ps)
    (hother : ∀ x ∈ ps, isReported x.movementType = false) (product : ℕ) (variant : Option ℕ) :
    otherMoved t product variant =
      otherMoved s product variant + (ps.map fun x => x.moves product variant).sum := by
  have hall : (rows.filter fun row => !isReported row.movementType) = rows := by
    refine List.filter_eq_self.mpr fun row hrow => ?_
    have hrow' := hother row.posting (hpostings ▸ List.mem_map_of_mem hrow)
    simpa [StockMovement.posting] using hrow'
  unfold otherMoved
  rw [hmovements, List.filter_append, hall, productTotal_append, productTotal_eq_sum rows,
    ← hpostings, List.map_map]
  rfl

/-- A movement that is reported. -/
lemma within_otherMoved_recordMovement {m : Movement} (hm : isReported m.movementType = true) :
    Within (Frame fun s => otherMoved s product variant) (recordMovement m) := by
  intro s u t h
  obtain ⟨row, hrow, hstock, -⟩ := runs_recordMovement h
  have hnone : ([row].filter fun row => !isReported row.movementType) = [] := by
    simp [hrow.movementType, hm]
  show otherMoved t product variant = otherMoved s product variant
  unfold otherMoved
  rw [hstock, Stock.movements_post, List.filter_append, hnone, List.append_nil]

end Moves

/-! ## Levels and movements -/

/-- The levels of a product or variant are what its movements add up to. -/
def TotalKept (product : ℕ) (variant : Option ℕ) (s : State) : Prop :=
  s.stock.total product variant = Stock.productTotal s.stock.movements product variant

/-- Opening an empty level row changes no total. -/
lemma total_insert_zero {st : Stock} {k : StockKey} (h : st.levels.lookup k = none)
    (product : ℕ) (variant : Option ℕ) :
    ({ st with levels := st.levels.insert k 0 } : Stock).total product variant =
      st.total product variant := by
  let p : StockKey → Bool := fun k => k.product = product ∧ k.variant = variant
  have hnew : ({ st with levels := st.levels.insert k 0 } : Stock).total product variant =
      Stock.sumOver p (⟨k, 0⟩ :: List.kerase k st.levels.entries) := rfl
  have hold : st.total product variant = Stock.sumOver p st.levels.entries := rfl
  have hlookup : List.dlookup k st.levels.entries = none := h
  rw [hnew, hold, Stock.sumOver_kerase p k st.levels.entries, hlookup]
  by_cases hp : p k = true <;> simp [Stock.sumOver, hp]

lemma totalKept_step (product : ℕ) (variant : Option ℕ) (s : State) (op : Op)
    (hs : TotalKept product variant s) : TotalKept product variant (step s op) := by
  refine step_within (R := Preserves (TotalKept product variant)) op ?_ s hs
  intro comp _ s t h hs
  unfold TotalKept at *
  cases comp with
  | levels =>
    obtain ⟨k, hk, rfl⟩ := h
    rw [← hs]
    exact total_insert_zero hk product variant
  | movements type =>
    obtain ⟨m, u, -, hrun⟩ := h
    obtain ⟨row, hrow, hstock, -⟩ := runs_recordMovement hrun
    rw [hstock, Stock.total_post _ _ hrow.balanceAfter, Stock.movements_post, productTotal_append,
      Stock.productTotal_cons, hs, Stock.productTotal_nil, add_zero]
  | _ =>
    rw [h.kept.stock (by simp) (by simp)]
    exact hs

lemma totalKept_history (ops : List Op) (product : ℕ) (variant : Option ℕ) :
    TotalKept product variant (history ops) := by
  have hempty : TotalKept product variant State.empty := rfl
  exact Trace.invariant (totalKept_step product variant) hempty ops

/-! ## The metres of the lines -/

/-- The metres that the report counts as used for a line. -/
def lineUsed (s : State) (product : ℕ) (variant : Option ℕ) (line : ℕ) : ℤ :=
  (s.sales.items[line]?).elim 0 fun item =>
    if (item.product = product ∧ item.variant = variant) ∧ item.fabricMeterUsed.isSome = true ∧
        isLiveSale s item.sale = true then
      netMeter s line item
    else 0

/-- The metres of all lines. -/
def metresUsed (s : State) (product : ℕ) (variant : Option ℕ) : ℤ :=
  ∑ line ∈ Finset.range s.sales.items.length, lineUsed s product variant line

/-- What was moved and is not reported, is used or in transit. -/
def FabricBalanced (product : ℕ) (variant : Option ℕ) (s : State) : Prop :=
  otherMoved s product variant + s.documents.inTransit product variant +
    metresUsed s product variant = 0

/-- The lines of a product that is sold by the metre. -/
def MetreLines (product : ℕ) (s : State) : Prop :=
  ∀ item ∈ s.sales.items, item.product = product →
    item.customerSuppliedFabric = true ∨ item.fabricMeterUsed.isSome = true

/-- What came back of a line that measures fabric, and was put back, is part of what came back. -/
structure RestockRows (s : State) : Prop where
  header : ∀ x ∈ s.sales.returnItems, x.saleReturn < s.sales.returns.length
  within : ∀ (line : ℕ) item, s.sales.items[line]? = some item →
    item.fabricMeterUsed.isSome = true →
    0 ≤ restockedQuantity s line item ∧ restockedQuantity s line item ≤ item.returnedQuantity

/-- A line that measures fabric, of which nothing was put back, used its metres. -/
lemma netMeter_of_kept {s : State} {line : ℕ} {item : SaleItem} {m : ℤ}
    (hmeter : item.fabricMeterUsed = some m) (hone : item.quantity = 1000)
    (hnone : restockedQuantity s line item = 0) : netMeter s line item = m := by
  have hthousand : dec 1000 ≠ 0 := by
    unfold dec
    norm_num
  unfold netMeter remainingLineQuantity
  rw [hone, hnone, hmeter, if_neg (by norm_num), sub_zero, max_eq_left (by norm_num),
    mul_div_assoc, div_self hthousand, mul_one]
  exact qty_dec m

/-- One that was put back used nothing. -/
lemma netMeter_of_restocked {s : State} {line : ℕ} {item : SaleItem}
    (hone : item.quantity = 1000) (hall : restockedQuantity s line item = 1000) :
    netMeter s line item = 0 := by
  unfold netMeter remainingLineQuantity
  rw [hone, hall, if_neg (by norm_num), sub_self, max_self, dec_zero, mul_zero, zero_div, qty_zero]

/-- The metres of all lines change with those of one line. -/
lemma metresUsed_of_line {s t : State} {product : ℕ} {variant : Option ℕ} {line : ℕ}
    (hlength : t.sales.items.length = s.sales.items.length) (hline : line < s.sales.items.length)
    (hother : ∀ j, j ≠ line → lineUsed t product variant j = lineUsed s product variant j) :
    metresUsed t product variant = metresUsed s product variant +
      (lineUsed t product variant line - lineUsed s product variant line) := by
  have hone : ∑ j ∈ Finset.range s.sales.items.length,
      (lineUsed t product variant j - lineUsed s product variant j) =
        lineUsed t product variant line - lineUsed s product variant line := by
    refine Finset.sum_eq_single_of_mem line (Finset.mem_range.mpr hline) fun j _ hj => ?_
    rw [hother j hj, sub_self]
  rw [Finset.sum_sub_distrib] at hone
  unfold metresUsed
  rw [hlength]
  omega

/-! ## Transfers -/

/-- Outside the transfers nothing changes what is in transit. -/
lemma Component.inTransit_eq {comp : Component} {s t : State} (h : comp.Change s t)
    (hne : comp ≠ .transfers) : t.documents.inTransit = s.documents.inTransit := by
  cases comp with
  | transfers => exact absurd rfl hne
  | movements type =>
    obtain ⟨m, u, -, hrun⟩ := h
    rw [documents_of_rest (within_rest_recordMovement m hrun)]
  | adjustments => obtain ⟨x, y, rfl⟩ := h; rfl
  | counts => obtain ⟨x, y, rfl⟩ := h; rfl
  | accounts => obtain ⟨x, f, rfl⟩ := h; rfl
  | levels => obtain ⟨k, -, rfl⟩ := h; rfl
  | _ => obtain ⟨x, rfl⟩ := h; rfl

lemma inTransit_step {s : State} {op : Op} (h : ∀ comp ∈ op.footprint, comp ≠ .transfers) :
    (step s op).documents.inTransit = s.documents.inTransit :=
  step_within (R := Frame fun s : State => s.documents.inTransit) op
    (fun comp hcomp _ _ hchange => Component.inTransit_eq hchange (h comp hcomp)) s

/-- The lines and returns of the sales are as they were. -/
lemma metresUsed_of_sales {s t : State} (h : t.sales = s.sales) :
    metresUsed t = metresUsed s := by
  funext product variant
  unfold metresUsed lineUsed netMeter remainingLineQuantity restockedQuantity isLiveSale
  rw [h]

/-- What a transition of a transfer posts it moves in or out of transit. -/
lemma TransferMoved.fabricBalanced {s t : State} {product : ℕ} {variant : Option ℕ} {id : ℕ}
    {items : List StockTransferItem} {posting : StockTransferItem → Posting} {sign : ℤ}
    {status : TransferStatus} (h : TransferMoved s t id items posting sign status)
    (hother : ∀ i, isReported (posting i).movementType = false)
    (htotal : TotalKept product variant s) (htotal' : TotalKept product variant t)
    (hgoods : t.goods = s.goods) (hsales : t.sales = s.sales)
    (hs : FabricBalanced product variant s) : FabricBalanced product variant t := by
  obtain ⟨rows, hrows, hpostings⟩ := h.movements
  have hposted : ∀ x ∈ items.map posting, isReported x.movementType = false := by
    intro x hx
    obtain ⟨i, -, rfl⟩ := List.mem_map.mp hx
    exact hother i
  have hmoved := otherMoved_append hrows hpostings hposted product variant
  have hboth : Stock.productTotal t.stock.movements product variant =
      Stock.productTotal s.stock.movements product variant +
        ((items.map posting).map fun x => x.moves product variant).sum := by
    rw [hrows, productTotal_append, productTotal_eq_sum rows, ← hpostings, List.map_map]
    rfl
  have hsum : t.goods product variant = s.goods product variant := by rw [hgoods]
  unfold State.goods at hsum
  unfold TotalKept at htotal htotal'
  unfold FabricBalanced at hs ⊢
  rw [metresUsed_of_sales hsales]
  omega

/-! ## Sales -/

section Sale

variable {c : Call} {r : CheckoutRequest} {s t : State} {id : ℕ} {p : PreparedSale} {number : Text}
  {items : List SaleItem} {product : ℕ} {variant : Option ℕ}

/-- The metres of a line of the product. -/
def SaleItem.metresOf (i : SaleItem) (product : ℕ) (variant : Option ℕ) : ℤ :=
  if i.product = product ∧ i.variant = variant then i.fabricMeterUsed.getD 0 else 0

/-- What a line took out of stock is what it measures. -/
lemma moves_deductionOf {item : SaleItem} (hrecorded : LineRecorded item)
    (hmeasured : item.product = product →
      item.customerSuppliedFabric = true ∨ item.fabricMeterUsed.isSome = true) (line : ℕ) :
    ((deductionOf number (item, line)).elim 0 fun x => x.moves product variant) =
      -item.metresOf product variant := by
  unfold deductionOf SaleItem.metresOf
  by_cases hkey : item.product = product ∧ item.variant = variant
  · rw [if_pos hkey]
    rcases hmeasured hkey.1 with hfabric | hmeter
    · rw [hrecorded.customerFabric hfabric, item.customerFabric_noMeter hfabric]
      rfl
    · obtain ⟨warehouse, hwarehouse⟩ := Option.isSome_iff_exists.mp (hrecorded.meter hmeter).1
      obtain ⟨m, hm⟩ := Option.isSome_iff_exists.mp hmeter
      have hown : item.customerSuppliedFabric = false := by
        by_contra hfabric
        rw [item.customerFabric_noMeter (by simpa using hfabric)] at hm
        exact nomatch hm
      rw [hwarehouse, hm]
      simp [Posting.moves, hkey, SaleItem.inventoryQuantity, hown, hm]
  · rw [if_neg hkey]
    cases item.stockWarehouse with
    | none => rfl
    | some warehouse => simp [Posting.moves, hkey]

/-- The lines of a new sale measure fabric where the product is sold by the metre. -/
lemma SaleMade.measured (h : SaleMade c r s t id p number items)
    (hproduct : ∀ x, s.catalog.products[product]? = some x → x.isMeterTailoring = true)
    {item : SaleItem} (hitem : item ∈ items) (hof : item.product = product) :
    item.customerSuppliedFabric = true ∨ item.fabricMeterUsed.isSome = true := by
  obtain ⟨e, he, warehouse, unitCost, lineCost, -, rfl⟩ := exists_of_forall₂_mem h.stored hitem
  obtain ⟨customer, -, hprepared⟩ := h.prepared
  obtain ⟨lines, -, hlines, htotals, -⟩ := prepareSale_ok hprepared
  obtain ⟨hmem, -, -⟩ := (calculateSaleTotals_ok htotals).2 e he
  unfold normalizeItems at hlines
  simp only [except_bind_eq_ok, mapM_eq_ok] at hlines
  obtain ⟨members, -, hlines⟩ := hlines
  obtain ⟨entry, -, hentry⟩ := exists_of_forall₂_mem hlines hmem
  obtain ⟨hfound, hmeasured⟩ := normalizeLine_measured hentry
  refine hmeasured (hproduct _ ?_)
  rw [← hof]
  exact hfound

lemma SaleMade.isLiveSale_new (h : SaleMade c r s t id p number items) :
    isLiveSale t id = true := by
  obtain ⟨totalCost, sequences, hsales⟩ := h.sales
  refine isLiveSale_eq_true.mpr ⟨settledSale r p totalCost (saleRow c r p number), ?_, ?_⟩
  · rw [hsales, h.id_eq]
    exact List.getElem?_concat_length
  · unfold Sale.IsLive settledSale creditStatus saleRow
    dsimp only
    split
    · split <;> simp
    · simp

/-- A new line used its metres. -/
lemma SaleMade.lineUsed_new (h : SaleMade c r s t id p number items) (hlinked : Linked s) {i : ℕ}
    {item : SaleItem} (hitem : items[i]? = some item) :
    lineUsed t product variant (s.sales.items.length + i) = item.metresOf product variant := by
  have hmem := List.mem_of_getElem? hitem
  obtain ⟨hsale, hrecorded⟩ := h.lineRecorded hmem
  obtain ⟨totalCost, sequences, hsales⟩ := h.sales
  have hline : t.sales.items[s.sales.items.length + i]? = some item := by
    rw [hsales, List.getElem?_append_right (Nat.le_add_right _ _), Nat.add_sub_cancel_left, hitem]
  have hnone : restockedQuantity t (s.sales.items.length + i) item = 0 := by
    unfold restockedQuantity
    rw [List.filter_eq_nil_iff.mpr]
    · rfl
    · intro x hx
      rw [hsales] at hx
      have hlt := hlinked.returnItem x hx
      have hne : x.saleItem ≠ s.sales.items.length + i := by omega
      simp [hne]
  unfold lineUsed SaleItem.metresOf
  rw [hline, Option.elim_some, hsale, h.isLiveSale_new]
  cases hmeter : item.fabricMeterUsed with
  | none => simp
  | some m =>
    rw [netMeter_of_kept hmeter (hrecorded.meter (by rw [hmeter]; rfl)).2 hnone]
    simp

/-- The lines of the other sales used what they used. -/
lemma SaleMade.lineUsed_old (h : SaleMade c r s t id p number items)
    (hrecorded : (salesView s).Recorded) {line : ℕ} (hline : line < s.sales.items.length) :
    lineUsed t product variant line = lineUsed s product variant line := by
  obtain ⟨totalCost, sequences, hsales⟩ := h.sales
  have hitem : t.sales.items[line]? = s.sales.items[line]? := by
    rw [hsales]
    exact List.getElem?_append_left hline
  have hget := List.getElem?_eq_getElem hline
  have hlive : isLiveSale t (s.sales.items[line]).sale = isLiveSale s (s.sales.items[line]).sale := by
    unfold isLiveSale
    rw [hsales]
    exact congrArg (Option.any _) (List.getElem?_append_left (hrecorded.item_sale_lt hget))
  have hnet : netMeter t line s.sales.items[line] = netMeter s line s.sales.items[line] := by
    unfold netMeter remainingLineQuantity restockedQuantity
    rw [hsales]
  unfold lineUsed
  rw [hitem, hget, Option.elim_some, Option.elim_some, hlive, hnet]

/-- What a sale takes out of stock of the product, its lines use. -/
lemma SaleMade.fabricBalanced (h : SaleMade c r s t id p number items) (hlinked : Linked s)
    (hrecorded : (salesView s).Recorded)
    (hproduct : ∀ x, s.catalog.products[product]? = some x → x.isMeterTailoring = true)
    (hs : FabricBalanced product variant s) : FabricBalanced product variant t := by
  obtain ⟨rows, hrows, hpostings⟩ := h.movements
  obtain ⟨totalCost, sequences, hsales⟩ := h.sales
  have hposted : ∀ x ∈ (items.zipIdx s.sales.items.length).filterMap (deductionOf number),
      isReported x.movementType = false := by
    intro x hx
    obtain ⟨e, -, he⟩ := List.mem_filterMap.mp hx
    obtain ⟨warehouse, -, rfl⟩ := Option.map_eq_some_iff.mp he
    rfl
  have hmoved := otherMoved_append hrows hpostings hposted product variant
  have hlength : t.sales.items.length = s.sales.items.length + items.length := by
    rw [hsales, List.length_append]
  have hused : metresUsed t product variant = metresUsed s product variant +
      ∑ i ∈ Finset.range items.length, (items[i]?).elim 0 fun item =>
        item.metresOf product variant := by
    unfold metresUsed
    rw [hlength, Finset.sum_range_add]
    congr 1
    · exact Finset.sum_congr rfl fun line hline =>
        h.lineUsed_old hrecorded (Finset.mem_range.mp hline)
    · refine Finset.sum_congr rfl fun i hi => ?_
      have hget := List.getElem?_eq_getElem (Finset.mem_range.mp hi)
      rw [h.lineUsed_new hlinked hget, hget, Option.elim_some]
  have hdeducted : (((items.zipIdx s.sales.items.length).filterMap (deductionOf number)).map
      fun x => x.moves product variant).sum = -∑ i ∈ Finset.range items.length,
        (items[i]?).elim 0 fun item => item.metresOf product variant := by
    rw [sum_filterMap, sum_zipIdx, ← Finset.sum_neg_distrib]
    refine Finset.sum_congr rfl fun i hi => ?_
    have hget := List.getElem?_eq_getElem (Finset.mem_range.mp hi)
    have hmem := List.mem_of_getElem? hget
    rw [hget, Option.elim_some, Option.elim_some,
      moves_deductionOf (h.lineRecorded hmem).2 (h.measured hproduct hmem)]
  have hrest := documents_of_rest h.rest
  have htransit : t.documents = s.documents := hrest
  unfold FabricBalanced at hs ⊢
  rw [hmoved, hused, hdeducted, htransit]
  omega

end Sale

/-! ## Voids -/

section Void

variable {c : Call} {id : ℕ} {s t : State} {product : ℕ} {variant : Option ℕ}

/-- What a void puts back for a line of the product is what it measures. -/
lemma moves_voidMovement {sale : Sale} {line : ℕ} {item : SaleItem}
    (hmeasured : item.product = product →
      item.customerSuppliedFabric = true ∨ item.fabricMeterUsed.isSome = true) :
    ((voidMovement c s sale (line, item)).elim 0 fun m => m.posting.moves product variant) =
      item.metresOf product variant := by
  unfold voidMovement SaleItem.metresOf
  by_cases hkey : item.product = product ∧ item.variant = variant
  · rw [if_pos hkey]
    rcases hmeasured hkey.1 with hfabric | hmeter
    · rw [item.customerFabric_noMeter hfabric]
      simp [isRestockable, hfabric]
    · obtain ⟨m, hm⟩ := Option.isSome_iff_exists.mp hmeter
      have hown : item.customerSuppliedFabric = false := by
        by_contra hfabric
        rw [item.customerFabric_noMeter (by simpa using hfabric)] at hm
        exact nomatch hm
      simp [isRestockable, hown, hm, restockMovement, Movement.posting, Posting.moves, hkey,
        SaleItem.inventoryQuantity]
  · rw [if_neg hkey]
    split
    · simp [restockMovement, Movement.posting, Posting.moves, hkey]
    · rfl

/-- A line whose sale has no returns got nothing back. -/
lemma restockedQuantity_of_no_returns {line : ℕ} {item : SaleItem}
    (h : returnsOfSale s item.sale = []) : restockedQuantity s line item = 0 := by
  have hnone : ∀ x ∈ s.sales.returnItems, ¬ (x.saleItem = line && x.restocked &&
      (s.sales.returns[x.saleReturn]?).any fun r => r.sale = item.sale) = true := by
    intro x _ hx
    rw [Bool.and_eq_true, Option.any_eq_true] at hx
    obtain ⟨-, header, hheader, hsale⟩ := hx
    have hmem : header ∈ returnsOfSale s item.sale :=
      List.mem_filter.mpr ⟨List.mem_of_getElem? hheader, hsale⟩
    rw [h] at hmem
    exact absurd hmem List.not_mem_nil
  unfold restockedQuantity
  rw [List.filter_eq_nil_iff.mpr hnone]
  rfl

/-- What a void puts back of the product, the lines of its sale no longer use. -/
lemma fabricBalanced_void (h : (Op.voidSale c id).Accepted s) (hdrafts : NoDrafts s)
    (hrecorded : (salesView s).Recorded) (hlines : MetreLines product s)
    (hs : FabricBalanced product variant s) :
    FabricBalanced product variant (step s (.voidSale c id)) := by
  set t := step s (.voidSale c id) with ht
  have hvoids : (Op.voidSale c id).Voids s id := ⟨c, rfl, h⟩
  obtain ⟨hlive, hvoid⟩ := isLiveSale_of_voids hdrafts hvoids
  obtain ⟨sale, amounts, rows, u, hcheck, hrows, hmoved, hstep⟩ := runs_voidSale h.runs
  obtain ⟨hsale, -, hreturns, -⟩ := checkVoid_ok hcheck
  have hsales := sales_applyVoid c id sale amounts u
  rw [sales_of_rest hmoved.rest, ← hstep, ← ht] at hsales
  have hmovements : t.stock.movements = s.stock.movements ++ rows := by
    have hstock : t.stock = u.stock := by
      rw [ht, hstep]
      unfold applyVoid
      dsimp only
      split <;> split <;> rfl
    rw [hstock]
    exact hmoved.movements
  have hposted : ∀ x ∈ ((itemsOfSale s id).filterMap (voidMovement c s sale)).map
      Movement.posting, isReported x.movementType = false := by
    intro x hx
    obtain ⟨m, hm, rfl⟩ := List.mem_map.mp hx
    obtain ⟨e, -, he⟩ := List.mem_filterMap.mp hm
    unfold voidMovement at he
    split at he
    · obtain rfl := Option.some.inj he
      rfl
    · exact nomatch he
  have hother := otherMoved_append hmovements (postings_eq hrows) hposted product variant
  have hback : ((((itemsOfSale s id).filterMap (voidMovement c s sale)).map
      Movement.posting).map fun x => x.moves product variant).sum =
        ∑ line ∈ Finset.range s.sales.items.length, (s.sales.items[line]?).elim 0 fun item =>
          if item.sale = id then item.metresOf product variant else 0 := by
    unfold itemsOfSale
    rw [List.map_map, sum_filterMap, sum_childrenOf]
    refine Finset.sum_congr rfl fun line hline => ?_
    have hget := List.getElem?_eq_getElem (Finset.mem_range.mp hline)
    rw [hget, Option.elim_some, Option.elim_some]
    congr 1
    exact moves_voidMovement (hlines _ (List.mem_of_getElem? hget))
  have hused : ∀ line ∈ Finset.range s.sales.items.length, lineUsed s product variant line =
      lineUsed t product variant line + (s.sales.items[line]?).elim 0 fun item =>
        if item.sale = id then item.metresOf product variant else 0 := by
    intro line hline
    have hget : s.sales.items[line]? = some (s.sales.items.get ⟨line, Finset.mem_range.mp hline⟩) :=
      List.getElem?_eq_getElem (Finset.mem_range.mp hline)
    set item := s.sales.items.get ⟨line, Finset.mem_range.mp hline⟩
    have hsame : netMeter t line item = netMeter s line item := by
      unfold netMeter remainingLineQuantity restockedQuantity
      rw [hsales]
    unfold lineUsed
    rw [hsales]
    dsimp only
    rw [hget, Option.elim_some, Option.elim_some, Option.elim_some, hsame]
    by_cases hid : item.sale = id
    · rw [hid, hlive, hvoid, if_pos rfl]
      cases hmeter : item.fabricMeterUsed with
      | none => simp [SaleItem.metresOf, hmeter]
      | some m =>
        have hone := ((hrecorded.lineRecorded hget).meter (by rw [hmeter]; rfl)).2
        have hnone : restockedQuantity s line item = 0 :=
          restockedQuantity_of_no_returns (by rw [hid]; exact hreturns)
        rw [netMeter_of_kept hmeter hone hnone]
        simp [SaleItem.metresOf, hmeter]
    · have hother : ¬ (Op.voidSale c id).Voids s item.sale := by
        rintro ⟨c', heq, -⟩
        cases heq
        exact hid rfl
      rw [if_neg hid, add_zero, ht, isLiveSale_step hdrafts (hrecorded.item_sale_lt hget) hother]
  have htransit : t.documents.inTransit = s.documents.inTransit :=
    inTransit_step (by simp [Op.footprint])
  have hlength : t.sales.items.length = s.sales.items.length := by rw [hsales]
  have hsum : metresUsed s product variant = metresUsed t product variant +
      ∑ line ∈ Finset.range s.sales.items.length, (s.sales.items[line]?).elim 0 fun item =>
        if item.sale = id then item.metresOf product variant else 0 := by
    unfold metresUsed
    rw [hlength, ← Finset.sum_add_distrib]
    exact Finset.sum_congr rfl hused
  unfold FabricBalanced at hs ⊢
  rw [hother, hback, htransit]
  omega

end Void

/-! ## Returns -/

/-- The line loop of a return that began in `s₀`. -/
structure FabricLoop (product : ℕ) (variant : Option ℕ) (s₀ s : State) : Prop where
  balanced : FabricBalanced product variant s
  rows : RestockRows s
  tables : s.sales.withoutLines = s₀.sales.withoutLines
  documents : s.documents = s₀.documents

section Return

variable {c : Call} {r : ReturnRequest} {sale : Sale} {header number : ℕ} {s₀ s₁ s t : State}
  {done : List ReturnEntry} {p p' : ReturnProgress} {e : ReturnEntry} {item : SaleItem}
  {product : ℕ} {variant : Option ℕ}

/-- A return line leaves the other lines alone. -/
lemma restockedQuantity_other {returned : ℚ} {line : ℕ}
    (hsales : t.sales = (recordReturnLine header r e item returned s).sales)
    (hline : e.saleItem ≠ line) (x : SaleItem) :
    restockedQuantity t line x = restockedQuantity s line x := by
  unfold restockedQuantity
  rw [hsales]
  unfold recordReturnLine
  dsimp only
  rw [List.filter_append, List.filter_cons_of_neg (by simp [hline]), List.filter_nil,
    List.append_nil]

/-- What a return line adds to its own line. -/
lemma restockedQuantity_own {returned : ℚ}
    (hsales : t.sales = (recordReturnLine header r e item returned s).sales)
    (hheader : (s.sales.returns[header]?).any (fun x => x.sale = r.sale) = true) {x : SaleItem}
    (hx : x.sale = r.sale) :
    restockedQuantity t e.saleItem x = restockedQuantity s e.saleItem x +
      if doesRestock r e item = true then qty e.quantity else 0 := by
  unfold restockedQuantity
  rw [hsales, hx]
  unfold recordReturnLine
  dsimp only
  rw [List.filter_append, List.map_append, List.sum_append]
  congr 1
  by_cases hrestock : doesRestock r e item = true
  · rw [if_pos hrestock, List.filter_cons_of_pos (by simp [hrestock, hheader])]
    simp
  · rw [if_neg hrestock, List.filter_cons_of_neg (by simp [hrestock])]
    rfl

/-- A line that measures fabric is returned whole, and for the first time. -/
lemma whole_of_meter (hloop : ReturnLoop r s₀ done p s) (hwithin : ReturnedWithin s₀)
    (hline : LineReturned c r sale header number e item p p' s t) (hrecorded : LineRecorded item)
    (hmeter : item.fabricMeterUsed.isSome = true) :
    qty e.quantity = 1000 ∧ item.returnedQuantity = 0 ∧
      qty (p.returned e.saleItem + e.quantity) = 1000 := by
  have hwhole := hline.whole (by rw [isMeterGarment, hmeter, Bool.true_or])
  rw [(hrecorded.meter hmeter).2] at hwhole
  have hremaining := hline.remaining
  rw [(hrecorded.meter hmeter).2, hwhole] at hremaining
  obtain ⟨item₀, hitem₀, -⟩ := item_of_core hloop.core hline.line
  have hstart : 0 ≤ p.returned e.saleItem := by
    rw [hloop.progress, startProgress_eq hitem₀]
    have hnonneg := dec_nonneg.mpr (hwithin _ _ hitem₀).1
    have hrequested := requested_nonneg done e.saleItem
    linarith
  have hzero : p.returned e.saleItem = 0 := by linarith
  refine ⟨by rw [hwhole, qty_dec], ?_, by rw [hzero, hwhole, zero_add, qty_dec]⟩
  rw [hloop.stored _ _ hline.line, hzero, qty_zero]

/-- What one line of a return puts back of the product, it no longer uses. -/
lemma FabricLoop.line (h : FabricLoop product variant s₁ s)
    (hloop : ReturnLoop r s₀ done p s) (hwithin : ReturnedWithin s₀)
    (hline : LineReturned c r sale header number e item p p' s t) (hrecorded : LineRecorded item)
    (hmeasured : item.product = product →
      item.customerSuppliedFabric = true ∨ item.fabricMeterUsed.isSome = true)
    (hlive : isLiveSale s r.sale = true)
    (hheader : (s.sales.returns[header]?).any (fun x => x.sale = r.sale) = true)
    (hsale : item.sale = r.sale) : FabricLoop product variant s₁ t := by
  have hsales := sales_of_rest hline.rest
  have hrest := documents_of_rest hline.rest
  have hdocuments : t.documents = s.documents := hrest
  have hlt := (List.getElem?_eq_some_iff.mp hline.line).1
  have hitems : t.sales.items = s.sales.items.modify e.saleItem ({ · with
      returnedQuantity := qty (p.returned e.saleItem + e.quantity) }) := by rw [hsales]; rfl
  have hitem : t.sales.items[e.saleItem]? = some { item with
      returnedQuantity := qty (p.returned e.saleItem + e.quantity) } := by
    rw [hitems, List.getElem?_modify_eq, hline.line]
    rfl
  have hlive_eq : ∀ id, isLiveSale t id = isLiveSale s id := by
    intro id
    unfold isLiveSale
    rw [hsales]
    rfl
  have hother : ∀ j, j ≠ e.saleItem → lineUsed t product variant j =
      lineUsed s product variant j := by
    intro j hj
    unfold lineUsed netMeter remainingLineQuantity
    simp only [restockedQuantity_other hsales (Ne.symm hj), hlive_eq]
    rw [hitems, List.getElem?_modify_ne _ _ (Ne.symm hj)]
  have hown := restockedQuantity_own hsales hheader hsale
  obtain ⟨rows, hrows, hpostings⟩ := hline.movements
  have hbefore : lineUsed s product variant e.saleItem =
      if (item.product = product ∧ item.variant = variant) ∧ item.fabricMeterUsed.isSome = true ∧
        isLiveSale s item.sale = true then netMeter s e.saleItem item else 0 := by
    unfold lineUsed
    rw [hline.line, Option.elim_some]
  have hafter : lineUsed t product variant e.saleItem =
      if (item.product = product ∧ item.variant = variant) ∧ item.fabricMeterUsed.isSome = true ∧
        isLiveSale s item.sale = true then netMeter t e.saleItem item else 0 := by
    unfold lineUsed
    rw [hitem, Option.elim_some, hlive_eq]
    rfl
  -- a line that measures fabric goes from its metres to nothing if it is put back
  have hback : ((if doesRestock r e item && isRestockable s item then
      [(returnMovement c sale number e item).posting] else []).map
        fun x => x.moves product variant).sum =
      lineUsed s product variant e.saleItem - lineUsed t product variant e.saleItem := by
    rw [hbefore, hafter]
    by_cases hkey : item.product = product ∧ item.variant = variant
    · cases hmeter : item.fabricMeterUsed with
      | none =>
        have hfabric := (hmeasured hkey.1).resolve_right (by rw [hmeter]; exact Bool.false_ne_true)
        simp [doesRestock, hfabric]
      | some m =>
        have hsome : item.fabricMeterUsed.isSome = true := by rw [hmeter]; rfl
        obtain ⟨hq, hzero, -⟩ := whole_of_meter hloop hwithin hline hrecorded hsome
        have hone := (hrecorded.meter hsome).2
        have hnone : restockedQuantity s e.saleItem item = 0 := by
          have hbounds := h.rows.within _ _ hline.line hsome
          omega
        have hfabric : item.customerSuppliedFabric = false := by
          by_contra hfabric
          rw [item.customerFabric_noMeter (by simpa using hfabric)] at hmeter
          cases hmeter
        have hrestockable : isRestockable s item = true := by
          simp [isRestockable, hfabric, hmeter]
        rw [hnone, zero_add, hq] at hown
        rw [netMeter_of_kept hmeter hone hnone, hrestockable, Bool.and_true]
        by_cases hrestock : doesRestock r e item = true
        · rw [if_pos hrestock] at hown ⊢
          rw [netMeter_of_restocked hone hown]
          simp [returnMovement, restockMovement, Movement.posting, Posting.moves, hkey, hmeter,
            hsale, hlive]
        · rw [if_neg hrestock] at hown ⊢
          rw [netMeter_of_kept hmeter hone hown]
          simp
    · have hnot : ¬ ((item.product = product ∧ item.variant = variant) ∧
          item.fabricMeterUsed.isSome = true ∧ isLiveSale s item.sale = true) := fun h => hkey h.1
      rw [if_neg hnot, if_neg hnot]
      split
      · simp [returnMovement, restockMovement, Movement.posting, Posting.moves, hkey]
      · rfl
  have hposted : ∀ x ∈ (if doesRestock r e item && isRestockable s item then
      [(returnMovement c sale number e item).posting] else []),
      isReported x.movementType = false := by
    intro x hx
    split at hx
    · rw [List.mem_singleton.mp hx]
      rfl
    · exact absurd hx List.not_mem_nil
  have hmoved := otherMoved_append hrows hpostings hposted product variant
  have hused := metresUsed_of_line (by rw [hitems, List.length_modify]) hlt hother
  refine {
    balanced := ?_
    rows := ⟨fun x hx => ?_, fun line x hx hmeter => ?_⟩
    tables := ?_
    documents := hdocuments.trans h.documents }
  · have hs := h.balanced
    unfold FabricBalanced at hs ⊢
    rw [hmoved, hback, hused, hdocuments]
    omega
  · rw [hsales] at hx ⊢
    rcases List.mem_append.mp hx with hx | hx
    · exact h.rows.header x hx
    · rw [List.mem_singleton.mp hx]
      obtain ⟨row, hrow, -⟩ := (Option.any_eq_true _ _).mp hheader
      exact (List.getElem?_eq_some_iff.mp hrow).1
  · by_cases hj : e.saleItem = line
    · subst hj
      rw [hitem] at hx
      obtain rfl := Option.some.inj hx
      obtain ⟨hq, hzero, hafter⟩ := whole_of_meter hloop hwithin hline hrecorded hmeter
      have hbounds := h.rows.within _ _ hline.line hmeter
      have hown' : restockedQuantity t e.saleItem { item with
          returnedQuantity := qty (p.returned e.saleItem + e.quantity) } =
          restockedQuantity s e.saleItem item +
            if doesRestock r e item = true then qty e.quantity else 0 := hown
      rw [hown', hq]
      dsimp only
      rw [hafter]
      split <;> omega
    · rw [hitems, List.getElem?_modify_ne _ _ hj] at hx
      rw [restockedQuantity_other hsales hj]
      exact h.rows.within line x hx hmeter
  · rw [← h.tables, hsales]
    rfl

end Return

/-! ## A whole return -/

/-- Lines that stay, of sales that stay live, with the same stock put back, use what they used. -/
lemma metresUsed_congr {s t : State} (hitems : t.sales.items = s.sales.items)
    (hback : ∀ (line : ℕ) item, s.sales.items[line]? = some item →
      restockedQuantity t line item = restockedQuantity s line item)
    (hlive : ∀ (line : ℕ) item, s.sales.items[line]? = some item →
      isLiveSale t item.sale = isLiveSale s item.sale) (product : ℕ) (variant : Option ℕ) :
    metresUsed t product variant = metresUsed s product variant := by
  unfold metresUsed lineUsed netMeter remainingLineQuantity
  rw [hitems]
  refine Finset.sum_congr rfl fun line hline => ?_
  have hget := List.getElem?_eq_getElem (Finset.mem_range.mp hline)
  rw [hget, Option.elim_some, Option.elim_some, hback line _ hget, hlive line _ hget]

/-- A return that has no lines yet counts for nothing. -/
lemma restockedQuantity_openReturn {c : Call} {r : ReturnRequest} {sale : Sale} {s : State}
    (hs : RestockRows s) (line : ℕ) (item : SaleItem) :
    restockedQuantity (openReturn c r sale s) line item = restockedQuantity s line item := by
  unfold restockedQuantity openReturn
  dsimp only
  refine congrArg (fun l => (List.map SaleReturnItem.quantity l).sum) ?_
  refine List.filter_congr fun x hx => ?_
  rw [List.getElem?_append_left (hs.header x hx)]

/-- The refund of a return is no stock. -/
lemma restockedQuantity_refunded {s t : State} {header : ℕ} {refund : ℤ}
    (hrows : t.sales.returnItems = s.sales.returnItems)
    (hreturns : t.sales.returns =
      s.sales.returns.modify header ({ · with refundAmount := refund })) (line : ℕ)
    (item : SaleItem) : restockedQuantity t line item = restockedQuantity s line item := by
  unfold restockedQuantity
  rw [hrows, hreturns]
  refine congrArg (fun l => (List.map SaleReturnItem.quantity l).sum) ?_
  refine List.filter_congr fun x _ => ?_
  rw [List.getElem?_modify]
  cases s.sales.returns[x.saleReturn]? with
  | none => rfl
  | some row => by_cases hrow : header = x.saleReturn <;> simp [hrow]

/-- The whole line loop of a return. -/
lemma fabricLoop_of_runs {c : Call} {r : ReturnRequest} {sale : Sale} {s u : State}
    {p : ReturnProgress} {number : ℕ} {product : ℕ} {variant : Option ℕ}
    (hwithin : ReturnedWithin s) (hrecorded : (salesView s).Recorded)
    (hlines : MetreLines product s) (hrows : RestockRows s)
    (hlive : isLiveSale s r.sale = true)
    (hof : ∀ e ∈ r.items, isItemOfSale s r.sale e.saleItem = true)
    (hs : FabricBalanced product variant s)
    (h : Runs (r.items.foldlM (returnLine c r sale s.sales.returns.length number)
      (startProgress s)) (openReturn c r sale s) p u) :
    FabricLoop product variant (openReturn c r sale s) u := by
  have hopen : FabricLoop product variant (openReturn c r sale s) (openReturn c r sale s) := by
    refine ⟨?_, ⟨fun x hx => ?_, fun line item hitem hmeter => ?_⟩, rfl, rfl⟩
    · have hused := metresUsed_congr (s := s) (t := openReturn c r sale s) rfl
        (fun line item _ => restockedQuantity_openReturn hrows line item) (fun _ _ _ => rfl)
        product variant
      unfold FabricBalanced at hs ⊢
      rw [hused]
      exact hs
    · have hlt := hrows.header x hx
      unfold openReturn
      rw [List.length_append]
      exact Nat.lt_add_right _ hlt
    · rw [restockedQuantity_openReturn hrows]
      exact hrows.within line item hitem hmeter
  refine (runs_foldlM_induct (I := fun done p v => ReturnLoop r s done p v ∧
    FabricLoop product variant (openReturn c r sale s) v) ?_ h ⟨returnLoop_start hwithin, hopen⟩).2
  rintro done e p v p' w he hrun ⟨hloop, hfabric⟩
  rcases runs_returnLine hrun with ⟨hle, rfl, rfl⟩ | ⟨item, hline⟩
  · exact ⟨hloop.skip hle, hfabric⟩
  · refine ⟨hloop.line hline, ?_⟩
    -- the line is one of the sale, and was there when the return began
    obtain ⟨item₀, hitem₀, hcore⟩ := item_of_core hloop.core hline.line
    have hsale : item.sale = r.sale := by
      have hsale₀ := hof e he
      rw [isItemOfSale, hitem₀, Option.any_some, decide_eq_true_eq] at hsale₀
      exact (congrArg SaleItem.sale hcore).symm.trans hsale₀
    have hline₀ : LineRecorded item := by
      rw [← lineRecorded_core, ← hcore, lineRecorded_core]
      exact hrecorded.lineRecorded hitem₀
    have hmeasured : item.product = product →
        item.customerSuppliedFabric = true ∨ item.fabricMeterUsed.isSome = true := by
      have hmeasured₀ : item₀.core.product = product →
          item₀.core.customerSuppliedFabric = true ∨ item₀.core.fabricMeterUsed.isSome = true :=
        hlines item₀ (List.mem_of_getElem? hitem₀)
      rw [hcore] at hmeasured₀
      exact hmeasured₀
    refine hfabric.line hloop hwithin hline hline₀ hmeasured ?_ ?_ hsale
    · have htables := congrArg SalesTables.sales hfabric.tables
      have hsales : v.sales.sales = s.sales.sales := htables
      unfold isLiveSale at hlive ⊢
      rwa [hsales]
    · have htables := congrArg SalesTables.returns hfabric.tables
      have hreturns : v.sales.returns = s.sales.returns ++ [saleReturnRow c r sale s] := htables
      rw [hreturns, List.getElem?_concat_length, Option.any_some]
      exact decide_eq_true rfl

/-- What a return puts back of the product, its lines no longer use. -/
lemma fabric_return {c : Call} {r : ReturnRequest} {s t : State} {x : Unit} {product : ℕ}
    {variant : Option ℕ} (h : Runs (processReturn c r) s x t) (hwithin : ReturnedWithin s)
    (hrecorded : (salesView s).Recorded) (hdrafts : NoDrafts s) (hlines : MetreLines product s)
    (hrows : RestockRows s) (hs : FabricBalanced product variant s) :
    FabricBalanced product variant t ∧ RestockRows t := by
  obtain ⟨sale, p, u, hcheck, hloop, -, rfl⟩ := runs_processReturn h
  obtain ⟨hsale, hvoid, hof⟩ := checkReturn_ok hcheck
  have hnot : sale.IsLive := ⟨hdrafts sale (List.mem_of_getElem? hsale), hvoid⟩
  have hlive : isLiveSale s r.sale = true := isLiveSale_eq_true.mpr ⟨sale, hsale, hnot⟩
  have hfabric := fabricLoop_of_runs hwithin hrecorded hlines hrows hlive hof hs hloop
  have hreturned := returnLoop_of_runs hwithin hloop
  obtain ⟨customers, hfinish⟩ :=
    finishReturn_eq r sale s.sales.returns.length p.refundTotal u
  set t := finishReturn r sale s.sales.returns.length p.refundTotal u
  have hitems : t.sales.items = u.sales.items := by rw [hfinish]
  have hback : ∀ (line : ℕ) (item : SaleItem),
      restockedQuantity t line item = restockedQuantity u line item :=
    restockedQuantity_refunded (by rw [hfinish]) (by rw [hfinish])
  have htables := congrArg SalesTables.sales hfabric.tables
  have hsales : u.sales.sales = s.sales.sales := htables
  refine ⟨?_, fun y hy => ?_, fun line item hitem hmeter => ?_⟩
  · have hused := metresUsed_congr hitems (fun line item _ => hback line item)
      (fun line item hitem => ?_) product variant
    · have hbalanced := hfabric.balanced
      unfold FabricBalanced at hbalanced ⊢
      rw [hused]
      rw [hfinish]
      exact hbalanced
    · obtain ⟨item₀, hitem₀, hcore⟩ := item_of_core hreturned.core hitem
      have hlt := hrecorded.item_sale_lt hitem₀
      have hsame : item.sale = item₀.sale := (congrArg SaleItem.sale hcore).symm
      refine isLiveSale_modify r.sale ({ · with status := returnStatus u r.sale }) [] ?_
        (fun y hy => ?_) ?_
      · rw [hfinish, List.append_nil]
      · rw [hsales, hsale] at hy
        obtain rfl := Option.some.inj hy
        exact iff_of_true (returnStatus_live u r.sale) hnot
      · rw [hsales, hsame]
        exact hlt
  · have hlength : t.sales.returns.length = u.sales.returns.length := by
      rw [hfinish, List.length_modify]
    rw [hlength]
    refine hfabric.rows.header y ?_
    rw [hfinish] at hy
    exact hy
  · rw [hback]
    rw [hitems] at hitem
    exact hfabric.rows.within line item hitem hmeter

end NexaPos
