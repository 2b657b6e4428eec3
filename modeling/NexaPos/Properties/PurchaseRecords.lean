import NexaPos.Purchasing

/-!
# What the database says about purchases

Lines and return rows refer to rows that exist, what went back of a line had come in, and what
came in was ordered.  The quantities that a call names are typed ones: a line moves by the stored
value of the quantity.
-/

namespace NexaPos

open Tx

/-! ## New purchases -/

/-- A stored line of a requested row. -/
structure LineOrdered (id : ℕ) (row : PurchaseRow) (item : PurchaseItem) : Prop where
  purchase : item.purchase = id
  ordered : item.quantityOrdered = qty row.quantity
  received : item.quantityReceived = 0
  unitCost : item.unitCost = money row.unitCost
  lineTotal : item.lineTotal = money (row.quantity * dec item.unitCost)
  quantity_pos : 0 < row.quantity
  unitCost_nonneg : 0 ≤ item.unitCost

/-- What the checks of `create_purchase` make of a request. -/
structure PurchasePriced (r : PurchaseRequest) (s : State) (row : Purchase)
    (items : List PurchaseItem) : Prop where
  supplier : row.supplier < s.parties.suppliers.length
  lines : List.Forall₂ (LineOrdered s.purchases.purchases.length) r.rows items
  total : row.total = (items.map PurchaseItem.lineTotal).sum + row.charges
  total_nonneg : 0 ≤ row.total
  unpaid : row.amountPaid = 0

lemma validatePurchaseRow_ok {s : State} {id : ℕ} {row : PurchaseRow} {item : PurchaseItem}
    (h : validatePurchaseRow s id row = .ok item) : LineOrdered id row item := by
  unfold validatePurchaseRow at h
  simp only [except_bind_eq_ok, require_eq_ok, decide_eq_true_eq, pure, Except.pure,
    Except.ok.injEq] at h
  obtain ⟨product, -, variant, -, -, hquantity, -, hcost, -, -, rfl⟩ := h
  exact ⟨rfl, rfl, rfl, rfl, rfl, hquantity, hcost⟩

lemma checkPurchase_ok {c : Call} {r : PurchaseRequest} {s : State} {row : Purchase}
    {items : List PurchaseItem} (h : checkPurchase c r s = .ok (row, items)) :
    PurchasePriced r s row items := by
  unfold checkPurchase at h
  simp only [except_bind_eq_ok, require_eq_ok, found_eq_ok, decide_eq_true_eq, pure, Except.pure,
    Except.ok.injEq, Prod.mk.injEq] at h
  obtain ⟨-, -, -, -, supplier, hsupplier, branch, -, warehouse, -, -, -, -, -, -, -, items', hitems,
    -, -, -, htotal, rfl, rfl⟩ := h
  refine ⟨(List.getElem?_eq_some_iff.mp hsupplier).1, ?_, ?_, htotal, rfl⟩
  · exact (mapM_eq_ok.mp hitems).imp fun row item => validatePurchaseRow_ok
  · simp only [Purchase.charges]
    ring

/-! ## What a request does to the goods -/

/-- A part of the goods of a purchase that came in, went back or was ordered. -/
structure GoodsPart where
  unitCost : ℤ
  quantity : ℚ

/-- The value of a part, rounded on its own. -/
def GoodsPart.value (p : GoodsPart) : ℤ := money (p.quantity * dec p.unitCost)

/-- The parts that a call names. -/
def partsAsked (s : State) (id : ℕ) (quantities : List (ℕ × ℚ)) : List GoodsPart :=
  (askedLines quantities (itemsOfPurchase s id)).map fun e =>
    ⟨e.2.unitCost, requestedQuantity quantities e.1⟩

/-- What the business owes a supplier. -/
def payable (s : State) (supplier : ℕ) : ℤ :=
  (s.parties.suppliers[supplier]?.map Supplier.balance).getD 0

/-- What is owed to a supplier after its row was rewritten. -/
lemma payable_of_suppliers {s t : State} {supplier : ℕ} {delta : ℤ}
    (hlt : supplier < s.parties.suppliers.length)
    (h : t.parties.suppliers = s.parties.suppliers.modify supplier
      fun x => { x with balance := x.balance + delta }) :
    payable t supplier - payable s supplier = delta := by
  have hsome : s.parties.suppliers[supplier]? = some s.parties.suppliers[supplier] :=
    List.getElem?_eq_getElem hlt
  rw [payable, payable, h, List.getElem?_modify, hsome]
  simp

/-- The supplier of a purchase. -/
def supplierOf (s : State) (id : ℕ) : ℕ :=
  (s.purchases.purchases[id]?.map Purchase.supplier).getD 0

/-- Goods of a purchase came in or went back. -/
structure GoodsEvent where
  /-- A receipt; otherwise a return. -/
  incoming : Bool
  parts : List GoodsPart
  /-- What the call added to the supplier's payable. -/
  change : ℤ

/-- The goods that an accepted call moves on the purchase. -/
def goodsEvents (id : ℕ) (s : State) (op : PurchasingOp) : List GoodsEvent :=
  let event (incoming : Bool) (quantities : List (ℕ × ℚ)) : GoodsEvent := {
    incoming := incoming
    parts := partsAsked s id quantities
    change := payable (Purchasing.step s op) (supplierOf s id) - payable s (supplierOf s id) }
  match op with
  | .pos (.receivePurchase _ purchase quantities) =>
    if purchase = id ∧ op.Accepted s then [event true quantities] else []
  | .pos (.returnPurchase _ purchase quantities) =>
    if purchase = id ∧ op.Accepted s then [event false quantities] else []
  | _ => []

/-- A purchase without what payments and receipts change. -/
def Purchase.core (p : Purchase) : Purchase := { p with status := .order, amountPaid := 0 }

/-- The goods are as they were. -/
structure SameGoods (s t : State) : Prop where
  items : t.purchases.items = s.purchases.items
  returnItems : t.purchases.returnItems = s.purchases.returnItems
  purchases : t.purchases.purchases.map Purchase.core = s.purchases.purchases.map Purchase.core
  suppliers : s.parties.suppliers.length ≤ t.parties.suppliers.length

/-- What a request does to the goods of purchases. -/
inductive GoodsStep (s t : State) (op : PurchasingOp) : Prop
  | same (h : SameGoods s t) (hquiet : ∀ id, goodsEvents id s op = [])
  | ordered {c : Call} {r : PurchaseRequest} {row : Purchase} {items : List PurchaseItem}
      (h : PurchaseOrdered c r s t row items) (hquiet : ∀ id, goodsEvents id s op = [])
  | received {purchase : ℕ} {quantities : List (ℕ × ℚ)} {row : Purchase}
      (h : PurchaseReceived purchase quantities row s t)
      (hevents : ∀ id, goodsEvents id s op = if purchase = id then
        [⟨true, partsAsked s id quantities,
          payable t (supplierOf s id) - payable s (supplierOf s id)⟩] else [])
  | sentBack {purchase : ℕ} {quantities : List (ℕ × ℚ)} {row : Purchase}
      (h : PurchaseSentBack purchase quantities row s t)
      (hevents : ∀ id, goodsEvents id s op = if purchase = id then
        [⟨false, partsAsked s id quantities,
          payable t (supplierOf s id) - payable s (supplierOf s id)⟩] else [])

lemma sameGoods_settle (id supplier : ℕ) (amount : ℤ) (s : State) :
    SameGoods s (settle id supplier amount s) := by
  refine ⟨rfl, rfl, ?_, ?_⟩
  · refine map_modify_of_eq ?_ _ _
    intro _
    rfl
  · exact (List.length_modify _ _ _).ge

lemma SameGoods.trans {s t u : State} (h₁ : SameGoods s t) (h₂ : SameGoods t u) :
    SameGoods s u :=
  ⟨h₂.items.trans h₁.items, h₂.returnItems.trans h₁.returnItems, h₂.purchases.trans h₁.purchases,
    h₁.suppliers.trans h₂.suppliers⟩

/-- A list of rows that a form saved is no shorter. -/
lemma length_le_saveRow {α : Type} (id : Option ℕ) (new : α) (change : α → α) (rows : List α) :
    rows.length ≤ (saveRow id new change rows).length := by
  unfold saveRow
  cases id <;> simp

theorem goodsStep (s : State) (op : PurchasingOp) : GoodsStep s (Purchasing.step s op) op := by
  by_cases haccepted : op.Accepted s
  · cases purchasingStep haccepted with
    | @other pos hop hpurchases hsuppliers =>
      refine .same ⟨by rw [hpurchases], by rw [hpurchases], by rw [hpurchases], ?_⟩ fun id => ?_
      · rcases hsuppliers with h | ⟨id, row, -, h⟩
        · exact h ▸ le_rfl
        · rw [h]
          exact length_le_saveRow _ _ _ _
      · cases pos with
        | receivePurchase c purchase quantities => exact absurd (by simp [Op.footprint]) hop
        | returnPurchase c purchase quantities => exact absurd (by simp [Op.footprint]) hop
        | _ => rfl
    | ordered h => exact .ordered h fun _ => rfl
    | received h =>
      refine .received h fun id => ?_
      simp only [goodsEvents, haccepted, and_true]
    | sentBack h =>
      refine .sentBack h fun id => ?_
      simp only [goodsEvents, haccepted, and_true]
    | @paid c id rows row payments hcheck h =>
      refine .same ?_ fun _ => rfl
      obtain ⟨added, hadded, -⟩ := foldl_addPayment c id row payments s
      have hrecorded : SameGoods s (payments.foldl (addPayment c id row) s) := by
        rw [hadded]
        exact ⟨rfl, rfl, rfl, le_rfl⟩
      rw [h]
      split
      · exact hrecorded
      · exact hrecorded.trans (sameGoods_settle _ _ _ _)
    | chequeKept hcheck h =>
      refine .same ?_ fun _ => rfl
      rw [h]
      exact ⟨rfl, rfl, rfl, le_rfl⟩
    | @chequeChanged c payment status row id new hcheck h =>
      refine .same ?_ fun _ => rfl
      rw [h]
      unfold applyChequeStatus
      split
      · have hsettled := sameGoods_settle id row.supplier row.amount s
        exact ⟨rfl, rfl, hsettled.purchases, hsettled.suppliers⟩
      · exact ⟨rfl, rfl, rfl, le_rfl⟩
    | cancelled hcheck h =>
      refine .same ?_ fun _ => rfl
      rw [h]
      refine ⟨rfl, rfl, ?_, le_rfl⟩
      refine map_modify_of_eq ?_ _ _
      intro _
      rfl
  · rw [Purchasing.step_of_not_accepted haccepted]
    refine .same ⟨rfl, rfl, rfl, le_rfl⟩ fun id => ?_
    unfold goodsEvents
    split <;> simp [haccepted]

/-! ## Rows refer to rows that exist -/

structure PurchasesLinked (s : State) : Prop where
  item : ∀ i ∈ s.purchases.items, i.purchase < s.purchases.purchases.length
  returnItem : ∀ r ∈ s.purchases.returnItems, r.purchaseItem < s.purchases.items.length

lemma SameGoods.length_purchases {s t : State} (h : SameGoods s t) :
    t.purchases.purchases.length = s.purchases.purchases.length := by
  simpa using congrArg List.length h.purchases

/-- A receipt keeps every column that taking a quantity in keeps. -/
lemma PurchaseReceived.items_map {id : ℕ} {quantities : List (ℕ × ℚ)} {row : Purchase} {s t : State}
    {β : Type} (h : PurchaseReceived id quantities row s t) (g : PurchaseItem → β)
    (hg : ∀ j i, g (receivedItem quantities j i) = g i) :
    t.purchases.items.map g = s.purchases.items.map g := by
  refine List.ext_getElem? fun j => ?_
  rw [List.getElem?_map, List.getElem?_map, h.items]
  cases s.purchases.items[j]? with
  | none => rfl
  | some i =>
    simp only [Option.map_some]
    split
    · rw [hg]
    · rfl

lemma PurchaseReceived.length_items {id : ℕ} {quantities : List (ℕ × ℚ)} {row : Purchase}
    {s t : State} (h : PurchaseReceived id quantities row s t) :
    t.purchases.items.length = s.purchases.items.length := by
  simpa using congrArg List.length (h.items_map PurchaseItem.purchase fun _ _ => rfl)

lemma purchasesLinked_step (s : State) (op : PurchasingOp) (hs : PurchasesLinked s) :
    PurchasesLinked (Purchasing.step s op) := by
  cases goodsStep s op with
  | same h _ =>
    refine ⟨?_, ?_⟩
    · rw [h.items, h.length_purchases]
      exact hs.item
    · rw [h.items, h.returnItems]
      exact hs.returnItem
  | @ordered c r row items h _ =>
    refine ⟨?_, ?_⟩
    · intro i hi
      rw [h.purchases, List.length_append, List.length_singleton]
      rw [h.items, List.mem_append] at hi
      rcases hi with hi | hi
      · have hlt := hs.item i hi
        omega
      · obtain ⟨x, -, hline⟩ := exists_of_forall₂_mem (checkPurchase_ok h.check).lines hi
        rw [hline.purchase]
        omega
    · have hreturns := congrArg (fun x => x.2.1) h.others
      change (Purchasing.step s op).purchases.returnItems = s.purchases.returnItems at hreturns
      rw [hreturns, h.items, List.length_append]
      intro r hr
      have hlt := hs.returnItem r hr
      omega
  | @received id quantities row h _ =>
    refine ⟨?_, ?_⟩
    · have hpurchases := h.items_map PurchaseItem.purchase fun _ _ => rfl
      intro i hi
      have hmem : i.purchase ∈ s.purchases.items.map PurchaseItem.purchase := by
        rw [← hpurchases]
        exact List.mem_map_of_mem hi
      obtain ⟨old, hold, hsame⟩ := List.mem_map.mp hmem
      rw [h.purchases, List.length_modify, ← hsame]
      exact hs.item old hold
    · have hreturns := congrArg (fun x => x.2.1) h.others
      change (Purchasing.step s op).purchases.returnItems = s.purchases.returnItems at hreturns
      rw [hreturns, h.length_items]
      exact hs.returnItem
  | @sentBack id quantities row h _ =>
    refine ⟨?_, ?_⟩
    · rw [h.items, h.purchases]
      exact hs.item
    · rw [h.items, h.returnItems]
      intro r hr
      rcases List.mem_append.mp hr with hr | hr
      · exact hs.returnItem r hr
      · obtain ⟨⟨line, item⟩, he, rfl⟩ := List.mem_map.mp hr
        exact (List.getElem?_eq_some_iff.mp (mem_askedLines.mp he).1.1).1

/-- A line that is new has no return rows. -/
lemma sentBack_eq_zero {s : State} (hs : PurchasesLinked s) {line : ℕ}
    (hline : s.purchases.items.length ≤ line) : sentBack s line = 0 := by
  have hnone : (s.purchases.returnItems.filter fun r => r.purchaseItem = line) = [] := by
    refine List.filter_eq_nil_iff.mpr fun r hr => ?_
    have hlt := hs.returnItem r hr
    rw [decide_eq_true_eq]
    omega
  rw [sentBack, hnone]
  rfl

/-! ## What went back had come in, and what came in was ordered -/

/-- The stored quantity that a call moves of a line. -/
def movedQuantity (id : ℕ) (quantities : List (ℕ × ℚ)) (line : ℕ) (item : PurchaseItem) : ℤ :=
  if item.purchase = id ∧ 0 < requestedQuantity quantities line then
    qty (requestedQuantity quantities line) else 0

/-- A line after the stored quantity came in. -/
def movedItem (id : ℕ) (quantities : List (ℕ × ℚ)) (line : ℕ) (item : PurchaseItem) :
    PurchaseItem :=
  { item with quantityReceived := item.quantityReceived + movedQuantity id quantities line item }

lemma movedQuantity_nonneg (id : ℕ) (quantities : List (ℕ × ℚ)) (line : ℕ) (item : PurchaseItem) :
    0 ≤ movedQuantity id quantities line item := by
  unfold movedQuantity
  split
  · rename_i h
    exact qty_nonneg h.2.le
  · exact le_rfl

structure LineWithin (s : State) (line : ℕ) (item : PurchaseItem) : Prop where
  unitCost_nonneg : 0 ≤ item.unitCost
  sentBack_nonneg : 0 ≤ sentBack s line
  sentBack_le : sentBack s line ≤ item.quantityReceived
  received_le : item.quantityReceived ≤ item.quantityOrdered

lemma LineWithin.received_nonneg {s : State} {line : ℕ} {item : PurchaseItem}
    (h : LineWithin s line item) : 0 ≤ item.quantityReceived :=
  h.sentBack_nonneg.trans h.sentBack_le

def GoodsWithin (s : State) : Prop :=
  ∀ (line : ℕ) item, s.purchases.items[line]? = some item → LineWithin s line item

/-- A received line grew by the stored quantity. -/
lemma PurchaseReceived.item {id : ℕ} {quantities : List (ℕ × ℚ)} {row : Purchase} {s t : State}
    (h : PurchaseReceived id quantities row s t) (hs : GoodsWithin s) (j : ℕ) :
    t.purchases.items[j]? = s.purchases.items[j]?.map (movedItem id quantities j) := by
  rw [h.items]
  cases hitem : s.purchases.items[j]? with
  | none => rfl
  | some i =>
    have hnonneg := (hs j i hitem).received_nonneg
    simp only [Option.map_some, Option.some.injEq]
    unfold movedItem movedQuantity
    split
    · rename_i hmoved
      unfold receivedItem
      rw [qty_dec_add hnonneg hmoved.2.le]
    · simp

/-- What was sent back of a line grew by the stored quantity. -/
lemma PurchaseSentBack.sentBack {id : ℕ} {quantities : List (ℕ × ℚ)} {row : Purchase} {s t : State}
    (h : PurchaseSentBack id quantities row s t) (line : ℕ) :
    NexaPos.sentBack t line = NexaPos.sentBack s line +
      (s.purchases.items[line]?.map (movedQuantity id quantities line)).getD 0 := by
  let moved : ℕ × PurchaseItem → Option PurchaseReturnItem := fun e =>
    if 0 < requestedQuantity quantities e.1 then
      some (returnItemFor s.purchases.returns.length (e, requestedQuantity quantities e.1))
    else none
  have hrows : (askedLines quantities (itemsOfPurchase s id)).map (fun e =>
      returnItemFor s.purchases.returns.length (e, requestedQuantity quantities e.1)) =
      (itemsOfPurchase s id).filterMap moved := by
    unfold askedLines
    generalize itemsOfPurchase s id = lines
    induction lines with
    | nil => rfl
    | cons e lines ih =>
      by_cases hpos : 0 < requestedQuantity quantities e.1
      · simp [moved, hpos, ih]
      · simp [moved, hpos, ih]
  have hlabel : ∀ e, ∀ r ∈ moved e, (fun r => some r.purchaseItem) r = some e.1 := by
    intro e r hr
    simp only [moved, Option.mem_def] at hr
    split at hr
    · obtain rfl := Option.some.inj hr
      rfl
    · exact nomatch hr
  have hone := filter_filterMap_childrenOf hlabel PurchaseItem.purchase s.purchases.items id line
  simp only [Option.some.injEq] at hone
  rw [NexaPos.sentBack, NexaPos.sentBack, h.returnItems, hrows, List.filter_append,
    List.map_append, List.sum_append]
  congr 1
  change ((((childrenOf PurchaseItem.purchase s.purchases.items id).filterMap moved).filter
    fun r => r.purchaseItem = line).map PurchaseReturnItem.quantity).sum = _
  rw [hone]
  cases s.purchases.items[line]? with
  | none => rfl
  | some i =>
    by_cases hof : i.purchase = id <;>
      by_cases hpos : 0 < requestedQuantity quantities line <;>
      simp [movedQuantity, moved, hof, hpos, returnItemFor]

lemma sentBack_congr {s t : State} (h : t.purchases.returnItems = s.purchases.returnItems)
    (line : ℕ) : sentBack t line = sentBack s line := by
  rw [sentBack, sentBack, h]

/-- What a receipt takes in of a line was pending. -/
lemma PurchaseReceived.movedQuantity_le {id : ℕ} {quantities : List (ℕ × ℚ)} {row : Purchase}
    {s t : State} (h : PurchaseReceived id quantities row s t) {line : ℕ} {item : PurchaseItem}
    (hitem : s.purchases.items[line]? = some item)
    (hwithin : item.quantityReceived ≤ item.quantityOrdered) :
    movedQuantity id quantities line item ≤ item.quantityPending := by
  unfold movedQuantity
  split
  · rename_i hmoved
    have hle : requestedQuantity quantities line ≤ dec item.quantityPending :=
      h.pending (line, item) (mem_askedLines.mpr ⟨⟨hitem, hmoved.1⟩, hmoved.2⟩)
    exact qty_le_of_le_dec hle
  · unfold PurchaseItem.quantityPending
    omega

/-- What a return takes back of a line was still there. -/
lemma PurchaseSentBack.movedQuantity_le {id : ℕ} {quantities : List (ℕ × ℚ)} {row : Purchase}
    {s t : State} (h : PurchaseSentBack id quantities row s t) {line : ℕ} {item : PurchaseItem}
    (hitem : s.purchases.items[line]? = some item)
    (hwithin : NexaPos.sentBack s line ≤ item.quantityReceived) :
    movedQuantity id quantities line item ≤ item.quantityReceived - NexaPos.sentBack s line := by
  unfold movedQuantity
  split
  · rename_i hmoved
    have hle : requestedQuantity quantities line ≤
        dec (item.quantityReceived - NexaPos.sentBack s line) :=
      h.within (line, item) (mem_askedLines.mpr ⟨⟨hitem, hmoved.1⟩, hmoved.2⟩)
    exact qty_le_of_le_dec hle
  · omega

lemma goodsWithin_step (s : State) (op : PurchasingOp) (hlinked : PurchasesLinked s)
    (hs : GoodsWithin s) : GoodsWithin (Purchasing.step s op) := by
  cases goodsStep s op with
  | same h _ =>
    intro line item hitem
    rw [h.items] at hitem
    obtain ⟨hcost, hnonneg, hback, hreceived⟩ := hs line item hitem
    rw [← sentBack_congr h.returnItems] at hnonneg hback
    exact ⟨hcost, hnonneg, hback, hreceived⟩
  | ordered h _ =>
    have hreturns := congrArg (fun x => x.2.1) h.others
    change (Purchasing.step s op).purchases.returnItems = s.purchases.returnItems at hreturns
    intro line item hitem
    rw [h.items] at hitem
    rcases getElem?_append_eq_some.mp hitem with hold | ⟨hnew, hmem⟩
    · obtain ⟨hcost, hnonneg, hback, hreceived⟩ := hs line item hold
      rw [← sentBack_congr hreturns] at hnonneg hback
      exact ⟨hcost, hnonneg, hback, hreceived⟩
    · have hlines := (checkPurchase_ok h.check).lines
      obtain ⟨x, -, hline⟩ := exists_of_forall₂_mem hlines (List.mem_of_getElem? hmem)
      have hzero : sentBack (Purchasing.step s op) line = 0 := by
        rw [sentBack_congr hreturns, sentBack_eq_zero hlinked hnew]
      have hordered := qty_nonneg hline.quantity_pos.le
      refine ⟨hline.unitCost_nonneg, hzero.ge, ?_, ?_⟩
      · rw [hzero, hline.received]
      · rw [hline.received, hline.ordered]
        exact hordered
  | @received id quantities row h _ =>
    have hreturns := congrArg (fun x => x.2.1) h.others
    change (Purchasing.step s op).purchases.returnItems = s.purchases.returnItems at hreturns
    intro line item hitem
    rw [h.item hs, Option.map_eq_some_iff] at hitem
    obtain ⟨old, hold, rfl⟩ := hitem
    obtain ⟨hcost, hnonneg, hback, hreceived⟩ := hs line old hold
    have hmoved := h.movedQuantity_le hold hreceived
    have hmoved_nonneg := movedQuantity_nonneg id quantities line old
    unfold PurchaseItem.quantityPending at hmoved
    rw [← sentBack_congr hreturns] at hnonneg hback
    refine ⟨hcost, hnonneg, ?_, ?_⟩
    · exact hback.trans (le_add_of_nonneg_right hmoved_nonneg)
    · change old.quantityReceived + movedQuantity id quantities line old ≤ old.quantityOrdered
      omega
  | @sentBack id quantities row h _ =>
    intro line item hitem
    rw [h.items] at hitem
    obtain ⟨hcost, hnonneg, hback, hreceived⟩ := hs line item hitem
    have hmoved := h.movedQuantity_le hitem hback
    have hmoved_nonneg := movedQuantity_nonneg id quantities line item
    have hsent := h.sentBack line
    rw [hitem, Option.map_some, Option.getD_some] at hsent
    refine ⟨hcost, ?_, ?_, hreceived⟩ <;> omega

/-- What the purchases of a history keep. -/
structure PurchasesKept (s : State) : Prop where
  linked : PurchasesLinked s
  within : GoodsWithin s

lemma purchasesKept_step (s : State) (op : PurchasingOp) (hs : PurchasesKept s) :
    PurchasesKept (Purchasing.step s op) :=
  ⟨purchasesLinked_step s op hs.linked, goodsWithin_step s op hs.linked hs.within⟩

lemma purchasesKept_history (ops : List PurchasingOp) : PurchasesKept (Purchasing.history ops) := by
  refine Trace.invariant purchasesKept_step ?_ ops
  refine ⟨⟨?_, ?_⟩, ?_⟩
  · exact fun i hi => (List.not_mem_nil hi).elim
  · exact fun r hr => (List.not_mem_nil hr).elim
  · exact fun line item hitem => nomatch hitem

end NexaPos
