import NexaPos.Properties.PurchaseRecords
import Mathlib.Algebra.BigOperators.Ring.List
import Mathlib.Tactic.Linarith

/-!
# The payable of a purchase

Every receipt rounds the value of each part it takes in, and the receipt that completes the order
adds the charges.  The purchase's total was rounded once for each line, so the two agree up to
the roundings made: half a thousandth for each part and each line, provided that quantities are
stored in full.
-/

namespace NexaPos

open Tx

/-! ## Parts and their roundings -/

/-- The value of what the column keeps of a part's quantity, in thousandths. -/
def GoodsPart.stored (p : GoodsPart) : ℚ := dec (qty p.quantity) * p.unitCost

lemma GoodsPart.abs_value_sub_stored {p : GoodsPart} (h : Stored p.quantity) :
    |(p.value : ℚ) - p.stored| ≤ 1 / 2 := by
  have hexact : p.stored = p.quantity * dec p.unitCost * 1000 := by
    rw [GoodsPart.stored, h, dec]
    ring
  have hupper := money_le_add_half (p.quantity * dec p.unitCost)
  have hlower := sub_half_le_money (p.quantity * dec p.unitCost)
  rw [hexact, abs_le, GoodsPart.value]
  exact ⟨by linarith, by linarith⟩

/-- The values of parts against what the columns keep of them. -/
lemma abs_sum_value_sub_sum_stored {parts : List GoodsPart} (h : ∀ p ∈ parts, Stored p.quantity) :
    |(((parts.map GoodsPart.value).sum : ℤ) : ℚ) - (parts.map GoodsPart.stored).sum| ≤
      parts.length / 2 := by
  induction parts with
  | nil => simp
  | cons p parts ih =>
    have hone := GoodsPart.abs_value_sub_stored (h p List.mem_cons_self)
    have hrest := ih fun q hq => h q (List.mem_cons_of_mem p hq)
    rw [abs_le] at hone hrest ⊢
    simp only [List.map_cons, List.sum_cons, List.length_cons, Int.cast_add, Nat.cast_add,
      Nat.cast_one]
    constructor <;> linarith [hone.1, hone.2, hrest.1, hrest.2]

/-- The receipts, or the returns, among the events. -/
def eventsOf (incoming : Bool) (events : List GoodsEvent) : List GoodsEvent :=
  events.filter fun e => e.incoming = incoming

/-- The parts that came in, or went back. -/
def partsOf (incoming : Bool) (events : List GoodsEvent) : List GoodsPart :=
  (eventsOf incoming events).flatMap GoodsEvent.parts

/-- What the receipts, or the returns, added to the payable. -/
def changeOf (incoming : Bool) (events : List GoodsEvent) : ℤ :=
  ((eventsOf incoming events).map GoodsEvent.change).sum

/-- The value of the parts that came in, or went back. -/
def valueOf (incoming : Bool) (events : List GoodsEvent) : ℤ :=
  ((partsOf incoming events).map GoodsPart.value).sum

/-- What the columns keep of the parts. -/
def storedOf (incoming : Bool) (events : List GoodsEvent) : ℚ :=
  ((partsOf incoming events).map GoodsPart.stored).sum

section Append

variable (incoming : Bool) (events : List GoodsEvent) (e : GoodsEvent)

lemma eventsOf_concat : eventsOf incoming (events ++ [e]) =
    eventsOf incoming events ++ if e.incoming = incoming then [e] else [] := by
  unfold eventsOf
  rw [List.filter_append]
  by_cases h : e.incoming = incoming <;> simp [h]

lemma changeOf_concat : changeOf incoming (events ++ [e]) =
    changeOf incoming events + if e.incoming = incoming then e.change else 0 := by
  unfold changeOf
  rw [eventsOf_concat]
  by_cases h : e.incoming = incoming <;> simp [h]

lemma valueOf_concat : valueOf incoming (events ++ [e]) =
    valueOf incoming events +
      if e.incoming = incoming then (e.parts.map GoodsPart.value).sum else 0 := by
  unfold valueOf partsOf
  rw [eventsOf_concat]
  by_cases h : e.incoming = incoming <;> simp [h]

lemma storedOf_concat : storedOf incoming (events ++ [e]) =
    storedOf incoming events +
      if e.incoming = incoming then (e.parts.map GoodsPart.stored).sum else 0 := by
  unfold storedOf partsOf
  rw [eventsOf_concat]
  by_cases h : e.incoming = incoming <;> simp [h]

end Append

/-! ## The lines of a purchase -/

/-- A line without what receipts change. -/
def PurchaseItem.core (i : PurchaseItem) : PurchaseItem := { i with quantityReceived := 0 }

/-- What came in of a purchase, at cost. -/
def receivedCost (s : State) (id : ℕ) : ℚ :=
  ((itemsOfPurchase s id).map fun e => dec e.2.quantityReceived * e.2.unitCost).sum

/-- What went back of a purchase, at cost. -/
def sentBackCost (s : State) (id : ℕ) : ℚ :=
  ((itemsOfPurchase s id).map fun e => dec (sentBack s e.1) * e.2.unitCost).sum

/-- What a call moves on the lines of a purchase, at cost: the stored values of its parts. -/
lemma sum_movedQuantity {id : ℕ} {quantities : List (ℕ × ℚ)} {lines : List (ℕ × PurchaseItem)}
    (hlines : ∀ e ∈ lines, e.2.purchase = id) :
    (lines.map fun e => dec (movedQuantity id quantities e.1 e.2) * e.2.unitCost).sum =
      ((askedLines quantities lines).map fun e =>
        GoodsPart.stored ⟨e.2.unitCost, requestedQuantity quantities e.1⟩).sum := by
  unfold askedLines
  induction lines with
  | nil => rfl
  | cons e lines ih =>
    have hrest := ih fun x hx => hlines x (List.mem_cons_of_mem e hx)
    have hof := hlines e List.mem_cons_self
    rw [List.map_cons, List.sum_cons, hrest]
    by_cases hpos : 0 < requestedQuantity quantities e.1
    · rw [List.filter_cons_of_pos (by simpa using hpos), List.map_cons, List.sum_cons,
        movedQuantity, if_pos ⟨hof, hpos⟩]
      rfl
    · rw [List.filter_cons_of_neg (by simpa using hpos), movedQuantity,
        if_neg fun h => hpos h.2, dec_zero, zero_mul, zero_add]

lemma purchase_of_mem_itemsOfPurchase {s : State} {id : ℕ} {e : ℕ × PurchaseItem}
    (he : e ∈ itemsOfPurchase s id) : e.2.purchase = id :=
  (mem_childrenOf.mp he).2

lemma sum_stored_partsAsked (s : State) (id : ℕ) (quantities : List (ℕ × ℚ)) :
    ((partsAsked s id quantities).map GoodsPart.stored).sum =
      ((itemsOfPurchase s id).map fun e =>
        dec (movedQuantity id quantities e.1 e.2) * e.2.unitCost).sum := by
  rw [sum_movedQuantity fun e he => purchase_of_mem_itemsOfPurchase he, partsAsked, List.map_map]
  rfl

lemma sum_value_partsAsked (s : State) (id : ℕ) (quantities : List (ℕ × ℚ)) :
    ((partsAsked s id quantities).map GoodsPart.value).sum =
      ((askedLines quantities (itemsOfPurchase s id)).map (goodsValue quantities)).sum := by
  rw [partsAsked, List.map_map]
  rfl

lemma movedQuantity_other {id purchase : ℕ} {quantities : List (ℕ × ℚ)} {line : ℕ}
    {item : PurchaseItem} (hne : purchase ≠ id) (hof : item.purchase = id) :
    movedQuantity purchase quantities line item = 0 :=
  if_neg fun h => hne (h.1.symm.trans hof)

/-- The lines of a purchase after a receipt. -/
lemma PurchaseReceived.itemsOfPurchase {purchase : ℕ} {quantities : List (ℕ × ℚ)} {row : Purchase}
    {s t : State} (h : PurchaseReceived purchase quantities row s t) (hs : GoodsWithin s)
    (id : ℕ) :
    NexaPos.itemsOfPurchase t id = (NexaPos.itemsOfPurchase s id).map fun e =>
      (e.1, movedItem purchase quantities e.1 e.2) :=
  childrenOf_rewrite (f := movedItem purchase quantities) (fun _ _ => rfl) (h.item hs) id

/-! ## When an order is complete -/

/-- Every line of the purchase is received in full. -/
def AllReceived (s : State) (id : ℕ) : Prop :=
  ∀ e ∈ itemsOfPurchase s id, e.2.quantityReceived = e.2.quantityOrdered

instance (s : State) (id : ℕ) : Decidable (AllReceived s id) :=
  inferInstanceAs (Decidable (∀ e ∈ itemsOfPurchase s id, _))

lemma lineWithin_of_mem {s : State} (hs : GoodsWithin s) {id : ℕ} {e : ℕ × PurchaseItem}
    (he : e ∈ itemsOfPurchase s id) : LineWithin s e.1 e.2 :=
  hs e.1 e.2 (mem_childrenOf.mp he).1

/-- The comparison of the two sums decides whether every line is complete. -/
lemma isFullyReceived_iff {s : State} (hs : GoodsWithin s) (id : ℕ) :
    isFullyReceived s id = true ↔ AllReceived s id := by
  unfold isFullyReceived AllReceived
  rw [decide_eq_true_eq, List.map_map, List.map_map]
  have hlines : ∀ e ∈ itemsOfPurchase s id, e.2.quantityReceived ≤ e.2.quantityOrdered :=
    fun e he => (lineWithin_of_mem hs he).received_le
  generalize itemsOfPurchase s id = lines at hlines
  have hle : ∀ l : List (ℕ × PurchaseItem), (∀ e ∈ l, e.2.quantityReceived ≤ e.2.quantityOrdered) →
      (l.map (PurchaseItem.quantityReceived ∘ Prod.snd)).sum ≤
        (l.map (PurchaseItem.quantityOrdered ∘ Prod.snd)).sum := fun l hl => List.sum_le_sum hl
  induction lines with
  | nil => simp
  | cons e lines ih =>
    have hrest : ∀ x ∈ lines, x.2.quantityReceived ≤ x.2.quantityOrdered :=
      fun x hx => hlines x (List.mem_cons_of_mem e hx)
    have hone := hlines e List.mem_cons_self
    have hsums := hle lines hrest
    have hall := ih hrest
    simp only [List.map_cons, List.sum_cons, List.forall_mem_cons, Function.comp_apply]
    constructor
    · intro hsum
      exact ⟨by omega, hall.mp (by omega)⟩
    · rintro ⟨hsame, hothers⟩
      have hothers := hall.mpr hothers
      omega

/-- A receipt is accepted only while the order is open. -/
lemma PurchaseReceived.not_allReceived {id : ℕ} {quantities : List (ℕ × ℚ)} {row : Purchase}
    {s t : State} (h : PurchaseReceived id quantities row s t) : ¬ AllReceived s id := by
  intro hall
  obtain ⟨e, he⟩ := List.exists_mem_of_ne_nil _ h.asked
  obtain ⟨hmem, hpos⟩ := List.mem_filter.mp he
  have hpending := h.pending e he
  have hdone : e.2.quantityPending = 0 := by
    unfold PurchaseItem.quantityPending
    rw [hall e hmem, sub_self]
  rw [hdone, dec_zero] at hpending
  exact absurd (of_decide_eq_true hpos) (not_lt.mpr hpending)

/-! ## The tally of a purchase -/

/-- The purchase `row` with the lines `lines` and the goods moved on it so far. -/
structure Tally (id : ℕ) (row : Purchase) (lines : List PurchaseItem) (s : State)
    (events : List GoodsEvent) : Prop where
  kept : PurchasesKept s
  purchase : s.purchases.purchases[id]?.map Purchase.core = some row.core
  supplier : row.supplier < s.parties.suppliers.length
  lines : (itemsOfPurchase s id).map (fun e => e.2.core) = lines.map PurchaseItem.core
  received : storedOf true events = receivedCost s id
  sentBack : storedOf false events = sentBackCost s id
  added : changeOf true events = valueOf true events +
    if eventsOf true events ≠ [] ∧ AllReceived s id then row.charges else 0
  taken : changeOf false events = -valueOf false events

section Tally

variable {id : ℕ} {row : Purchase} {lines : List PurchaseItem} {s t : State}
  {events : List GoodsEvent}

lemma Tally.found (h : Tally id row lines s events) :
    ∃ now, s.purchases.purchases[id]? = some now ∧ now.core = row.core :=
  Option.map_eq_some_iff.mp h.purchase

lemma Tally.supplierOf (h : Tally id row lines s events) : supplierOf s id = row.supplier := by
  obtain ⟨now, hnow, hcore⟩ := h.found
  have hsupplier := congrArg Purchase.supplier hcore
  rw [NexaPos.supplierOf, hnow]
  exact hsupplier

/-- Nothing happened to the goods of the purchase. -/
lemma Tally.quiet (h : Tally id row lines s events) (hkept : PurchasesKept t)
    (hpurchase : t.purchases.purchases[id]?.map Purchase.core =
      s.purchases.purchases[id]?.map Purchase.core)
    (hsuppliers : s.parties.suppliers.length ≤ t.parties.suppliers.length)
    (hitems : itemsOfPurchase t id = itemsOfPurchase s id)
    (hsent : ∀ e ∈ itemsOfPurchase s id, NexaPos.sentBack t e.1 = NexaPos.sentBack s e.1) :
    Tally id row lines t events := by
  have hall : AllReceived t id ↔ AllReceived s id := by
    unfold AllReceived
    rw [hitems]
  refine ⟨hkept, hpurchase.trans h.purchase, h.supplier.trans_le hsuppliers, ?_, ?_, ?_, ?_,
    h.taken⟩
  · rw [hitems]
    exact h.lines
  · rw [receivedCost, hitems]
    exact h.received
  · rw [h.sentBack, sentBackCost, sentBackCost, hitems]
    refine congrArg List.sum (List.map_congr_left fun e he => ?_)
    rw [hsent e he]
  · rw [h.added]
    simp only [hall]

lemma Tally.length_purchases (h : Tally id row lines s events) :
    id < s.purchases.purchases.length := by
  obtain ⟨now, hnow, -⟩ := h.found
  exact (List.getElem?_eq_some_iff.mp hnow).1

lemma Tally.ordered (h : Tally id row lines s events) {c : Call} {r : PurchaseRequest}
    {new : Purchase} {items : List PurchaseItem} (hordered : PurchaseOrdered c r s t new items)
    (hkept : PurchasesKept t) : Tally id row lines t events := by
  have hid := h.length_purchases
  refine h.quiet hkept ?_ ?_ ?_ fun e _ => ?_
  · rw [hordered.purchases, List.getElem?_append_left hid]
  · exact hordered.suppliers ▸ le_rfl
  · rw [itemsOfPurchase, hordered.items]
    refine childrenOf_append_of_ne fun i hi => ?_
    obtain ⟨x, -, hline⟩ := exists_of_forall₂_mem (checkPurchase_ok hordered.check).lines hi
    rw [hline.purchase]
    omega
  · exact sentBack_congr (congrArg (fun x => x.2.1) hordered.others) e.1

/-- A receipt of another purchase. -/
lemma Tally.received_other (h : Tally id row lines s events) {purchase : ℕ}
    {quantities : List (ℕ × ℚ)} {now : Purchase}
    (hreceived : PurchaseReceived purchase quantities now s t) (hne : purchase ≠ id)
    (hkept : PurchasesKept t) : Tally id row lines t events := by
  refine h.quiet hkept ?_ ?_ ?_ fun e _ => ?_
  · rw [← List.getElem?_map, ← List.getElem?_map, hreceived.purchases, map_modify_of_eq]
    intro _
    rfl
  · rw [hreceived.suppliers, List.length_modify]
  · rw [hreceived.itemsOfPurchase h.kept.within]
    conv_rhs => rw [← List.map_id (itemsOfPurchase s id)]
    refine List.map_congr_left fun e he => ?_
    rw [movedItem, movedQuantity_other hne (purchase_of_mem_itemsOfPurchase he), add_zero]
    rfl
  · exact sentBack_congr (congrArg (fun x => x.2.1) hreceived.others) e.1

/-- A receipt of the purchase. -/
lemma Tally.received_same (h : Tally id row lines s events) {quantities : List (ℕ × ℚ)}
    {now : Purchase} (hreceived : PurchaseReceived id quantities now s t)
    (hkept : PurchasesKept t) :
    Tally id row lines t (events ++ [⟨true, partsAsked s id quantities,
      payable t (NexaPos.supplierOf s id) - payable s (NexaPos.supplierOf s id)⟩]) := by
  have hitems := hreceived.itemsOfPurchase h.kept.within id
  obtain ⟨row', hrow', hcore⟩ := h.found
  obtain rfl : row' = now := Option.some.inj (hrow'.symm.trans hreceived.found)
  have hcharges : row'.charges = row.charges := by
    have h₁ := congrArg Purchase.charges hcore
    exact h₁
  have hsupplier : row'.supplier = row.supplier := by
    have h₁ := congrArg Purchase.supplier hcore
    exact h₁
  have hchange := payable_of_suppliers (hsupplier ▸ h.supplier) hreceived.suppliers
  have hsent : ∀ line, NexaPos.sentBack t line = NexaPos.sentBack s line :=
    sentBack_congr (congrArg (fun x => x.2.1) hreceived.others)
  rw [h.supplierOf, ← hsupplier, hchange]
  refine ⟨hkept, ?_, ?_, ?_, ?_, ?_, ?_, ?_⟩
  · rw [hreceived.purchases, List.getElem?_modify_eq, hrow']
    exact congrArg some hcore
  · rw [hreceived.suppliers, List.length_modify]
    exact h.supplier
  · rw [hitems, List.map_map, ← h.lines]
    rfl
  · rw [storedOf_concat, if_pos rfl, sum_stored_partsAsked, h.received, receivedCost, receivedCost,
      hitems, List.map_map, ← List.sum_map_add]
    refine congrArg List.sum (List.map_congr_left fun e _ => ?_)
    simp only [Function.comp_apply, movedItem, dec_add]
    ring
  · rw [storedOf_concat, if_neg (by simp), add_zero, h.sentBack, sentBackCost, sentBackCost, hitems,
      List.map_map]
    refine congrArg List.sum (List.map_congr_left fun e _ => ?_)
    simp only [Function.comp_apply, movedItem, hsent]
  · -- the order was open, so no earlier receipt added the charges
    have hbefore := h.added
    rw [if_neg fun hall => hreceived.not_allReceived hall.2, add_zero] at hbefore
    have hsome : ∀ e : GoodsEvent, e.incoming = true → eventsOf true (events ++ [e]) ≠ [] := by
      intro e he
      rw [eventsOf_concat, if_pos he]
      exact List.append_ne_nil_of_right_ne_nil _ (List.cons_ne_nil _ _)
    rw [changeOf_concat, if_pos rfl, valueOf_concat, if_pos rfl, sum_value_partsAsked, hbefore,
      ← hcharges]
    have hfull := isFullyReceived_iff hkept.within id
    by_cases hdone : isFullyReceived t id = true
    · rw [if_pos hdone, if_pos ⟨hsome _ (by rfl), hfull.mp hdone⟩]
      ring
    · rw [if_neg hdone, if_neg fun hall => hdone (hfull.mpr hall.2)]
      ring
  · rw [changeOf_concat, if_neg (by simp), valueOf_concat, if_neg (by simp), add_zero, add_zero]
    exact h.taken

/-- A return of another purchase. -/
lemma Tally.sentBack_other (h : Tally id row lines s events) {purchase : ℕ}
    {quantities : List (ℕ × ℚ)} {now : Purchase}
    (hsent : PurchaseSentBack purchase quantities now s t) (hne : purchase ≠ id)
    (hkept : PurchasesKept t) : Tally id row lines t events := by
  refine h.quiet hkept ?_ ?_ ?_ fun e he => ?_
  · rw [hsent.purchases]
  · rw [hsent.suppliers, List.length_modify]
  · rw [itemsOfPurchase, hsent.items]
    rfl
  · obtain ⟨hitem, hof⟩ := mem_childrenOf.mp he
    rw [hsent.sentBack, hitem, Option.map_some, Option.getD_some, movedQuantity_other hne hof,
      add_zero]

/-- A return of the purchase. -/
lemma Tally.sentBack_same (h : Tally id row lines s events) {quantities : List (ℕ × ℚ)}
    {now : Purchase} (hsent : PurchaseSentBack id quantities now s t) (hkept : PurchasesKept t) :
    Tally id row lines t (events ++ [⟨false, partsAsked s id quantities,
      payable t (NexaPos.supplierOf s id) - payable s (NexaPos.supplierOf s id)⟩]) := by
  have hitems : itemsOfPurchase t id = itemsOfPurchase s id := by
    rw [itemsOfPurchase, hsent.items]
    rfl
  have hall : AllReceived t id ↔ AllReceived s id := by
    unfold AllReceived
    rw [hitems]
  obtain ⟨row', hrow', hcore⟩ := h.found
  obtain rfl : row' = now := Option.some.inj (hrow'.symm.trans hsent.found)
  have hsupplier : row'.supplier = row.supplier := by
    have h₁ := congrArg Purchase.supplier hcore
    exact h₁
  have hchange := payable_of_suppliers (hsupplier ▸ h.supplier) hsent.suppliers
  rw [h.supplierOf, ← hsupplier, hchange]
  refine ⟨hkept, ?_, ?_, ?_, ?_, ?_, ?_, ?_⟩
  · rw [hsent.purchases]
    exact h.purchase
  · rw [hsent.suppliers, List.length_modify]
    exact h.supplier
  · rw [hitems]
    exact h.lines
  · rw [storedOf_concat, if_neg (by simp), add_zero, h.received, receivedCost, receivedCost, hitems]
  · rw [storedOf_concat, if_pos rfl, sum_stored_partsAsked, h.sentBack, sentBackCost, sentBackCost,
      hitems, ← List.sum_map_add]
    refine congrArg List.sum (List.map_congr_left fun e he => ?_)
    obtain ⟨hitem, -⟩ := mem_childrenOf.mp he
    rw [hsent.sentBack, hitem, Option.map_some, Option.getD_some, dec_add]
    ring
  · rw [changeOf_concat, if_neg (by simp), add_zero, valueOf_concat, if_neg (by simp), add_zero,
      h.added]
    simp [eventsOf_concat, hall]
  · rw [changeOf_concat, if_pos rfl, valueOf_concat, if_pos rfl, sum_value_partsAsked, h.taken]
    ring

end Tally

lemma tally_step {id : ℕ} {row : Purchase} {lines : List PurchaseItem} (s : State)
    (op : PurchasingOp) (events : List GoodsEvent) (h : Tally id row lines s events) :
    Tally id row lines (Purchasing.step s op) (events ++ goodsEvents id s op) := by
  have hkept := purchasesKept_step s op h.kept
  cases goodsStep s op with
  | same hsame hquiet =>
    rw [hquiet, List.append_nil]
    refine h.quiet hkept ?_ hsame.suppliers ?_ fun e _ => sentBack_congr hsame.returnItems e.1
    · rw [← List.getElem?_map, ← List.getElem?_map, hsame.purchases]
    · rw [itemsOfPurchase, hsame.items]
      rfl
  | ordered hordered hquiet =>
    rw [hquiet, List.append_nil]
    exact h.ordered hordered hkept
  | received hreceived hevents =>
    rw [hevents]
    split
    · rename_i heq
      subst heq
      exact h.received_same hreceived hkept
    · rename_i hne
      rw [List.append_nil]
      exact h.received_other hreceived hne hkept
  | sentBack hsent hevents =>
    rw [hevents]
    split
    · rename_i heq
      subst heq
      exact h.sentBack_same hsent hkept
    · rename_i hne
      rw [List.append_nil]
      exact h.sentBack_other hsent hne hkept

/-- The tally of a purchase that was just created. -/
lemma PurchaseOrdered.tally {c : Call} {r : PurchaseRequest} {s t : State} {row : Purchase}
    {items : List PurchaseItem} (h : PurchaseOrdered c r s t row items) (hs : PurchasesKept s)
    (ht : PurchasesKept t) : Tally s.purchases.purchases.length row items t [] := by
  have hpriced := checkPurchase_ok h.check
  have hlines : (itemsOfPurchase t s.purchases.purchases.length).map Prod.snd = items := by
    rw [itemsOfPurchase, map_snd_childrenOf, h.items, List.filter_append,
      List.filter_eq_nil_iff.mpr, List.nil_append, List.filter_eq_self]
    · intro i hi
      obtain ⟨x, -, hline⟩ := exists_of_forall₂_mem hpriced.lines hi
      simpa using hline.purchase
    · intro i hi
      have hlt := hs.linked.item i hi
      rw [decide_eq_true_eq]
      omega
  have hnew : ∀ e ∈ itemsOfPurchase t s.purchases.purchases.length,
      e.2.quantityReceived = 0 ∧ sentBack t e.1 = 0 := by
    intro e he
    have hmem : e.2 ∈ items := hlines ▸ List.mem_map_of_mem he
    obtain ⟨x, -, hline⟩ := exists_of_forall₂_mem hpriced.lines hmem
    have hwithin := lineWithin_of_mem ht.within he
    refine ⟨hline.received, le_antisymm ?_ hwithin.sentBack_nonneg⟩
    exact hline.received ▸ hwithin.sentBack_le
  refine ⟨ht, ?_, ?_, ?_, ?_, ?_, ?_, rfl⟩
  · rw [h.purchases, List.getElem?_concat_length]
    rfl
  · rw [h.suppliers]
    exact hpriced.supplier
  · rw [← hlines, List.map_map]
    rfl
  · refine (List.sum_eq_zero fun x hx => ?_).symm
    obtain ⟨e, he, rfl⟩ := List.mem_map.mp hx
    rw [(hnew e he).1, dec_zero, zero_mul]
  · refine (List.sum_eq_zero fun x hx => ?_).symm
    obtain ⟨e, he, rfl⟩ := List.mem_map.mp hx
    rw [(hnew e he).2, dec_zero, zero_mul]
  · simp [changeOf, valueOf, partsOf, eventsOf]

/-! ## What the roundings allow -/

/-- The part that a row of a purchase orders. -/
def PurchaseRow.part (x : PurchaseRow) : GoodsPart := ⟨money x.unitCost, x.quantity⟩

/-- The columns keep the quantities that are ordered. -/
def PurchaseRequest.StoredInFull (r : PurchaseRequest) : Prop := ∀ x ∈ r.rows, Stored x.quantity

/-- The columns keep what an accepted request takes in of the purchase, or sends back. -/
def MovedInFull (id : ℕ) (s : State) (op : PurchasingOp) : Prop :=
  ∀ e ∈ goodsEvents id s op, ∀ p ∈ e.parts, Stored p.quantity

instance : DecidablePred PurchaseRequest.StoredInFull := fun r =>
  inferInstanceAs (Decidable (∀ x ∈ r.rows, _))

instance (id : ℕ) (s : State) (op : PurchasingOp) : Decidable (MovedInFull id s op) :=
  inferInstanceAs (Decidable (∀ e ∈ goodsEvents id s op, _))

/-- The lines of a purchase, as they were ordered, against what the columns keep of them. -/
lemma abs_sum_lineTotal_sub {id : ℕ} {rows : List PurchaseRow} {items : List PurchaseItem}
    (h : List.Forall₂ (LineOrdered id) rows items) (hfull : ∀ x ∈ rows, Stored x.quantity) :
    |(((items.map PurchaseItem.lineTotal).sum : ℤ) : ℚ) -
        (items.map fun i => dec i.quantityOrdered * i.unitCost).sum| ≤ rows.length / 2 := by
  have hvalues : items.map PurchaseItem.lineTotal = rows.map fun x => x.part.value := by
    refine map_eq_of_forall₂ h fun x i hline => ?_
    rw [hline.lineTotal, hline.unitCost]
    rfl
  have hstored : (items.map fun i => dec i.quantityOrdered * i.unitCost) =
      rows.map fun x => x.part.stored := by
    refine map_eq_of_forall₂ h fun x i hline => ?_
    rw [hline.ordered, hline.unitCost]
    rfl
  have hparts := abs_sum_value_sub_sum_stored (List.forall_mem_map.mpr hfull :
    ∀ p ∈ rows.map PurchaseRow.part, Stored p.quantity)
  rw [List.map_map, List.map_map, List.length_map] at hparts
  rw [hvalues, hstored]
  exact hparts

lemma abs_valueOf_sub_storedOf {events : List GoodsEvent}
    (h : ∀ e ∈ events, ∀ p ∈ e.parts, Stored p.quantity) (incoming : Bool) :
    |(valueOf incoming events : ℚ) - storedOf incoming events| ≤
      (partsOf incoming events).length / 2 := by
  refine abs_sum_value_sub_sum_stored fun p hp => ?_
  obtain ⟨e, he, hpart⟩ := List.mem_flatMap.mp hp
  exact h e (List.mem_filter.mp he).1 p hpart

/-- What went back came in, at cost. -/
lemma sentBackCost_le (hs : GoodsWithin s) (id : ℕ) : sentBackCost s id ≤ receivedCost s id := by
  refine List.sum_le_sum fun e he => ?_
  have hwithin := lineWithin_of_mem hs he
  have hcost : (0 : ℚ) ≤ e.2.unitCost := by exact_mod_cast hwithin.unitCost_nonneg
  exact mul_le_mul_of_nonneg_right (dec_le_dec.mpr hwithin.sentBack_le) hcost

/-- The goods of a complete order, at cost. -/
lemma Tally.receivedCost_of_allReceived {id : ℕ} {row : Purchase} {lines : List PurchaseItem}
    {s : State} {events : List GoodsEvent} (h : Tally id row lines s events)
    (hall : AllReceived s id) :
    receivedCost s id = (lines.map fun i => dec i.quantityOrdered * i.unitCost).sum := by
  let cost : PurchaseItem → ℚ := fun i => dec i.quantityOrdered * i.unitCost
  have hcore : ∀ l : List PurchaseItem, (l.map PurchaseItem.core).map cost = l.map cost := by
    intro l
    rw [List.map_map]
    rfl
  change _ = (lines.map cost).sum
  rw [← hcore lines, ← h.lines, List.map_map, receivedCost]
  refine congrArg List.sum (List.map_congr_left fun e he => ?_)
  rw [hall e he]
  rfl

/-- **The payable of a purchase.**  Whatever is requested after a purchase was created, no line
is received beyond what was ordered.  As long as quantities are stored in full, the receipts of
the purchase add the values of the parts they took in to the supplier's payable, and the charges
once, with the receipt that completes the order; once every line is received, what they added
differs from the total by at most half a thousandth for each part and each ordered line.  The
returns take off the values of the parts that went back, at most the value received and half a
thousandth for each part. -/
theorem payable_follows_goods {before ops : List PurchasingOp} {c : Call} {r : PurchaseRequest}
    (haccepted : (PurchasingOp.pos (.createPurchase c r)).Accepted (Purchasing.history before)) :
    let id := (Purchasing.history before).purchases.purchases.length
    let s := Purchasing.history (before ++ [.pos (.createPurchase c r)])
    let t := Purchasing.history (before ++ .pos (.createPurchase c r) :: ops)
    let events := Trace.collect Purchasing.step (goodsEvents id) s ops
    ∃ row, t.purchases.purchases[id]? = some row ∧
      (∀ e ∈ itemsOfPurchase t id,
        0 ≤ e.2.quantityReceived ∧ e.2.quantityReceived ≤ e.2.quantityOrdered) ∧
      (r.StoredInFull → Trace.All Purchasing.step (MovedInFull id) s ops →
        changeOf true events = valueOf true events +
          (if eventsOf true events ≠ [] ∧ AllReceived t id then row.charges else 0) ∧
        (eventsOf true events ≠ [] → AllReceived t id →
          |(changeOf true events : ℚ) - row.total| ≤
            (partsOf true events).length / 2 + r.rows.length / 2) ∧
        changeOf false events = -valueOf false events ∧
        (valueOf false events : ℚ) ≤ valueOf true events +
          (partsOf true events).length / 2 + (partsOf false events).length / 2) := by
  intro id s t events
  have hstart : s = Purchasing.step (Purchasing.history before) (.pos (.createPurchase c r)) :=
    Trace.run_append before [.pos (.createPurchase c r)]
  have hend : t = Purchasing.run s ops := by
    rw [hstart]
    exact Trace.run_append before (.pos (.createPurchase c r) :: ops)
  have hkept := purchasesKept_history before
  have hs : PurchasesKept s := purchasesKept_history _
  obtain ⟨row₀, items, hordered⟩ : ∃ row items,
      PurchaseOrdered c r (Purchasing.history before) s row items := by
    rw [hstart]
    exact runs_createPurchase haccepted.runs
  have hpriced := checkPurchase_ok hordered.check
  have htally : Tally id row₀ items t events := by
    have hrun := Trace.invariant_collect tally_step (hordered.tally hkept hs) ops
    rw [List.nil_append] at hrun
    rw [hend]
    exact hrun
  obtain ⟨row, hrow, hcore⟩ := htally.found
  have hcharges : row.charges = row₀.charges := by
    have hsame := congrArg Purchase.charges hcore
    exact hsame
  have htotal : row.total = row₀.total := by
    have hsame := congrArg Purchase.total hcore
    exact hsame
  refine ⟨row, hrow, ?_, fun hordering hmoved => ?_⟩
  · intro e he
    have hwithin := lineWithin_of_mem htally.kept.within he
    exact ⟨hwithin.received_nonneg, hwithin.received_le⟩
  have hfull : ∀ e ∈ events, ∀ p ∈ e.parts, Stored p.quantity :=
    Trace.forall_mem_collect (fun _ _ hstep => hstep) hmoved
  have hin := abs_valueOf_sub_storedOf hfull true
  have hout := abs_valueOf_sub_storedOf hfull false
  rw [htally.received, abs_le] at hin
  rw [htally.sentBack, abs_le] at hout
  refine ⟨?_, ?_, htally.taken, ?_⟩
  · rw [hcharges]
    exact htally.added
  · intro hsome hall
    have hlines := abs_sum_lineTotal_sub hpriced.lines hordering
    have hadded := htally.added
    rw [if_pos ⟨hsome, hall⟩] at hadded
    rw [htally.receivedCost_of_allReceived hall] at hin
    rw [abs_le] at hlines
    rw [htotal, hpriced.total, hadded, abs_le]
    simp only [Int.cast_add]
    constructor <;> linarith [hin.1, hin.2, hlines.1, hlines.2]
  · have hle := sentBackCost_le htally.kept.within id
    linarith [hin.1, hout.2]

/-! ## Runs -/

/-- A unit at 0.001 is ordered. -/
def orderMade : List PurchasingOp :=
  Shop.buying ++ [.pos (.createPurchase Shop.call (Shop.order (1 / 1000)))]

/-- Receive some of the unit. -/
def receive (quantity : ℚ) : PurchasingOp := .pos (.receivePurchase Shop.call 0 [(0, quantity)])

/-- Send some of it back. -/
def giveBack (quantity : ℚ) : PurchasingOp := .pos (.returnPurchase Shop.call 0 [(0, quantity)])

/-- The goods moved by requests on the order. -/
def goodsMoved (ops : List PurchasingOp) : List GoodsEvent :=
  Trace.collect Purchasing.step (goodsEvents 0) (Purchasing.history orderMade) ops

/-- Received in two halves, the order of 0.001 adds 0.002 to the payable; received at once and
sent back in two halves, 0.001 was received and 0.002 goes back. -/
theorem halves_exceed_total :
    (Purchasing.history orderMade).purchases.purchases.map Purchase.total = [1] ∧
      (Trace.All Purchasing.step (fun s op => op.Accepted s) (Purchasing.history orderMade)
          [receive (1 / 2), receive (1 / 2)] ∧
        AllReceived (Purchasing.history (orderMade ++ [receive (1 / 2), receive (1 / 2)])) 0 ∧
        changeOf true (goodsMoved [receive (1 / 2), receive (1 / 2)]) = 2) ∧
      Trace.All Purchasing.step (fun s op => op.Accepted s) (Purchasing.history orderMade)
          [receive 1, giveBack (1 / 2), giveBack (1 / 2)] ∧
        valueOf true (goodsMoved [receive 1, giveBack (1 / 2), giveBack (1 / 2)]) = 1 ∧
        changeOf false (goodsMoved [receive 1, giveBack (1 / 2), giveBack (1 / 2)]) = -2 := by
  refine ⟨by decide +kernel, ⟨by decide +kernel, by decide +kernel, by decide +kernel⟩,
    by decide +kernel, by decide +kernel, by decide +kernel⟩

theorem payable_follows_goods_run :
    ∃ row, (Purchasing.history
        (orderMade ++ [receive (1 / 2), receive (1 / 2)])).purchases.purchases[0]? = some row ∧
      |(changeOf true (goodsMoved [receive (1 / 2), receive (1 / 2)]) : ℚ) - row.total| ≤
        (partsOf true (goodsMoved [receive (1 / 2), receive (1 / 2)])).length / 2 +
          (Shop.order (1 / 1000)).rows.length / 2 := by
  have haccepted : (PurchasingOp.pos (.createPurchase Shop.call (Shop.order (1 / 1000)))).Accepted
      (Purchasing.history Shop.buying) := by decide +kernel
  have hid : (Purchasing.history Shop.buying).purchases.purchases.length = 0 := by decide +kernel
  obtain ⟨row, hrow, -, hvalues⟩ :=
    @payable_follows_goods Shop.buying [receive (1 / 2), receive (1 / 2)] Shop.call
      (Shop.order (1 / 1000)) haccepted
  rw [hid] at hrow hvalues
  obtain ⟨-, hbound, -⟩ := hvalues (by decide +kernel) (by decide +kernel)
  refine ⟨row, ?_, hbound (by decide +kernel) (by decide +kernel)⟩
  rw [orderMade, List.append_assoc]
  exact hrow

end NexaPos
