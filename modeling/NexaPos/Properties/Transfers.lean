import NexaPos.System

/-!
# Transfers conserve stock

Between dispatch and arrival the goods of a transfer are in no warehouse.  They are *in transit*:
`State.goods` adds them to the stock on hand, and no sequence of transfer requests changes that
sum (`goods_run`).

Conservation alone would let a transfer move its goods twice and another one undo it, so the
second half follows each transfer through the ledger.  `TransferRecord` says which ledger rows a
transfer has in each of its states, row for row, and `transfersRecorded_history` that every
transfer of every history has exactly those.
-/

namespace NexaPos

open Tx

/-! ## Goods in transit -/

/-- The transfer has been sent and has neither arrived nor come back. -/
def Documents.isDispatched (d : Documents) (transfer : ℕ) : Bool :=
  (d.transfers[transfer]?).any fun tr => tr.status = .dispatched

/-- What is on dispatched transfers of one product or variant. -/
def Documents.inTransit (d : Documents) (product : ℕ) (variant : Option ℕ) : ℤ :=
  itemTotal (d.transferItems.filter fun i => d.isDispatched i.transfer) product variant

/-- Everything there is of a product or variant: on hand in some warehouse, or in transit. -/
def State.goods (s : State) (product : ℕ) (variant : Option ℕ) : ℤ :=
  s.stock.total product variant + s.documents.inTransit product variant

/-- The lines of the transfers a predicate selects change with the one transfer on which the
predicate does. -/
lemma itemTotal_filter_update {sel sel' : ℕ → Bool} {id : ℕ} (h : ∀ j, j ≠ id → sel' j = sel j)
    (items : List StockTransferItem) (product : ℕ) (variant : Option ℕ) :
    itemTotal (items.filter fun i => sel' i.transfer) product variant =
      itemTotal (items.filter fun i => sel i.transfer) product variant +
        ((if sel' id then 1 else 0) - (if sel id then 1 else 0)) *
          itemTotal (items.filter fun i => i.transfer = id) product variant := by
  induction items with
  | nil => simp [itemTotal]
  | cons item items ih =>
    have hcons : ∀ (p : Prop) [Decidable p] (l : List StockTransferItem),
        itemTotal (if p then item :: l else l) product variant =
          (if p then itemTotal [item] product variant else 0) +
            itemTotal l product variant := by
      intro p _ l
      by_cases hp : item.product = product ∧ item.variant = variant <;>
        by_cases h : p <;> simp [itemTotal, hp, h]
    simp only [List.filter_cons, hcons, ih, decide_eq_true_eq]
    by_cases hid : item.transfer = id
    · subst hid
      cases sel' item.transfer <;> cases sel item.transfer <;> simp <;> ring
    · rw [h _ hid]
      simp only [hid, if_false]
      ring

/-- Moving one transfer to another state moves its lines in or out of transit. -/
lemma inTransit_modify {d : Documents} {id : ℕ} {tr : StockTransfer}
    {f : StockTransfer → StockTransfer} (htr : d.transfers[id]? = some tr) (product : ℕ)
    (variant : Option ℕ) :
    Documents.inTransit { d with transfers := d.transfers.modify id f } product variant =
      d.inTransit product variant +
        ((if (f tr).status = .dispatched then 1 else 0) -
          (if tr.status = .dispatched then 1 else 0)) *
          itemTotal (d.itemsOfTransfer id) product variant := by
  have hsel : ∀ j, j ≠ id →
      Documents.isDispatched { d with transfers := d.transfers.modify id f } j =
        d.isDispatched j := by
    intro j hj
    unfold Documents.isDispatched
    rw [List.getElem?_modify_ne _ _ (Ne.symm hj)]
  have hnew : Documents.isDispatched { d with transfers := d.transfers.modify id f } id =
      decide ((f tr).status = .dispatched) := by
    simp [Documents.isDispatched, htr]
  have hold : d.isDispatched id = decide (tr.status = .dispatched) := by
    simp [Documents.isDispatched, htr]
  have h := itemTotal_filter_update hsel d.transferItems product variant
  rw [hnew, hold] at h
  unfold Documents.inTransit Documents.itemsOfTransfer
  simpa only [decide_eq_true_eq] using h

/-- A transfer that does not exist yet carries nothing. -/
lemma inTransit_insertTransfer (c : Call) (a b : ℕ) (rows : List InventoryRow) (s : State)
    (product : ℕ) (variant : Option ℕ) :
    (insertTransfer c a b rows s).documents.inTransit product variant =
      s.documents.inTransit product variant := by
  have hsame : ∀ j,
      (insertTransfer c a b rows s).documents.isDispatched j = s.documents.isDispatched j := by
    intro j
    unfold Documents.isDispatched insertTransfer
    rcases lt_trichotomy j s.documents.transfers.length with hj | rfl | hj
    · simp [List.getElem?_append_left hj]
    · simp
    · rw [List.getElem?_eq_none (by simp; omega), List.getElem?_eq_none (by omega)]
  have hnew : (rows.map (transferItem s s.documents.transfers.length)).filter
      (fun i => s.documents.isDispatched i.transfer) = [] := by
    rw [List.filter_eq_nil_iff]
    intro i hi
    obtain ⟨row, -, rfl⟩ := List.mem_map.mp hi
    simp [transferItem, Documents.isDispatched]
  unfold Documents.inTransit
  simp only [hsame]
  change itemTotal ((s.documents.transferItems ++ _).filter _) product variant = _
  rw [List.filter_append, hnew, List.append_nil]

/-! ## Conservation -/

/-- A request about a transfer. -/
inductive TransferOp
  | create (c : Call) (fromWarehouse toWarehouse : ℕ) (rows : List InventoryRow)
  | dispatch (c : Call) (transfer : ℕ)
  | receive (c : Call) (transfer : ℕ)
  | cancel (c : Call) (transfer : ℕ)

/-- The request as one of the application's. -/
def TransferOp.toOp : TransferOp → Op
  | create c a b rows => .createTransfer c a b rows
  | dispatch c transfer => .dispatchTransfer c transfer
  | receive c transfer => .receiveTransfer c transfer
  | cancel c transfer => .cancelTransfer c transfer

/-- A transition that posts what it moves in or out of transit conserves the goods. -/
lemma TransferMoved.goods_eq {s t : State} {id : ℕ} {tr : StockTransfer}
    {items : List StockTransferItem} {posting : StockTransferItem → Posting} {sign : ℤ}
    {status : TransferStatus} (htr : s.documents.transfers[id]? = some tr)
    (h : TransferMoved s t id items posting sign status)
    (hsign : ∀ product variant, sign * itemTotal items product variant =
      ((if tr.status = .dispatched then 1 else 0) - (if status = .dispatched then 1 else 0)) *
        itemTotal (s.documents.itemsOfTransfer id) product variant) :
    t.goods = s.goods := by
  obtain ⟨f, hf, htransfers⟩ := h.transfers_eq
  funext product variant
  have htransit : t.documents.inTransit product variant =
      Documents.inTransit { s.documents with transfers := s.documents.transfers.modify id f }
        product variant := by
    unfold Documents.inTransit Documents.isDispatched
    rw [h.items_eq, htransfers]
  unfold State.goods
  rw [htransit, inTransit_modify htr, (hf tr).1, h.total, hsign]
  ring

/-- Each transfer request conserves the goods. -/
lemma goods_step (s : State) (op : TransferOp) : (step s op.toOp).goods = s.goods := by
  rcases commit_cases op.toOp.service s with hsame | ⟨x, hrun⟩
  · unfold step
    rw [hsame]
  · change Runs _ s x (step s op.toOp) at hrun
    generalize step s op.toOp = t at hrun ⊢
    cases op with
    | create c a b rows =>
      rw [runs_createTransfer hrun]
      funext product variant
      unfold State.goods
      rw [inTransit_insertTransfer]
      rfl
    | dispatch c id =>
      obtain ⟨tr, htr, hstatus, hmoved⟩ := runs_dispatchTransfer hrun
      refine hmoved.goods_eq htr fun product variant => ?_
      rcases hstatus with hstatus | hstatus <;> simp [hstatus]
    | receive c id =>
      obtain ⟨tr, htr, hstatus, hmoved⟩ := runs_receiveTransfer hrun
      refine hmoved.goods_eq htr fun product variant => ?_
      simp [hstatus]
    | cancel c id =>
      obtain ⟨tr, htr, hstatus, hmoved⟩ := runs_cancelTransfer hrun
      refine hmoved.goods_eq htr fun product variant => ?_
      rcases hstatus with hstatus | hstatus | hstatus <;> simp [hstatus, itemTotal]

/-- No sequence of transfer requests changes what there is. -/
lemma goods_run (s : State) (ops : List TransferOp) :
    (run s (ops.map TransferOp.toOp)).goods = s.goods := by
  induction ops generalizing s with
  | nil => rfl
  | cons op ops ih =>
    change (run (step s op.toOp) (ops.map TransferOp.toOp)).goods = s.goods
    rw [ih, goods_step]

/-! ## The ledger record of a transfer -/

/-- The postings on one account. -/
def postingsFor (rows : List StockMovement) (r : Reference) : List Posting :=
  (rows.map StockMovement.posting).filter fun p => p.reference = r

lemma postingsFor_append (rows rows' : List StockMovement) (r : Reference) :
    postingsFor (rows ++ rows') r = postingsFor rows r ++ postingsFor rows' r := by
  simp [postingsFor]

/-- What is in the ledger for a transfer in each of its states: `own` on the account of the
transfer and `returned` on the account of its cancellation.  Goods go out line by line when it
is dispatched, and come in line by line either at the destination or back at the source. -/
def TransferRecord (tr : StockTransfer) (items : List StockTransferItem)
    (own returned : List Posting) : Prop :=
  let out := items.map
    (transferPosting tr.fromWarehouse .transferOut (-1) (.transfer tr.transferNumber))
  let arrived := items.map
    (transferPosting tr.toWarehouse .transferIn 1 (.transfer tr.transferNumber))
  let back := items.map
    (transferPosting tr.fromWarehouse .transferIn 1 (.transferCancel tr.transferNumber))
  match tr.status with
  | .draft | .approved | .rejected => own = [] ∧ returned = []
  | .dispatched => own = out ∧ returned = []
  | .received => own = out ++ arrived ∧ returned = []
  | .cancelled => (own = [] ∧ returned = []) ∨ (own = out ∧ returned = back)

/-- The record of the transfer under a primary key. -/
def State.transferRecord (s : State) (id : ℕ) (tr : StockTransfer) : Prop :=
  TransferRecord tr (s.documents.itemsOfTransfer id)
    (postingsFor s.stock.movements (.transfer tr.transferNumber))
    (postingsFor s.stock.movements (.transferCancel tr.transferNumber))

/-- The invariant: transfers have different numbers, each has the ledger rows of its state, and
there are none for a number no transfer has. -/
structure TransfersRecorded (s : State) : Prop where
  numbers : (s.documents.transfers.map StockTransfer.transferNumber).Nodup
  recorded : ∀ id tr, s.documents.transfers[id]? = some tr → s.transferRecord id tr
  unused : ∀ n, n ∉ s.documents.transfers.map StockTransfer.transferNumber →
    postingsFor s.stock.movements (.transfer n) = [] ∧
      postingsFor s.stock.movements (.transferCancel n) = []

/-- All that the invariant depends on. -/
def transferView (s : State) :
    List StockTransfer × List StockTransferItem × (ℕ → List Posting) × (ℕ → List Posting) :=
  (s.documents.transfers, s.documents.transferItems,
    fun n => postingsFor s.stock.movements (.transfer n),
    fun n => postingsFor s.stock.movements (.transferCancel n))

lemma TransfersRecorded.of_view {s t : State} (h : transferView t = transferView s)
    (hs : TransfersRecorded s) : TransfersRecorded t := by
  simp only [transferView, Prod.mk.injEq, funext_iff] at h
  obtain ⟨htransfers, hitems, hown, hreturned⟩ := h
  refine ⟨?_, fun id tr htr => ?_, fun n hn => ?_⟩
  · rw [htransfers]
    exact hs.numbers
  · rw [htransfers] at htr
    have := hs.recorded id tr htr
    unfold State.transferRecord Documents.itemsOfTransfer at this ⊢
    rwa [hitems, hown, hreturned]
  · rw [htransfers] at hn
    rw [hown, hreturned]
    exact hs.unused n hn

/-- A write outside the transfers, on the account of neither a transfer nor a cancellation. -/
lemma Component.transferView_eq {comp : Component} {s t : State} (h : comp.Change s t)
    (ht : comp ≠ .transfers) (hm : comp ≠ .movements .transfer)
    (hc : comp ≠ .movements .transferCancel) : transferView t = transferView s := by
  cases comp with
  | transfers => exact absurd rfl ht
  | levels =>
    obtain ⟨k, -, rfl⟩ := h
    rfl
  | movements type =>
    obtain ⟨m, u, rfl, hrun⟩ := h
    obtain ⟨row, hrow, hstock, hrest⟩ := runs_recordMovement hrun
    have hdocuments : t.documents = s.documents := documents_of_rest hrest
    have hsame : ∀ r : Reference, m.reference ≠ r →
        postingsFor t.stock.movements r = postingsFor s.stock.movements r := by
      intro r hr
      rw [hstock, Stock.movements_post, postingsFor_append]
      simp [postingsFor, StockMovement.posting, hrow.reference, hr]
    simp only [transferView, hdocuments, Prod.mk.injEq, true_and, funext_iff]
    refine ⟨fun n => hsame _ ?_, fun n => hsame _ ?_⟩
    · rintro h
      simp [h, Reference.type] at hm
    · rintro h
      simp [h, Reference.type] at hc
  | adjustments => obtain ⟨x, y, rfl⟩ := h; rfl
  | counts => obtain ⟨x, y, rfl⟩ := h; rfl
  | accounts => obtain ⟨x, f, rfl⟩ := h; rfl
  | _ => obtain ⟨x, rfl⟩ := h; rfl

/-! ## Every transition keeps the record -/

/-- The rows of a transition are all on one account. -/
lemma TransferMoved.postingsFor_eq {s t : State} {id : ℕ} {items : List StockTransferItem}
    {posting : StockTransferItem → Posting} {sign : ℤ} {status : TransferStatus}
    (h : TransferMoved s t id items posting sign status) {account : Reference}
    (haccount : ∀ i, (posting i).reference = account) (r : Reference) :
    postingsFor t.stock.movements r =
      postingsFor s.stock.movements r ++ if account = r then items.map posting else [] := by
  obtain ⟨rows, hrows, hposting⟩ := h.movements
  rw [hrows, postingsFor_append]
  congr 1
  unfold postingsFor
  rw [hposting, List.filter_map]
  have hfilter : (fun p : Posting => decide (p.reference = r)) ∘ posting =
      fun _ => decide (account = r) := by
    funext i
    simp [haccount]
  rw [hfilter]
  by_cases hr : account = r <;> simp [hr]

/-- A transition of one transfer keeps the invariant when the record of that transfer fits its
new state. -/
lemma TransfersRecorded.of_moved {s t : State} {id : ℕ} {tr : StockTransfer}
    {items : List StockTransferItem} {posting : StockTransferItem → Posting} {sign : ℤ}
    {status : TransferStatus} (hs : TransfersRecorded s)
    (htr : s.documents.transfers[id]? = some tr)
    (h : TransferMoved s t id items posting sign status) {account : Reference}
    (haccount : ∀ i, (posting i).reference = account)
    (hnumber : account = .transfer tr.transferNumber ∨
      account = .transferCancel tr.transferNumber)
    (hrecord : s.transferRecord id tr → TransferRecord { tr with status := status }
      (s.documents.itemsOfTransfer id)
      (postingsFor t.stock.movements (.transfer tr.transferNumber))
      (postingsFor t.stock.movements (.transferCancel tr.transferNumber))) :
    TransfersRecorded t := by
  obtain ⟨f, hf, htransfers⟩ := h.transfers_eq
  have hnumbers : t.documents.transfers.map StockTransfer.transferNumber =
      s.documents.transfers.map StockTransfer.transferNumber := by
    rw [htransfers]
    exact map_modify_of_eq (fun x => (hf x).2.1) _ _
  have hitems : ∀ j, t.documents.itemsOfTransfer j = s.documents.itemsOfTransfer j := by
    intro j
    unfold Documents.itemsOfTransfer
    rw [h.items_eq]
  -- another number is on neither account, so its postings are those it had
  have hother : ∀ n, n ≠ tr.transferNumber →
      postingsFor t.stock.movements (.transfer n) =
          postingsFor s.stock.movements (.transfer n) ∧
        postingsFor t.stock.movements (.transferCancel n) =
          postingsFor s.stock.movements (.transferCancel n) := by
    intro n hn
    rw [h.postingsFor_eq haccount, h.postingsFor_eq haccount]
    rcases hnumber with rfl | rfl <;> simp [Ne.symm hn]
  refine ⟨by rw [hnumbers]; exact hs.numbers, fun j x hx => ?_, fun n hn => ?_⟩
  · rw [htransfers, getElem?_modify_eq_some] at hx
    obtain ⟨y, hy, rfl⟩ := hx
    unfold State.transferRecord
    rw [hitems]
    by_cases hj : id = j
    · subst hj
      obtain rfl : tr = y := Option.some.inj (htr.symm.trans hy)
      obtain ⟨hstatus, hnum, hfrom, hto⟩ := hf tr
      have hnew := hrecord (hs.recorded id tr htr)
      unfold TransferRecord at hnew ⊢
      simp only [if_true, hstatus, hnum, hfrom, hto]
      exact hnew
    · rw [if_neg hj]
      have hne : y.transferNumber ≠ tr.transferNumber :=
        fun heq => hj (pk_unique hs.numbers htr hy heq.symm)
      rw [(hother _ hne).1, (hother _ hne).2]
      exact hs.recorded j y hy
  · rw [hnumbers] at hn
    have hne : n ≠ tr.transferNumber := by
      rintro rfl
      exact hn (List.mem_map.mpr ⟨tr, List.mem_of_getElem? htr, rfl⟩)
    rw [(hother n hne).1, (hother n hne).2]
    exact hs.unused n hn

lemma TransfersRecorded.of_insert {s : State} (hs : TransfersRecorded s) (c : Call) (a b : ℕ)
    (rows : List InventoryRow) : TransfersRecorded (insertTransfer c a b rows s) := by
  have hfresh : nextNumber (s.documents.transfers.map StockTransfer.transferNumber) ∉
      s.documents.transfers.map StockTransfer.transferNumber := Numbering.next_not_mem _
  refine ⟨?_, fun id tr htr => ?_, fun n hn => ?_⟩
  · change ((s.documents.transfers ++ [_]).map StockTransfer.transferNumber).Nodup
    rw [List.map_append, List.nodup_append]
    refine ⟨hs.numbers, List.nodup_singleton _, fun x hx y hy => ?_⟩
    rintro rfl
    obtain rfl := List.mem_singleton.mp hy
    exact hfresh hx
  · change (s.documents.transfers ++ [_])[id]? = some tr at htr
    rcases lt_trichotomy id s.documents.transfers.length with hid | rfl | hid
    · -- an earlier transfer: the new lines are not its own
      rw [List.getElem?_append_left hid] at htr
      have hitems : (insertTransfer c a b rows s).documents.itemsOfTransfer id =
          s.documents.itemsOfTransfer id := by
        have hnew : (rows.map (transferItem s s.documents.transfers.length)).filter
            (fun i => i.transfer = id) = [] := by
          rw [List.filter_eq_nil_iff]
          intro i hi
          obtain ⟨row, -, rfl⟩ := List.mem_map.mp hi
          simp [transferItem, Nat.ne_of_gt hid]
        change (s.documents.transferItems ++ _).filter _ = s.documents.transferItems.filter _
        rw [List.filter_append, hnew, List.append_nil]
      have hrecord := hs.recorded id tr htr
      unfold State.transferRecord at hrecord ⊢
      rw [hitems]
      exact hrecord
    · rw [List.getElem?_concat_length] at htr
      obtain rfl := Option.some.inj htr
      exact hs.unused _ hfresh
    · rw [List.getElem?_eq_none (by simp; omega)] at htr
      exact nomatch htr
  · refine hs.unused n fun hmem => hn ?_
    change n ∈ (s.documents.transfers ++ [_]).map StockTransfer.transferNumber
    rw [List.map_append]
    exact List.mem_append_left _ hmem

lemma transfersRecorded_dispatch {c : Call} {id : ℕ} {s t : State} {x : Unit}
    (hs : TransfersRecorded s) (h : Runs (dispatchTransfer c id) s x t) : TransfersRecorded t := by
  obtain ⟨tr, htr, hstatus, hmoved⟩ := runs_dispatchTransfer h
  refine hs.of_moved htr hmoved (fun _ => rfl) (.inl rfl) fun hrecord => ?_
  rw [hmoved.postingsFor_eq (fun _ => rfl), hmoved.postingsFor_eq (fun _ => rfl)]
  unfold State.transferRecord TransferRecord at hrecord
  have hnone : postingsFor s.stock.movements (.transfer tr.transferNumber) = [] ∧
      postingsFor s.stock.movements (.transferCancel tr.transferNumber) = [] := by
    rcases hstatus with hstatus | hstatus <;> simpa only [hstatus] using hrecord
  rw [hnone.1, hnone.2]
  simp [TransferRecord]

lemma transfersRecorded_receive {c : Call} {id : ℕ} {s t : State} {x : Unit}
    (hs : TransfersRecorded s) (h : Runs (receiveTransfer c id) s x t) : TransfersRecorded t := by
  obtain ⟨tr, htr, hstatus, hmoved⟩ := runs_receiveTransfer h
  refine hs.of_moved htr hmoved (fun _ => rfl) (.inl rfl) fun hrecord => ?_
  rw [hmoved.postingsFor_eq (fun _ => rfl), hmoved.postingsFor_eq (fun _ => rfl)]
  unfold State.transferRecord TransferRecord at hrecord
  simp only [hstatus] at hrecord
  rw [hrecord.1, hrecord.2]
  simp [TransferRecord]

lemma transfersRecorded_cancel {c : Call} {id : ℕ} {s t : State} {x : Unit}
    (hs : TransfersRecorded s) (h : Runs (cancelTransfer c id) s x t) : TransfersRecorded t := by
  obtain ⟨tr, htr, hstatus, hmoved⟩ := runs_cancelTransfer h
  refine hs.of_moved htr hmoved (fun _ => rfl) (.inr rfl) fun hrecord => ?_
  rw [hmoved.postingsFor_eq (fun _ => rfl), hmoved.postingsFor_eq (fun _ => rfl)]
  unfold State.transferRecord TransferRecord at hrecord
  -- goods that were out come back; goods that never left have nothing to undo
  rcases hstatus with hstatus | hstatus | hstatus <;> simp only [hstatus] at hrecord ⊢ <;>
    rw [hrecord.1, hrecord.2] <;> simp [TransferRecord]

/-- Every request keeps the record of every transfer. -/
lemma transfersRecorded_step (s : State) (op : Op) (hs : TransfersRecorded s) :
    TransfersRecorded (step s op) := by
  -- a request that writes no transfer leaves the invariant's view of the state alone
  have hframe : (∀ comp ∈ op.footprint, comp ≠ .transfers ∧ comp ≠ .movements .transfer ∧
      comp ≠ .movements .transferCancel) → TransfersRecorded (step s op) := by
    intro hop
    refine hs.of_view (step_within (R := Frame transferView) op ?_ s)
    intro comp hcomp s t hchange
    obtain ⟨ht, hm, hc⟩ := hop comp hcomp
    exact Component.transferView_eq hchange ht hm hc
  rcases commit_cases op.service s with hsame | ⟨x, hrun⟩
  · unfold step
    rwa [hsame]
  · change Runs _ s x (step s op) at hrun
    cases op with
    | createTransfer c a b rows =>
      rw [runs_createTransfer hrun]
      exact hs.of_insert c a b rows
    | dispatchTransfer c id => exact transfersRecorded_dispatch hs hrun
    | receiveTransfer c id => exact transfersRecorded_receive hs hrun
    | cancelTransfer c id => exact transfersRecorded_cancel hs hrun
    | saveMasterData m => exact hframe (by cases m <;> simp [Op.footprint, MasterData.component])
    | _ => exact hframe (by simp [Op.footprint])

lemma transfersRecorded_history (ops : List Op) : TransfersRecorded (history ops) := by
  refine Trace.invariant transfersRecorded_step ?_ ops
  exact ⟨List.nodup_nil, fun id tr htr => (nomatch htr), fun _ _ => ⟨rfl, rfl⟩⟩

/-- **Transfers conserve stock.**  From any state, no sequence of transfer requests changes what
is on hand and in transit of any product or variant; and in every history each transfer has the
ledger rows of its state and no others, so its goods went out at most once and came in at most
once, at the destination or back at the source. -/
theorem transfers_conserve_stock :
    (∀ (s : State) (ops : List TransferOp) (product : ℕ) (variant : Option ℕ),
      (run s (ops.map TransferOp.toOp)).goods product variant = s.goods product variant) ∧
    ∀ (ops : List Op) (id : ℕ) (tr : StockTransfer),
      (history ops).documents.transfers[id]? = some tr → (history ops).transferRecord id tr := by
  refine ⟨fun s ops product variant => ?_, fun ops id tr htr => ?_⟩
  · rw [goods_run]
  · exact (transfersRecorded_history ops).recorded id tr htr

end NexaPos
