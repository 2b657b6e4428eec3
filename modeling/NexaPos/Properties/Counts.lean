import NexaPos.Properties.StockLedger

/-!
# Stock counts between snapshot and approval

`start_count` copies every level of a warehouse, and `approve_count` posts, for every counted
line, the difference between what was counted and that copy.  Stock keeps moving in between.

The lines of a count keep their product and their snapshot while anything else happens
(`CountsGrow`), so the correction is the counted quantity less the level at the snapshot, and
the approved level is the counted quantity plus what moved since: `approveCount_level`.  The
approval is exempt from the negative-stock policy, so the approved level can be negative.
-/

namespace NexaPos

open Tx RunningLedger

/-! ## Lines keep their snapshot -/

/-- A line without what was counted for it. -/
def StockCountItem.snapshot (i : StockCountItem) : StockCountItem :=
  { i with countedQuantity := none }

/-- The step relation of the count tables: counts stay in their warehouse and lines keep their
snapshot; new lines belong to new counts. -/
structure CountsGrow (s t : State) : Prop where
  warehouses : s.documents.counts.map StockCount.warehouse <+:
    t.documents.counts.map StockCount.warehouse
  lines : ∃ new, t.documents.countItems.map StockCountItem.snapshot =
      s.documents.countItems.map StockCountItem.snapshot ++ new ∧
    ∀ i ∈ new, s.documents.counts.length ≤ i.count ∧ i.count < t.documents.counts.length

lemma CountsGrow.length_le {s t : State} (h : CountsGrow s t) :
    s.documents.counts.length ≤ t.documents.counts.length := by
  simpa using h.warehouses.length_le

instance : IsPreorder State CountsGrow where
  refl s := ⟨List.prefix_rfl, [], by simp, by simp⟩
  trans s t u h₁ h₂ := by
    obtain ⟨new₁, hnew₁, hcount₁⟩ := h₁.lines
    obtain ⟨new₂, hnew₂, hcount₂⟩ := h₂.lines
    refine ⟨h₁.warehouses.trans h₂.warehouses, new₁ ++ new₂, ?_, fun i hi => ?_⟩
    · rw [hnew₂, hnew₁, List.append_assoc]
    · have hlen₁ := h₁.length_le
      have hlen₂ := h₂.length_le
      rcases List.mem_append.mp hi with hi | hi
      · have := hcount₁ i hi
        omega
      · have := hcount₂ i hi
        omega

lemma CountsGrow.of_documents_eq {s t : State} (h : t.documents = s.documents) :
    CountsGrow s t := by
  refine ⟨?_, [], ?_, by simp⟩
  · rw [h]
  · rw [h, List.append_nil]

lemma Component.countsGrow {comp : Component} {s t : State} (h : comp.Change s t)
    (hcounts : comp ≠ .counts) : CountsGrow s t := by
  cases comp with
  | counts => exact absurd rfl hcounts
  | transfers =>
    obtain ⟨x, y, rfl⟩ := h
    exact ⟨List.prefix_rfl, [], by simp, by simp⟩
  | adjustments =>
    obtain ⟨x, y, rfl⟩ := h
    exact ⟨List.prefix_rfl, [], by simp, by simp⟩
  | levels =>
    obtain ⟨k, -, rfl⟩ := h
    exact .of_documents_eq rfl
  | accounts =>
    obtain ⟨x, f, rfl⟩ := h
    exact .of_documents_eq rfl
  | movements type =>
    obtain ⟨m, u, -, hrun⟩ := h
    exact .of_documents_eq (documents_of_rest (within_rest_recordMovement m hrun))
  | _ =>
    obtain ⟨x, rfl⟩ := h
    exact .of_documents_eq rfl

lemma within_countsGrow_startCount (c : Call) (warehouse : ℕ) :
    Within CountsGrow (startCount c warehouse) := by
  refine within_bind within_reads fun _ => within_modify fun s => ⟨?_, ?_⟩
  · change _ <+: (s.documents.counts ++ [_]).map StockCount.warehouse
    rw [List.map_append]
    exact List.prefix_append _ _
  · refine ⟨(countSnapshot c s s.documents.counts.length warehouse).map
      StockCountItem.snapshot, List.map_append, fun i hi => ?_⟩
    simp only [countSnapshot, List.map_map, List.mem_map] at hi
    obtain ⟨e, -, rfl⟩ := hi
    change s.documents.counts.length ≤ s.documents.counts.length ∧
      s.documents.counts.length < (s.documents.counts ++ [_]).length
    simp

lemma within_countsGrow_saveCounted (c : Call) (item : ℕ) (counted : ℚ) :
    Within CountsGrow (saveCounted c item counted) := by
  refine within_bind within_get fun _ => within_bind within_reads fun _ => ?_
  refine within_bind within_reads fun _ => within_bind within_reads fun _ => ?_
  refine within_bind within_check fun _ => within_bind within_check fun _ => ?_
  refine within_modify fun s => ⟨List.prefix_rfl, [], ?_, by simp⟩
  rw [List.append_nil]
  refine map_modify_of_eq ?_ _ _
  intro i
  rfl

lemma within_countsGrow_approveCount (c : Call) (count : ℕ) :
    Within CountsGrow (approveCount c count) := by
  refine within_bind within_reads fun ⟨cnt, items⟩ => within_bind within_get fun s => ?_
  refine within_bind (within_forM fun m _ => ?_) fun _ => within_modify fun s => ?_
  · exact (within_rest_recordMovement m).mono fun s t h =>
      .of_documents_eq (documents_of_rest h)
  · refine ⟨?_, [], by simp, by simp⟩
    have hsame : (s.documents.counts.modify count
        ({ · with status := .approved, approvedBy := some c.actor.user })).map
          StockCount.warehouse = s.documents.counts.map StockCount.warehouse := by
      refine map_modify_of_eq ?_ _ _
      intro x
      rfl
    change _ <+: (s.documents.counts.modify count _).map StockCount.warehouse
    rw [hsame]

/-- Every request lets the count tables grow. -/
lemma countsGrow_step (s : State) (op : Op) : CountsGrow s (step s op) := by
  have hframe : (∀ comp ∈ op.footprint, comp ≠ .counts) → CountsGrow s (step s op) :=
    fun h => step_within op (fun comp hcomp _ _ hc => Component.countsGrow hc (h comp hcomp)) s
  cases op with
  | startCount c warehouse => exact within_commit (within_countsGrow_startCount c warehouse) s
  | saveCounted c item counted =>
    exact within_commit (within_countsGrow_saveCounted c item counted) s
  | approveCount c count => exact within_commit (within_countsGrow_approveCount c count) s
  | saveMasterData m => exact hframe (by cases m <;> simp [Op.footprint, MasterData.component])
  | _ => exact hframe (by simp [Op.footprint])

lemma countsGrow_run (s : State) (ops : List Op) : CountsGrow s (run s ops) :=
  Trace.related countsGrow_step s ops

/-- No line belongs to a count that does not exist. -/
lemma count_lt_history (ops : List Op) :
    ∀ i ∈ (history ops).documents.countItems, i.count < (history ops).documents.counts.length := by
  obtain ⟨new, hnew, hcount⟩ := (countsGrow_run State.empty ops).lines
  intro i hi
  have hmem : i.snapshot ∈ new := by
    have : i.snapshot ∈ (history ops).documents.countItems.map StockCountItem.snapshot :=
      List.mem_map_of_mem hi
    unfold history at this
    rwa [hnew] at this
  exact (hcount _ hmem).2

/-- The lines of an existing count keep their snapshots. -/
lemma CountsGrow.itemsOfCount {s t : State} (h : CountsGrow s t) (id : ℕ)
    (hid : id < s.documents.counts.length) :
    (t.documents.itemsOfCount id).map StockCountItem.snapshot =
      (s.documents.itemsOfCount id).map StockCountItem.snapshot := by
  have hmap : ∀ l : List StockCountItem,
      (l.filter fun i => i.count = id).map StockCountItem.snapshot =
        (l.map StockCountItem.snapshot).filter fun i => i.count = id := by
    intro l
    rw [List.filter_map]
    rfl
  obtain ⟨new, hnew, hcount⟩ := h.lines
  have hrest : (new.filter fun i => i.count = id) = [] := by
    rw [List.filter_eq_nil_iff]
    intro i hi heq
    have := (hcount i hi).1
    have : i.count = id := of_decide_eq_true heq
    omega
  unfold Documents.itemsOfCount
  rw [hmap, hmap, hnew, List.filter_append, hrest, List.append_nil]

/-! ## The snapshot -/

/-- The key of a line of a count in the given warehouse. -/
def StockCountItem.key (i : StockCountItem) (warehouse : ℕ) : StockKey :=
  ⟨warehouse, i.product, i.variant⟩

lemma runs_startCount {c : Call} {warehouse : ℕ} {s t : State} {x : Unit}
    (h : Runs (startCount c warehouse) s x t) : t = insertCount c warehouse s := by
  unfold startCount at h
  simp only [runs_bind, runs_reads, runs_modify] at h
  obtain ⟨-, _, ⟨-, rfl⟩, rfl⟩ := h
  rfl

/-- The lines of a new count are the snapshot. -/
lemma itemsOfCount_insertCount {s : State} {c : Call} {warehouse : ℕ}
    (hs : ∀ i ∈ s.documents.countItems, i.count < s.documents.counts.length) :
    (insertCount c warehouse s).documents.itemsOfCount s.documents.counts.length =
      countSnapshot c s s.documents.counts.length warehouse := by
  have hold : (s.documents.countItems.filter fun i => i.count = s.documents.counts.length) =
      [] := by
    rw [List.filter_eq_nil_iff]
    intro i hi heq
    have := hs i hi
    have : i.count = s.documents.counts.length := of_decide_eq_true heq
    omega
  have hnew : ((countSnapshot c s s.documents.counts.length warehouse).filter
      fun i => i.count = s.documents.counts.length) =
        countSnapshot c s s.documents.counts.length warehouse := by
    rw [List.filter_eq_self]
    intro i hi
    obtain ⟨e, -, rfl⟩ := List.mem_map.mp hi
    simp
  change (s.documents.countItems ++ countSnapshot c s s.documents.counts.length warehouse).filter _
    = _
  rw [List.filter_append, hold, hnew, List.nil_append]

/-- A line of the snapshot has the level of its key. -/
lemma expectedQuantity_of_mem_countSnapshot {c : Call} {s : State} {count warehouse : ℕ}
    {i : StockCountItem} (h : i ∈ countSnapshot c s count warehouse) :
    i.expectedQuantity = s.stock.quantityOf (i.key warehouse) := by
  obtain ⟨⟨k, q⟩, he, rfl⟩ := List.mem_map.mp h
  obtain ⟨hmem, hcounts⟩ := List.mem_filter.mp he
  have hwarehouse : k.warehouse = warehouse := by
    simp only [countsLevel, Bool.and_eq_true, decide_eq_true_eq] at hcounts
    exact hcounts.1
  have hkey : k = ⟨warehouse, k.product, k.variant⟩ := by
    cases k
    simp only [StockKey.mk.injEq, and_true]
    exact hwarehouse
  have hlookup : s.stock.levels.lookup k = some q :=
    AList.mem_lookup_iff.mpr hmem
  change q = s.stock.quantityOf ⟨warehouse, k.product, k.variant⟩
  unfold Stock.quantityOf
  rw [← hkey, hlookup, Option.getD_some]

/-- The snapshot has one line for a key. -/
lemma nodup_countSnapshot (c : Call) (s : State) (count warehouse : ℕ) :
    ((countSnapshot c s count warehouse).map fun i => i.key warehouse).Nodup := by
  have hkeys : ((countSnapshot c s count warehouse).map fun i => i.key warehouse) =
      (s.stock.levels.entries.filter fun e => countsLevel c s warehouse e.1).map Sigma.fst := by
    unfold countSnapshot
    rw [List.map_map]
    refine List.map_congr_left fun e he => ?_
    have hcounts := (List.mem_filter.mp he).2
    simp only [countsLevel, Bool.and_eq_true, decide_eq_true_eq] at hcounts
    obtain ⟨⟨w, p, v⟩, q⟩ := e
    obtain ⟨rfl, -⟩ := hcounts
    rfl
  rw [hkeys]
  exact List.Nodup.sublist (List.filter_sublist.map _) s.stock.levels.nodupKeys

/-! ## The correction -/

/-- What an approval posts for a line. -/
def StockCountItem.correction (i : StockCountItem) : ℤ :=
  match i.countedQuantity with
  | none => 0
  | some counted => counted - i.expectedQuantity

/-- The rows of an approval add up to the corrections of the lines. -/
lemma movementTotal_countMovements {c : Call} {s : State} {cnt : StockCount}
    {items : List StockCountItem} {rows : List StockMovement}
    (h : List.Forall₂ RowFor (items.filterMap (countMovement c s cnt)) rows) (k : StockKey) :
    movementTotal rows k =
      ((items.filter fun i => i.key cnt.warehouse = k).map StockCountItem.correction).sum := by
  induction items generalizing rows with
  | nil =>
    obtain rfl := List.forall₂_nil_left_iff.mp h
    rfl
  | cons i items ih =>
    cases hm : countMovement c s cnt i with
    | none =>
      rw [List.filterMap_cons_none hm] at h
      have hzero : i.correction = 0 := by
        unfold countMovement at hm
        unfold StockCountItem.correction
        split at hm <;> simp_all
      rw [ih h]
      by_cases hk : i.key cnt.warehouse = k <;> simp [hk, hzero]
    | some m =>
      rw [List.filterMap_cons_some hm] at h
      obtain ⟨row, rows, hrow, hrows, rfl⟩ := List.forall₂_cons_left_iff.mp h
      have hm' : m.key = i.key cnt.warehouse ∧ m.quantity = dec i.correction := by
        unfold countMovement at hm
        split at hm
        · exact nomatch hm
        · split at hm
          · exact nomatch hm
          · obtain rfl := Option.some.inj hm
            simp [StockCountItem.key, StockCountItem.correction, *]
      have hkey : row.key = i.key cnt.warehouse := hrow.key.trans hm'.1
      have hquantity : row.quantity = i.correction := by
        rw [hrow.quantity, hm'.2, qty_dec]
      have hcons : movementTotal (row :: rows) k =
          (if i.key cnt.warehouse = k then i.correction else 0) + movementTotal rows k := by
        unfold movementTotal
        rw [← hkey, ← hquantity]
        by_cases hk : row.key = k <;> simp [hk]
      rw [hcons, ih hrows]
      by_cases hk : i.key cnt.warehouse = k <;> simp [hk]

lemma openCount_ok {c : Call} {id : ℕ} {s : State} {cnt : StockCount}
    {items : List StockCountItem} (h : openCount c id s = .ok (cnt, items)) :
    s.documents.counts[id]? = some cnt ∧ items = s.documents.itemsOfCount id := by
  unfold openCount at h
  simp only [except_bind_eq_ok, found_eq_ok, require_eq_ok, pure, Except.pure,
    Except.ok.injEq, Prod.mk.injEq] at h
  obtain ⟨cnt', hcnt, -, -, -, -, -, -, rfl, rfl⟩ := h
  exact ⟨hcnt, rfl⟩

lemma runs_approveCount {c : Call} {id : ℕ} {s t : State} {x : Unit}
    (h : Runs (approveCount c id) s x t) :
    ∃ cnt rows, s.documents.counts[id]? = some cnt ∧
      t.stock.movements = s.stock.movements ++ rows ∧
      List.Forall₂ RowFor
        ((s.documents.itemsOfCount id).filterMap (countMovement c s cnt)) rows := by
  unfold approveCount at h
  simp only [runs_bind, runs_reads, runs_get, runs_modify] at h
  obtain ⟨⟨cnt, items⟩, _, ⟨hopen, rfl⟩, _, _, ⟨rfl, rfl⟩, _, u, hrun, rfl⟩ := h
  obtain ⟨hcnt, rfl⟩ := openCount_ok hopen
  obtain ⟨rows, hrows, hmoved⟩ := runs_forM_recordMovement hrun
  exact ⟨cnt, rows, hcnt, hmoved.movements, hrows⟩

/-! ## The approved level -/

/-- **The approved level.**  A count is started in any history, anything at all happens, and
the count is approved.  The level of every counted line is then the counted quantity plus what
moved under its key since the count was started; and when neither the snapshot nor a movement in
between left the key negative, it is at least the counted quantity less the snapshot. -/
theorem approveCount_level {before between : List Op} {c c' : Call} {warehouse id : ℕ}
    {s₁ s₂ : State} {item : StockCountItem} {counted : ℤ}
    (hid : id = (history before).documents.counts.length)
    (hstart : (Op.startCount c warehouse).Accepted (history before))
    (hs₁ : s₁ = step (history before) (.startCount c warehouse))
    (hs₂ : s₂ = run s₁ between)
    (happrove : (Op.approveCount c' id).Accepted s₂)
    (hitem : item ∈ s₂.documents.itemsOfCount id)
    (hcounted : item.countedQuantity = some counted) :
    (step s₂ (.approveCount c' id)).stock.quantityOf (item.key warehouse) =
        counted + movementTotal (movementsSince s₁ s₂) (item.key warehouse) ∧
      (0 ≤ item.expectedQuantity →
        (∀ row ∈ movementsSince s₁ s₂, row.key = item.key warehouse → 0 ≤ row.balanceAfter) →
        counted - item.expectedQuantity ≤
          (step s₂ (.approveCount c' id)).stock.quantityOf (item.key warehouse)) := by
  have hinsert := runs_startCount hstart.runs
  rw [← hs₁] at hinsert
  subst hid hinsert hs₂
  obtain ⟨cnt, rows, hcnt, hrows, hfor⟩ := runs_approveCount happrove.runs
  set s := history before
  set s₁ := insertCount c warehouse s
  have hgrow : CountsGrow s₁ (run s₁ between) := countsGrow_run s₁ between
  have hlen : s₁.documents.counts.length = s.documents.counts.length + 1 := by
    change (s.documents.counts ++ [_]).length = _
    simp
  -- the count is still one of its warehouse
  have hwarehouse : cnt.warehouse = warehouse := by
    have hfirst : (s₁.documents.counts.map StockCount.warehouse)[s.documents.counts.length]? =
        some warehouse := by
      change ((s.documents.counts ++ [_]).map StockCount.warehouse)[_]? = _
      simp
    have hlast : ((run s₁ between).documents.counts.map
        StockCount.warehouse)[s.documents.counts.length]? = some cnt.warehouse := by
      rw [List.getElem?_map, hcnt, Option.map_some]
    have hsame := getElem?_of_prefix hgrow.warehouses hfirst
    exact Option.some.inj (hlast.symm.trans hsame)
  -- its lines are still those of the snapshot
  have hlines := hgrow.itemsOfCount s.documents.counts.length (by omega)
  rw [itemsOfCount_insertCount (count_lt_history before)] at hlines
  have hmem : item.snapshot ∈ (countSnapshot c s s.documents.counts.length warehouse).map
      StockCountItem.snapshot := by
    rw [← hlines]
    exact List.mem_map_of_mem hitem
  have hexpected : item.expectedQuantity = s₁.stock.quantityOf (item.key warehouse) := by
    obtain ⟨i, hi, heq⟩ := List.mem_map.mp hmem
    have hq : i.snapshot.expectedQuantity = item.snapshot.expectedQuantity := by rw [heq]
    have hk : i.snapshot.key warehouse = item.snapshot.key warehouse := by rw [heq]
    change i.expectedQuantity = item.expectedQuantity at hq
    change i.key warehouse = item.key warehouse at hk
    rw [← hq, ← hk]
    exact expectedQuantity_of_mem_countSnapshot hi
  have hnodup : (((run s₁ between).documents.itemsOfCount s.documents.counts.length).map
      fun i => i.key warehouse).Nodup := by
    have hkeys : ∀ l : List StockCountItem, (l.map fun i => i.key warehouse) =
        (l.map StockCountItem.snapshot).map fun i => i.key warehouse := by
      intro l
      rw [List.map_map]
      rfl
    rw [hkeys, hlines, ← hkeys]
    exact nodup_countSnapshot c s _ warehouse
  -- so the approval posts exactly this line's correction under its key
  have hcorrection : movementTotal rows (item.key warehouse) =
      counted - item.expectedQuantity := by
    rw [movementTotal_countMovements hfor, hwarehouse,
      filter_key_eq_singleton (g := fun i => StockCountItem.key i warehouse) hnodup hitem]
    simp [StockCountItem.correction, hcounted]
  have happroved := quantityOf_run (run s₁ between)
    [.approveCount c' s.documents.counts.length] (item.key warehouse)
  change (step (run s₁ between) _).stock.quantityOf _ =
    _ + movementTotal (movementsSince _ (step (run s₁ between) _)) _ at happroved
  rw [movementsSince_of_append hrows] at happroved
  have hbetween := quantityOf_run s₁ between (item.key warehouse)
  refine ⟨by omega, fun hsnapshot hpolicy => ?_⟩
  rcases quantityOf_run_cases s₁ between (item.key warehouse) with
    hsame | ⟨row, hrow, hkey, hafter⟩
  · omega
  · have := hpolicy row hrow hkey
    omega

/-- Ten pieces are on hand when a count is started; five are counted, and eight are sold. -/
def countedThenSold : List Op := [.saveCounted Shop.call 0 5, Shop.sell 8 [⟨0, 160⟩]]

/-- The state after the sale, with the count still open. -/
def countedThenSoldState : State :=
  run (step (history (Shop.stocked 20000)) (.startCount Shop.call 0)) countedThenSold

theorem approveCount_level_run :
    (step countedThenSoldState (.approveCount Shop.call 0)).stock.quantityOf ⟨0, 0, none⟩ =
      5000 + -8000 := by
  have h := @approveCount_level (Shop.stocked 20000) countedThenSold Shop.call Shop.call 0 0 _ _
    ⟨0, 0, none, 10000, some 5000⟩ 5000
    (by decide +kernel) (by decide +kernel) rfl rfl (by decide +kernel) (by decide +kernel) rfl
  exact h.1.trans (by decide +kernel)

/-- Under the `block` policy, with no movement that left the key negative, the approval leaves
it at minus three. -/
theorem approveCount_level_negative :
    countedThenSoldState.tenant.settings.negativeStockPolicy = .block ∧
      (∀ row ∈ countedThenSoldState.stock.movements, 0 ≤ row.balanceAfter) ∧
      (Op.approveCount Shop.call 0).Accepted countedThenSoldState ∧
      (step countedThenSoldState (.approveCount Shop.call 0)).stock.quantityOf ⟨0, 0, none⟩ =
        -3000 := by
  decide +kernel

end NexaPos
