import NexaPos.Properties.FabricUse

/-!
# Fabric is accounted for

The report takes opening stock, purchases and what is left from the stock ledger, and works out
from the lines of sales and returns what was used.  In every history without adjustments, counts
and edits of the product, the two agree up to what is on its way: goods of a transfer that was
dispatched and has not arrived are in no warehouse (`fabric_history_balances`).
-/

namespace NexaPos

open Tx

/-! ## The requests of a fabric history -/

/-- Everything but adjustments, counts, imports other than of opening stock, and edits of the
product. -/
def Op.IsFabricOp (product : ℕ) : Op → Prop
  | .saveMasterData (.product (some id) _) => id ≠ product
  | .createAdjustment .. | .approveAdjustment .. | .approveCount .. => False
  | .importInventory _ ctx _ => ctx.mode = .opening
  | _ => True

instance decidableIsFabricOp (product : ℕ) (op : Op) : Decidable (op.IsFabricOp product) := by
  unfold Op.IsFabricOp
  split <;> infer_instance

/-! ## The product stays what it is -/

/-- A product that is there stays, and is sold by the metre or not as before. -/
def MetreKept (product : ℕ) (s t : State) : Prop :=
  ∀ x, s.catalog.products[product]? = some x →
    ∃ y, t.catalog.products[product]? = some y ∧ y.isMeterTailoring = x.isMeterTailoring

instance isPreorderMetreKept (product : ℕ) : IsPreorder State (MetreKept product) where
  refl _ x hx := ⟨x, hx, rfl⟩
  trans _ _ _ h₁ h₂ x hx := by
    obtain ⟨y, hy, hxy⟩ := h₁ x hx
    obtain ⟨z, hz, hyz⟩ := h₂ y hy
    exact ⟨z, hz, hyz.trans hxy⟩

section Kept

variable {product : ℕ} {s t : State}

lemma metreKept_of_products (h : t.catalog.products = s.catalog.products) :
    MetreKept product s t := by
  intro x hx
  exact ⟨x, by rw [h]; exact hx, rfl⟩

/-- A product is rewritten in columns that have nothing to do with how it is sold. -/
lemma metreKept_of_modify {pk : ℕ} {f : Product → Product}
    (h : t.catalog.products = s.catalog.products.modify pk f)
    (hf : pk = product → ∀ x, (f x).isMeterTailoring = x.isMeterTailoring) :
    MetreKept product s t := by
  intro x hx
  refine ⟨if pk = product then f x else x, ?_, ?_⟩
  · rw [h]
    exact getElem?_modify_eq_some.mpr ⟨x, hx, rfl⟩
  · split
    · rename_i hpk
      exact hf hpk x
    · rfl

lemma metreKept_of_shape (h : t.catalog.shape = s.catalog.shape) : MetreKept product s t := by
  intro x hx
  have hproducts := congrArg (fun c => c.products[product]?) h
  simp only [Catalog.shape, List.getElem?_map, hx, Option.map_some] at hproducts
  obtain ⟨y, hy, hsame⟩ := Option.map_eq_some_iff.mp hproducts
  refine ⟨y, hy, ?_⟩
  have hmetre := congrArg Product.isMeterTailoring hsame
  exact hmetre

lemma Component.metreKept {comp : Component} (h : comp.Change s t) (hne : comp ≠ .catalog) :
    MetreKept product s t := by
  cases comp with
  | catalog => exact absurd rfl hne
  | movements type =>
    obtain ⟨m, u, -, hrun⟩ := h
    exact metreKept_of_shape (congrArg (fun x => x.2.1) (within_rest_recordMovement m hrun))
  | transfers => obtain ⟨x, y, rfl⟩ := h; exact metreKept_of_products rfl
  | adjustments => obtain ⟨x, y, rfl⟩ := h; exact metreKept_of_products rfl
  | counts => obtain ⟨x, y, rfl⟩ := h; exact metreKept_of_products rfl
  | accounts => obtain ⟨x, f, rfl⟩ := h; exact metreKept_of_products rfl
  | levels => obtain ⟨k, -, rfl⟩ := h; exact metreKept_of_products rfl
  | _ => obtain ⟨x, rfl⟩ := h; exact metreKept_of_products rfl

lemma within_metreKept_recordMovement (m : Movement) :
    Within (MetreKept product) (recordMovement m) := by
  intro s u t h
  exact metreKept_of_shape (congrArg (fun x => x.2.1) (within_rest_recordMovement m h))

/-- The requests of a fabric history leave the product sold as it is. -/
lemma metreKept_step (s : State) (op : Op) (hop : op.IsFabricOp product) :
    MetreKept product s (step s op) := by
  have hframe (h : ∀ comp ∈ op.footprint, comp ≠ .catalog) : MetreKept product s (step s op) :=
    step_within op (fun comp hcomp _ _ hchange => Component.metreKept hchange (h comp hcomp)) s
  cases op with
  | saveMasterData m =>
    cases m with
    | product id row =>
      cases id with
      | none =>
        intro x hx
        exact ⟨x, getElem?_append_eq_some.mpr (.inl hx), rfl⟩
      | some id => exact metreKept_of_modify (s := s) rfl fun hid => absurd hid hop
    | variant id row => exact metreKept_of_products rfl
    | _ => exact metreKept_of_products rfl
  | receivePurchase c purchase quantities =>
    refine within_commit (R := MetreKept product) (within_receivePurchase
      (fun m _ _ => within_metreKept_recordMovement m) (fun s item => ?_)
      (fun _ _ => metreKept_of_products rfl) (fun _ _ => metreKept_of_products rfl) c purchase
      quantities) s
    unfold setPurchasePrice
    split
    · exact metreKept_of_products rfl
    · exact metreKept_of_modify rfl fun _ _ => rfl
  | importInventory c ctx rows =>
    exact within_commit (within_discard (within_importInventory
      (fun m _ _ => within_metreKept_recordMovement m)
      (fun s pk level => metreKept_of_modify rfl fun _ _ => rfl) c rows)) s
  | createAdjustment => exact hop.elim
  | approveAdjustment => exact hop.elim
  | approveCount => exact hop.elim
  | _ => exact hframe (by simp [Op.footprint])

end Kept

/-! ## Every request keeps the balance -/

section Invariant

variable {product : ℕ} {variant : Option ℕ} {s t : State}

/-- Opening stock and purchases keep the balance. -/
lemma within_fabricBalanced_recordMovement {m : Movement}
    (hm : isReported m.movementType = true) :
    Within (Preserves (FabricBalanced product variant)) (recordMovement m) := by
  intro s u t h hs
  obtain ⟨-, -, -, hrest⟩ := runs_recordMovement h
  have hmoved : otherMoved t product variant = otherMoved s product variant :=
    within_otherMoved_recordMovement hm h
  unfold FabricBalanced at hs ⊢
  rw [hmoved, documents_of_rest hrest, metresUsed_of_sales (sales_of_rest hrest)]
  exact hs

lemma fabricBalanced_of_same (hstock : t.stock.movements = s.stock.movements)
    (htransit : t.documents.inTransit = s.documents.inTransit) (hsales : t.sales = s.sales)
    (hs : FabricBalanced product variant s) : FabricBalanced product variant t := by
  unfold FabricBalanced otherMoved at hs ⊢
  rw [hstock, htransit, metresUsed_of_sales hsales]
  exact hs

/-- Writes outside stock, sales and transfers keep the balance. -/
lemma Component.fabricBalanced {comp : Component} (h : comp.Change s t)
    (hsales : comp ≠ .sales ∧ comp ≠ .paymentMethods) (htransfers : comp ≠ .transfers)
    (hmoves : ∀ type, comp ≠ .movements type) (hs : FabricBalanced product variant s) :
    FabricBalanced product variant t := by
  refine fabricBalanced_of_same ?_ (Component.inTransit_eq h htransfers)
    (h.kept.sales hsales.1 hsales.2) hs
  cases comp with
  | levels =>
    obtain ⟨k, -, rfl⟩ := h
    rfl
  | _ => rw [h.kept.stock (by simp) hmoves]

/-- A payment of a sale keeps the balance. -/
lemma fabricBalanced_paid {c : Call} {r : SalePaymentRequest} {x : Unit}
    (h : Runs (addSalePayment c r) s x t) (hrecorded : (salesView s).Recorded)
    (hs : FabricBalanced product variant s) : FabricBalanced product variant t := by
  obtain ⟨sale, amount, -, ht⟩ := runs_addSalePayment h
  have hused : metresUsed t product variant = metresUsed s product variant := by
    refine metresUsed_congr (by rw [ht]; rfl) (fun line item _ => ?_) (fun line item hitem => ?_) _ _
    · rw [ht]
      rfl
    · refine isLiveSale_modify r.sale (paidSale { s with sales.payments := t.sales.payments }
        r.sale amount) [] ?_ (fun y _ => paidSale_live _ _ _ y) (hrecorded.item_sale_lt hitem)
      rw [ht, List.append_nil]
      rfl
  unfold FabricBalanced otherMoved at hs ⊢
  rw [hused, ht]
  exact hs

/-- A transfer keeps the balance. -/
lemma fabricBalanced_transfer (op : TransferOp) (htotal : TotalKept product variant s)
    (hs : FabricBalanced product variant s) :
    FabricBalanced product variant (step s op.toOp) := by
  have hgoods := goods_step s op
  have htotal' := totalKept_step product variant s op.toOp htotal
  have hsales : (step s op.toOp).sales = s.sales := by
    refine step_within (R := Frame fun s : State => s.sales) op.toOp ?_ s
    intro comp hcomp s t hchange
    refine hchange.kept.sales ?_ ?_ <;> rintro rfl <;> cases op <;>
      simp [TransferOp.toOp, Op.footprint] at hcomp
  rcases commit_cases op.toOp.service s with hsame | ⟨x, hrun⟩
  · unfold step
    rw [hsame]
    exact hs
  · change Runs _ s x (step s op.toOp) at hrun
    generalize step s op.toOp = t at *
    cases op with
    | create c a b rows =>
      rw [runs_createTransfer hrun]
      refine fabricBalanced_of_same (s := s) rfl ?_ rfl hs
      funext product variant
      exact inTransit_insertTransfer c a b rows s product variant
    | dispatch c id =>
      obtain ⟨tr, -, -, hmoved⟩ := runs_dispatchTransfer hrun
      exact hmoved.fabricBalanced (fun _ => rfl) htotal htotal' hgoods hsales hs
    | receive c id =>
      obtain ⟨tr, -, -, hmoved⟩ := runs_receiveTransfer hrun
      exact hmoved.fabricBalanced (fun _ => rfl) htotal htotal' hgoods hsales hs
    | cancel c id =>
      obtain ⟨tr, -, -, hmoved⟩ := runs_cancelTransfer hrun
      exact hmoved.fabricBalanced (fun _ => rfl) htotal htotal' hgoods hsales hs

/-- The product is sold by the metre, if it is there. -/
def IsMetreProduct (product : ℕ) (s : State) : Prop :=
  ∀ x, s.catalog.products[product]? = some x → x.isMeterTailoring = true

lemma metreLines_step (op : Op) (hproduct : IsMetreProduct product s)
    (hs : MetreLines product s) : MetreLines product (step s op) := by
  rcases salesView_step s op with hsame | ⟨c, r, id, p, number, items, rfl, hmade⟩
  · intro item hitem
    have hcore : item.core ∈ (salesView s).items := by
      rw [← hsame]
      exact List.mem_map_of_mem hitem
    obtain ⟨old, hold, heq⟩ := List.mem_map.mp hcore
    have hmeasured : old.core.product = product →
        old.core.customerSuppliedFabric = true ∨ old.core.fabricMeterUsed.isSome = true :=
      hs old hold
    rw [heq] at hmeasured
    exact hmeasured
  · obtain ⟨totalCost, sequences, hsales⟩ := hmade.sales
    intro item hitem
    rw [hsales] at hitem
    rcases List.mem_append.mp hitem with hold | hnew
    · exact hs item hold
    · exact hmade.measured hproduct hnew

/-- The lines of returns belong to their headers, and put back at most what came back. -/
lemma RestockRows.congr (hitems : t.sales.items = s.sales.items)
    (hreturns : t.sales.returns = s.sales.returns)
    (hrows : t.sales.returnItems = s.sales.returnItems) (hs : RestockRows s) : RestockRows t := by
  have hback : restockedQuantity t = restockedQuantity s := by
    funext line item
    unfold restockedQuantity
    rw [hreturns, hrows]
  refine ⟨?_, ?_⟩
  · rw [hrows, hreturns]
    exact hs.header
  · rw [hitems, hback]
    exact hs.within

lemma SaleMade.restockRows {c : Call} {r : CheckoutRequest} {id : ℕ} {p : PreparedSale}
    {number : Text} {items : List SaleItem} (h : SaleMade c r s t id p number items)
    (hlinked : Linked s) (hs : RestockRows s) : RestockRows t := by
  obtain ⟨totalCost, sequences, hsales⟩ := h.sales
  have hback : ∀ line item, restockedQuantity t line item = restockedQuantity s line item := by
    intro line item
    unfold restockedQuantity
    rw [hsales]
  refine ⟨?_, fun line item hitem hmeter => ?_⟩
  · rw [hsales]
    exact hs.header
  · rw [hback]
    rw [hsales] at hitem
    rcases getElem?_append_eq_some.mp hitem with hold | ⟨hnew, hmem⟩
    · exact hs.within line item hold hmeter
    · have hnone : restockedQuantity s line item = 0 := by
        unfold restockedQuantity
        rw [List.filter_eq_nil_iff.mpr]
        · rfl
        · intro x hx
          have hlt := hlinked.returnItem x hx
          have hne : x.saleItem ≠ line := by omega
          simp [hne]
      rw [hnone, h.returnedQuantity_eq (List.mem_of_getElem? hmem)]
      exact ⟨le_rfl, le_rfl⟩

/-- What every step of a fabric history keeps. -/
structure FabricInvariant (product : ℕ) (variant : Option ℕ) (s : State) : Prop where
  sales : SalesInvariant s
  drafts : NoDrafts s
  total : TotalKept product variant s
  lines : MetreLines product s
  rows : RestockRows s
  balanced : FabricBalanced product variant s

lemma restockRows_step (op : Op) (hs : FabricInvariant product variant s) :
    RestockRows (step s op) := by
  cases salesStep s op with
  | same h => exact hs.rows.congr (by rw [h]) (by rw [h]) (by rw [h])
  | method h => exact hs.rows.congr (by rw [h]; rfl) (by rw [h]; rfl) (by rw [h]; rfl)
  | made h => exact h.restockRows hs.sales.linked hs.rows
  | paid h =>
    obtain ⟨sale, amount, -, ht⟩ := runs_addSalePayment h
    exact hs.rows.congr (by rw [ht]; rfl) (by rw [ht]; rfl) (by rw [ht]; rfl)
  | @voided c id h =>
    obtain ⟨sale, amounts, rows, u, -, -, hmoved, ht⟩ := runs_voidSale h
    have hsales := sales_applyVoid c id sale amounts u
    rw [sales_of_rest hmoved.rest, ← ht] at hsales
    exact hs.rows.congr (by rw [hsales]) (by rw [hsales]) (by rw [hsales])
  | returned h =>
    exact (fabric_return h hs.sales.returns.within hs.sales.recorded hs.drafts hs.lines hs.rows
      hs.balanced).2

lemma fabricBalanced_step (op : Op) (hop : op.IsFabricOp product)
    (hproduct : IsMetreProduct product s) (hs : FabricInvariant product variant s) :
    FabricBalanced product variant (step s op) := by
  have hframe (h : ∀ comp ∈ op.footprint, (comp ≠ .sales ∧ comp ≠ .paymentMethods) ∧
      comp ≠ .transfers ∧ ∀ type, comp ≠ .movements type) :
      FabricBalanced product variant (step s op) := by
    refine step_within (R := Preserves (FabricBalanced product variant)) op ?_ s hs.balanced
    intro comp hcomp s t hchange
    obtain ⟨hsales, htransfers, hmoves⟩ := h comp hcomp
    exact Component.fabricBalanced hchange hsales htransfers hmoves
  have hpurchases (s : State) (x : PurchaseTables) :
      Preserves (FabricBalanced product variant) s { s with purchases := x } :=
    fun hs => hs
  have hsuppliers (s : State) (x : List Supplier) :
      Preserves (FabricBalanced product variant) s { s with parties.suppliers := x } :=
    fun hs => hs
  by_cases haccepted : op.Accepted s
  · have hrun := haccepted.runs
    cases op with
    | completeSale c r =>
      obtain ⟨id, hrun⟩ := runs_discard.mp hrun
      rcases runs_completeSale hrun with hreplayed | ⟨p, number, items, hmade⟩
      · rw [hreplayed.unchanged]
        exact hs.balanced
      · exact hmade.fabricBalanced hs.sales.linked hs.sales.recorded hproduct hs.balanced
    | addSalePayment c r => exact fabricBalanced_paid hrun hs.sales.recorded hs.balanced
    | voidSale c id =>
      exact fabricBalanced_void haccepted hs.drafts hs.sales.recorded hs.lines hs.balanced
    | processReturn c r =>
      exact (fabric_return hrun hs.sales.returns.within hs.sales.recorded hs.drafts hs.lines
        hs.rows hs.balanced).1
    | createTransfer c a b rows =>
      exact fabricBalanced_transfer (.create c a b rows) hs.total hs.balanced
    | dispatchTransfer c id => exact fabricBalanced_transfer (.dispatch c id) hs.total hs.balanced
    | receiveTransfer c id => exact fabricBalanced_transfer (.receive c id) hs.total hs.balanced
    | cancelTransfer c id => exact fabricBalanced_transfer (.cancel c id) hs.total hs.balanced
    | receivePurchase c purchase quantities =>
      refine within_receivePurchase (R := Preserves (FabricBalanced product variant))
        (fun m hm _ => within_fabricBalanced_recordMovement (by rw [hm]; rfl)) (fun s item => ?_)
        hpurchases hsuppliers c purchase quantities hrun hs.balanced
      unfold setPurchasePrice
      split <;> exact fun hs => hs
    | returnPurchase c purchase quantities =>
      exact within_returnPurchase (R := Preserves (FabricBalanced product variant))
        (fun m hm _ => within_fabricBalanced_recordMovement (by rw [hm]; rfl)) hpurchases
        hsuppliers c purchase quantities hrun hs.balanced
    | ensureBranchOpeningStock c k quantity unitCost =>
      exact within_ensureBranchOpeningStock (R := Preserves (FabricBalanced product variant))
        (fun m hm _ => within_fabricBalanced_recordMovement (by rw [hm]; rfl))
        (fun _ _ _ hs => hs) c k quantity unitCost hrun hs.balanced
    | setOpeningStock c k quantity unitCost =>
      exact within_setOpeningStock (R := Preserves (FabricBalanced product variant))
        (fun m hm _ => within_fabricBalanced_recordMovement (by rw [hm]; rfl)) c k quantity
        unitCost hrun hs.balanced
    | importInventory c ctx rows =>
      exact within_discard (within_importInventory (R := Preserves (FabricBalanced product variant))
        (fun m hm _ => within_fabricBalanced_recordMovement (by rw [hm hop]; rfl))
        (fun _ _ _ hs => hs) c rows) hrun hs.balanced
    | saveMasterData m =>
      cases m with
      | paymentMethod id row => exact hs.balanced
      | _ => exact hframe (by simp [Op.footprint, MasterData.component])
    | createAdjustment => exact hop.elim
    | approveAdjustment => exact hop.elim
    | approveCount => exact hop.elim
    | _ => exact hframe (by simp [Op.footprint])
  · rw [step_of_not_accepted haccepted]
    exact hs.balanced

lemma fabricInvariant_step (op : Op) (hop : op.IsFabricOp product)
    (hproduct : IsMetreProduct product s) (hs : FabricInvariant product variant s) :
    FabricInvariant product variant (step s op) where
  sales := salesInvariant_step s op hs.sales
  drafts := noDrafts_step op hs.drafts
  total := totalKept_step product variant s op hs.total
  lines := metreLines_step op hproduct hs.lines
  rows := restockRows_step op hs
  balanced := fabricBalanced_step op hop hproduct hs

end Invariant

/-- A product that is sold by the metre at the end of a fabric history was so all the way. -/
lemma fabricInvariant_history {product : ℕ} (variant : Option ℕ) {ops : List Op}
    (hops : ∀ op ∈ ops, op.IsFabricOp product) (hproduct : IsMetreProduct product (history ops)) :
    FabricInvariant product variant (history ops) := by
  induction ops using List.reverseRecOn with
  | nil =>
    refine ⟨⟨recorded_history [], linked_history [], returnsRecorded_history [], ?_⟩,
      filed_empty.noDrafts, totalKept_history [] product variant, ?_, ⟨?_, ?_⟩, rfl⟩
    · exact fun item hitem => absurd hitem List.not_mem_nil
    · exact fun item hitem => absurd hitem List.not_mem_nil
    · exact fun x hx => absurd hx List.not_mem_nil
    · exact fun line item hitem => nomatch hitem
  | append_singleton ops op ih =>
    rw [history_append] at hproduct ⊢
    have hop := hops op (List.mem_append_right _ (List.mem_singleton_self op))
    have hbefore : IsMetreProduct product (history ops) := by
      intro x hx
      obtain ⟨y, hy, hsame⟩ := metreKept_step (history ops) op hop x hx
      rw [← hsame]
      exact hproduct y hy
    have hs := ih (fun op' hop' => hops op' (List.mem_append_left _ hop')) hbefore
    exact fabricInvariant_step op hop hbefore hs


/-! ## The rows of the report -/

section Rows

variable {s : State} {k : FabricKey}

/-- The movements in scope of some types. -/
lemma totalOf_fabricMovements (hscope : inFabricScope s k.1 k.2 = true)
    (types : List MovementType) :
    totalOf (fabricMovements s types) k =
      Stock.productTotal (s.stock.movements.filter fun row => row.movementType ∈ types) k.1 k.2 := by
  unfold fabricMovements Stock.productTotal
  rw [totalOf_map_filter, List.filter_filter]
  refine congrArg (fun rows => (List.map StockMovement.quantity rows).sum) ?_
  refine List.filter_congr fun row _ => ?_
  by_cases hkey : row.key.product = k.1 ∧ row.key.variant = k.2
  · have hk : row.key.fabricKey = k := Prod.ext hkey.1 hkey.2
    simp [hkey, hk, hscope]
  · have hk : row.key.fabricKey ≠ k := fun h => hkey ⟨congrArg Prod.fst h, congrArg Prod.snd h⟩
    simp only [hk, hkey, decide_false, Bool.and_false, Bool.false_and]

/-- What is left is the stock on hand, in every warehouse. -/
lemma totalOf_remainingRows (hscope : inFabricScope s k.1 k.2 = true) :
    totalOf (remainingRows s) k = s.stock.total k.1 k.2 := by
  unfold remainingRows Stock.total
  rw [totalOf_map_filter]
  refine congrArg List.sum (congrArg (List.map _) (List.filter_congr fun e _ => ?_))
  by_cases hkey : e.1.product = k.1 ∧ e.1.variant = k.2
  · have hk : e.1.fabricKey = k := Prod.ext hkey.1 hkey.2
    simp [hkey, hk, hscope]
  · have hk : e.1.fabricKey ≠ k := fun h => hkey ⟨congrArg Prod.fst h, congrArg Prod.snd h⟩
    simp only [hk, hkey, decide_false, Bool.and_false]

/-- What was used is what the lines use. -/
lemma totalOf_usageRows (hscope : inFabricScope s k.1 k.2 = true) :
    totalOf (usageRows s) k = metresUsed s k.1 k.2 := by
  unfold usageRows metresUsed
  rw [totalOf_map_filter, sum_map_filter, sum_zipIdx]
  refine Finset.sum_congr rfl fun line _ => ?_
  unfold lineUsed
  cases s.sales.items[line]? with
  | none => rw [Option.elim_none, Option.elim_none]
  | some item =>
    rw [Option.elim_some, Option.elim_some, zero_add]
    refine if_congr ?_ rfl rfl
    have hpositive : item.fabricMeterUsed.any (0 < ·) = item.fabricMeterUsed.isSome := by
      cases hmeter : item.fabricMeterUsed with
      | none => rfl
      | some m => simp [item.meter_pos m hmeter]
    unfold usesFabric
    rw [hpositive]
    by_cases hkey : item.product = k.1 ∧ item.variant = k.2
    · have hk : item.fabricKey = k := Prod.ext hkey.1 hkey.2
      simp [hkey, hk, hscope]
    · have hk : item.fabricKey ≠ k := fun h => hkey ⟨congrArg Prod.fst h, congrArg Prod.snd h⟩
      simp [hkey, hk]

/-- Opening stock and purchases, and everything else, are what is left. -/
lemma total_eq_reported_add_other {product : ℕ} {variant : Option ℕ}
    (h : TotalKept product variant s) :
    s.stock.total product variant =
      Stock.productTotal (s.stock.movements.filter fun row => row.movementType ∈ [.opening]) product
          variant +
        Stock.productTotal (s.stock.movements.filter fun row =>
          row.movementType ∈ [.purchase, .purchaseReturn]) product variant +
        otherMoved s product variant := by
  have hopening : ∀ row : StockMovement, decide (row.movementType ∈ [MovementType.opening]) = true →
      decide (row.movementType ∈ [MovementType.purchase, .purchaseReturn]) = false := by
    intro row hrow
    rw [decide_eq_true_eq, List.mem_singleton] at hrow
    rw [hrow]
    rfl
  have hreported : ∀ row : StockMovement,
      (decide (row.movementType ∈ [MovementType.opening]) ||
        decide (row.movementType ∈ [MovementType.purchase, .purchaseReturn])) =
          isReported row.movementType := by
    intro row
    cases row.movementType <;> rfl
  have hall : (s.stock.movements.filter fun row =>
      isReported row.movementType || !isReported row.movementType) = s.stock.movements :=
    List.filter_eq_self.mpr fun row _ => Bool.or_not_self _
  have hother : ∀ row : StockMovement, isReported row.movementType = true →
      (!isReported row.movementType) = false := fun row hrow => by rw [hrow]; rfl
  unfold TotalKept at h
  unfold otherMoved
  rw [h, ← productTotal_filter_or hopening]
  simp only [hreported]
  rw [← productTotal_filter_or hother, hall]

end Rows

/-- In every history without adjustments, counts and edits of the product, what was opened with and
bought and is not used, is in a warehouse or on its way to one. -/
theorem fabric_history_balances (ops : List Op) {row : FabricRow}
    (hrow : row ∈ fabricHistory (history ops)) (hops : ∀ op ∈ ops, op.IsFabricOp row.key.1) :
    row.opening + row.purchased - row.used =
      row.remaining + (history ops).documents.inTransit row.key.1 row.key.2 := by
  obtain ⟨k, -, hsome⟩ := List.mem_filterMap.mp hrow
  obtain ⟨hscope, hkey, hopening, hpurchased, hused, hremaining⟩ := fabricRow_eq_some hsome
  rw [hkey] at hops ⊢
  have hproduct : IsMetreProduct k.1 (history ops) := by
    intro x hx
    have hfabric := (Bool.and_eq_true_iff.mp hscope).1
    rw [hx, Option.any_some] at hfabric
    unfold Product.isFabric at hfabric
    exact (Bool.and_eq_true_iff.mp (Bool.and_eq_true_iff.mp hfabric).1).1
  have hs := fabricInvariant_history k.2 hops hproduct
  have hbalanced := hs.balanced
  have htotal := total_eq_reported_add_other hs.total
  unfold FabricBalanced at hbalanced
  unfold openingRows at hopening
  unfold purchaseRows at hpurchased
  rw [totalOf_fabricMovements hscope] at hopening hpurchased
  rw [totalOf_usageRows hscope] at hused
  rw [totalOf_remainingRows hscope] at hremaining
  omega

/-- Ten metres of a fabric in the store. -/
def fabricShop : List Op := Shop.setup ++ [
  .saveMasterData (.product none {
    name := "wool", isTailoringItem := true, unitIsMeter := some true, salePrice := 5000 }),
  .ensureBranchOpeningStock Shop.call ⟨0, 0, none⟩ 10 1]

/-- Six of them are sent to the back room. -/
def sixSent : List Op := [
  .createTransfer Shop.call 0 1 [⟨0, none, 6⟩], .dispatchTransfer Shop.call 0]

/-- Three and a half are sold. -/
def garmentSold : Op := .completeSale Shop.call { Shop.cart 1 [⟨0, 50⟩] with
  deliveryDate := some 7
  items := [{
    product := 0, quantity := 1, fabricMeterUsed := some (.number ⟨35, -1⟩)
    garmentClassification := .value .adult, collectionType := .value .normal }] }

theorem fabric_history_balances_sold :
    ∃ row ∈ fabricHistory (history (fabricShop ++ garmentSold :: sixSent)),
      row.opening + row.purchased - row.used = row.remaining + 6000 ∧ row.used = 3500 := by
  have hrow : (⟨(0, none), "wool", 10000, 0, 3500, 500, 1⟩ : FabricRow) ∈
      fabricHistory (history (fabricShop ++ garmentSold :: sixSent)) := by decide +kernel
  have hbalances := fabric_history_balances (fabricShop ++ garmentSold :: sixSent) hrow
    (by decide +kernel)
  have htransit : (history (fabricShop ++ garmentSold :: sixSent)).documents.inTransit 0 none =
      6000 := by decide +kernel
  rw [htransit] at hbalances
  exact ⟨_, hrow, hbalances, rfl⟩

/-- Goods that are on their way are neither used nor left. -/
theorem fabric_history_in_transit :
    (∀ op ∈ fabricShop ++ sixSent, op.IsFabricOp 0) ∧
      ∃ row ∈ fabricHistory (history (fabricShop ++ sixSent)),
        row.key.1 = 0 ∧ row.opening + row.purchased - row.used ≠ row.remaining := by
  refine ⟨by decide +kernel, ⟨(0, none), "wool", 10000, 0, 0, 4000, 0⟩, by decide +kernel, rfl, ?_⟩
  decide

end NexaPos
