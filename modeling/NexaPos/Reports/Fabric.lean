import NexaPos.Registers.Services

/-!
# The fabric report

`fabric_history` shows for every product and variant that is sold by the metre what was opened
with, bought and used, and what is left.  Opening stock and purchases are read off the movements,
what is left off the levels, and what was used is worked out anew from the lines of the sales and
the lines of their returns.
-/

namespace NexaPos

/-- The products of the report. -/
def Product.isFabric (p : Product) : Bool :=
  p.isMeterTailoring && p.isStocked && !p.isArchived

/-- Rows count for a product of the report, and for a variant only if it is one of the product. -/
def inFabricScope (s : State) (product : ℕ) (variant : Option ℕ) : Bool :=
  (s.catalog.products[product]?).any Product.isFabric &&
    variant.all fun v => (s.catalog.variants[v]?).any fun x => x.product = product

/-- What a row of the report is about. -/
abbrev FabricKey := ℕ × Option ℕ

def StockKey.fabricKey (k : StockKey) : FabricKey := (k.product, k.variant)

def SaleItem.fabricKey (i : SaleItem) : FabricKey := (i.product, i.variant)

/-! ## The queries -/

/-- The levels in scope. -/
def remainingRows (s : State) : List (FabricKey × ℤ) :=
  (s.stock.levels.entries.filter fun e => inFabricScope s e.1.product e.1.variant).map
    fun e => (e.1.fabricKey, e.2)

/-- The movements in scope of some types. -/
def fabricMovements (s : State) (types : List MovementType) : List (FabricKey × ℤ) :=
  (s.stock.movements.filter fun row =>
    inFabricScope s row.key.product row.key.variant && row.movementType ∈ types).map
    fun row => (row.key.fabricKey, row.quantity)

def openingRows (s : State) : List (FabricKey × ℤ) := fabricMovements s [.opening]

def purchaseRows (s : State) : List (FabricKey × ℤ) :=
  fabricMovements s [.purchase, .purchaseReturn]

/-- What returns have put back of a line, as the lines of the returns say. -/
def restockedQuantity (s : State) (line : ℕ) (item : SaleItem) : ℤ :=
  ((s.sales.returnItems.filter fun x => x.saleItem = line && x.restocked &&
    (s.sales.returns[x.saleReturn]?).any fun r => r.sale = item.sale).map
      SaleReturnItem.quantity).sum

/-- `_remaining_line_quantity`. -/
def remainingLineQuantity (s : State) (line : ℕ) (item : SaleItem) : ℤ :=
  max (item.quantity - restockedQuantity s line item) 0

/-- `_net_meter`: the metres of a line in proportion to what was not put back of it. -/
def netMeter (s : State) (line : ℕ) (item : SaleItem) : ℤ :=
  if item.quantity ≤ 0 then 0
  else qty (dec (item.fabricMeterUsed.getD 0) * dec (remainingLineQuantity s line item) /
    dec item.quantity)

/-- The lines of live sales that measure fabric in scope. -/
def usesFabric (s : State) (item : SaleItem) : Bool :=
  inFabricScope s item.product item.variant && item.fabricMeterUsed.any (0 < ·) &&
    isLiveSale s item.sale

/-- The lines in scope, with their metres. -/
def usageRows (s : State) : List (FabricKey × ℤ) :=
  (s.sales.items.zipIdx.filter fun e => usesFabric s e.1).map
    fun e => (e.1.fabricKey, netMeter s e.2 e.1)

/-- `_order_count` of the lines in scope. -/
def orderRows (s : State) : List (FabricKey × ℤ) :=
  (s.sales.items.zipIdx.filter fun e => usesFabric s e.1).map
    fun e => (e.1.fabricKey, if 0 < remainingLineQuantity s e.2 e.1 then 1 else 0)

/-- The total of a key. -/
def totalOf (rows : List (FabricKey × ℤ)) (k : FabricKey) : ℤ :=
  ((rows.filter fun e => e.1 = k).map Prod.snd).sum

/-! ## The rows -/

/-- A detail row of `fabric_history`. -/
structure FabricRow where
  key : FabricKey
  item : String
  opening : ℤ
  purchased : ℤ
  used : ℤ
  remaining : ℤ
  orders : ℤ
  deriving DecidableEq, Repr

/-- The row of a key; rows without anything to show are left out. -/
def fabricRow (s : State) (k : FabricKey) : Option FabricRow :=
  if inFabricScope s k.1 k.2 then do
    let product ← s.catalog.products[k.1]?
    let row : FabricRow := {
      key := k
      item := match k.2.bind (s.catalog.variants[·]?) with
        | some variant => s!"{product.name} - {variant.name}"
        | none => product.name
      opening := totalOf (openingRows s) k
      purchased := totalOf (purchaseRows s) k
      used := totalOf (usageRows s) k
      remaining := totalOf (remainingRows s) k
      orders := totalOf (orderRows s) k }
    if row.opening = 0 ∧ row.purchased = 0 ∧ row.used = 0 ∧ row.remaining = 0 ∧ row.orders = 0 then
      none
    else
      some row
  else
    none

/-- The detail rows of `fabric_history` without any filter. -/
def fabricHistory (s : State) : List FabricRow :=
  let keys := (openingRows s ++ purchaseRows s ++ usageRows s ++ remainingRows s).map Prod.fst
  keys.dedup.filterMap (fabricRow s)

/-! ## Reading the totals -/

variable {s : State}

lemma totalOf_map_filter {α : Type} (rows : List α) (p : α → Bool) (key : α → FabricKey)
    (f : α → ℤ) (k : FabricKey) :
    totalOf ((rows.filter p).map fun a => (key a, f a)) k =
      ((rows.filter fun a => p a && key a = k).map f).sum := by
  unfold totalOf
  rw [List.filter_map, List.map_map, List.filter_filter]
  refine congrArg List.sum ?_
  show List.map f _ = _
  refine congrArg (List.map f) (List.filter_congr fun a _ => ?_)
  exact Bool.and_comm _ _

/-- The figures of a row are the totals of its key. -/
lemma fabricRow_eq_some {k : FabricKey} {row : FabricRow} (h : fabricRow s k = some row) :
    inFabricScope s k.1 k.2 = true ∧ row.key = k ∧ row.opening = totalOf (openingRows s) k ∧
      row.purchased = totalOf (purchaseRows s) k ∧ row.used = totalOf (usageRows s) k ∧
      row.remaining = totalOf (remainingRows s) k := by
  unfold fabricRow at h
  split at h
  · rename_i hscope
    obtain ⟨item, -, h⟩ := Option.bind_eq_some_iff.mp h
    simp only [] at h
    split at h
    · exact nomatch h
    · obtain rfl := Option.some.inj h
      exact ⟨hscope, rfl, rfl, rfl, rfl, rfl⟩
  · exact nomatch h

end NexaPos
