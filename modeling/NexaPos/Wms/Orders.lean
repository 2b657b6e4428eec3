import NexaPos.Wms.Models
import Mathlib.Data.List.Sort

/-!
# Workshop orders

Orders are received in batches with a piece count each, the count can be changed while an order
is in process, and orders are finished in batches.  The count may not be set below what some
operation has already recorded for the order.
-/

namespace NexaPos.Wms

open Tx

/-- `normalize_order_reference`. -/
def normalizeOrderReference (value : Text) : Text := (Text.strip value).map Char.toUpper

/-- One row of the form that receives orders. -/
structure OrderRow where
  orderReference : Text
  eligiblePieceCount : RawInt

/-- A row with its reference normalised and its count checked. -/
structure NormalisedOrderRow where
  orderReference : Text
  eligiblePieceCount : ℕ+

/-- One iteration of the loop of `_normalized_order_rows`; a row that is no pair is `none`. -/
def normalisedOrderRow (row : Option OrderRow) : Except PosError NormalisedOrderRow := do
  let row ← found row (.validation "Each order must contain a reference and PCS.")
  let reference := normalizeOrderReference row.orderReference
  require (reference ≠ []) (.validation "Every order requires a reference.")
  let text := String.ofList reference
  let error := PosError.validation
    s!"Eligible PCS for {text} must be a whole number greater than zero."
  let count ← found row.eligiblePieceCount error
  let ⟨hpos⟩ ← requireThat (0 < count.toNat) error
  return { orderReference := reference, eligiblePieceCount := ⟨count.toNat, hpos⟩ }

/-- `", ".join(sorted(references))`. -/
def joinReferences (references : List Text) : String :=
  String.intercalate ", " ((references.map String.ofList).insertionSort (· ≤ ·))

/-- The values that occur more than once. -/
def duplicateReferences (references : List Text) : List Text :=
  (references.filter fun r => 1 < references.count r).dedup

/-- The refusal of a batch that names an order twice. -/
def requireDistinct (references : List Text) : Except PosError Unit := do
  let repeated := joinReferences (duplicateReferences references)
  require references.Nodup (.validation s!"Duplicate references in this batch: {repeated}.")

/-- `_normalized_order_rows`. -/
def normalisedOrderRows (rows : List (Option OrderRow)) :
    Except PosError (List NormalisedOrderRow) := do
  let normalised ← rows.mapM normalisedOrderRow
  requireDistinct (normalised.map (·.orderReference))
  require (normalised ≠ []) (.validation "Enter at least one workshop order.")
  return normalised

/-- The checks of `create_order_batch`, with those of `WmsWorkshopOrder.clean` for a new row. -/
def checkOrderBatch (c : WmsCall) (location : ℕ) (rows : List (Option OrderRow))
    (w : Workshop) : Except PosError (List NormalisedOrderRow) := do
  let rows ← normalisedOrderRows rows
  let row ← found w.locations[location]?
    (.validation "The selected WMS location is unavailable.")
  let access ← requireAccess c
  require (access.canAccessLocation location row)
    (.validation "The selected WMS location is outside your allowed scope.")
  require row.isOpen (.validation "Inactive WMS locations cannot receive new orders.")
  let references := rows.map (·.orderReference)
  let existing := joinReferences
    ((w.orders.map (·.orderReference)).filter fun r => references.contains r)
  require (w.orders.all fun o => !references.contains o.orderReference)
    (.validation s!"Order references already exist: {existing}.")
  require (rows.all fun r => !r.orderReference.contains '\n' && !r.orderReference.contains '\r')
    (.invalidField "order_reference" "Enter one order reference at a time.")
  return rows

/-- `create_order_batch`. -/
def createOrderBatch (c : WmsCall) (location : ℕ) (receivedDate : Date)
    (rows : List (Option OrderRow)) : WmsService Unit := do
  let rows ← reads (checkOrderBatch c location rows)
  modify fun w => { w with
    orders := w.orders ++ rows.map fun r =>
      { location := location
        orderReference := r.orderReference
        eligiblePieceCount := some r.eligiblePieceCount
        receivedDate := receivedDate } }

/-! ## The piece count -/

/-- What an operation has recorded for an order: the quantities of the lines that are not
removed. -/
def recorded (lines : List WmsProductionEntryLine) (order category : ℕ) : ℕ :=
  ((lines.filter fun l => !l.isRemoved && l.order = some order && l.category = category).map
    (·.quantity)).sum

/-- `largest_recorded`: over the operations with lines for the order. -/
def largestRecorded (lines : List WmsProductionEntryLine) (order : ℕ) : ℕ :=
  ((lines.filter fun l => !l.isRemoved && l.order = some order).map
    fun l => recorded lines order l.category).max?.getD 0

/-- `update_order_piece_count`, with the part of `WmsWorkshopOrder.clean` about the count. -/
def checkPieceCount (c : WmsCall) (order : ℕ) (count : RawInt) (w : Workshop) :
    Except PosError ℕ+ := do
  let error := PosError.validation "Eligible PCS must be a whole number greater than zero."
  let count ← found count error
  let ⟨hpos⟩ ← requireThat (0 < count.toNat) error
  let row ← found w.orders[order]?
    (.validation "The workshop order belongs to another business.")
  let location ← found w.locations[row.location]? .notFound
  let access ← requireAccess c
  require (access.canAccessLocation row.location location)
    (.validation "The workshop order is outside your allowed scope.")
  require (row.status = .inProcess)
    (.validation "Eligible PCS can be changed only while an order is In Process.")
  let new : ℕ+ := ⟨count.toNat, hpos⟩
  let largest := largestRecorded w.lines order
  require (row.eligiblePieceCount = some new || largest ≤ new)
    (.invalidField "eligible_piece_count" ("Eligible PCS cannot be below already recorded " ++
      s!"production ({largest} PCS for one operation)."))
  return new

/-- `update_order_piece_count`. -/
def updateOrderPieceCount (c : WmsCall) (order : ℕ) (count : RawInt) : WmsService Unit := do
  let new ← reads (checkPieceCount c order count)
  modify fun w => { w with
    orders := w.orders.modify order ({ · with eligiblePieceCount := some new }) }

/-! ## Finishing -/

/-- `_normalized_references`. -/
def normalisedReferences (references : List Text) : Except PosError (List Text) := do
  let values := (references.map normalizeOrderReference).filter (· ≠ [])
  require (values ≠ []) (.validation "Enter at least one order reference.")
  requireDistinct values
  return values

/-- The order is one of those asked for, in the member's scope. -/
def WmsWorkshopOrder.asked (access : WmsAccess) (references : List Text) (o : WmsWorkshopOrder) :
    Bool :=
  references.contains o.orderReference && access.allowsLocation o.location

/-- The checks of `finish_order_batch`: whose orders, and which, are finished. -/
def checkFinishBatch (c : WmsCall) (finishedDate : Date) (references : List Text)
    (w : Workshop) : Except PosError (WmsAccess × List Text) := do
  let references ← normalisedReferences references
  let access ← requireAccess c
  let orders := w.orders.filter (·.asked access references)
  let unavailable := references.filter fun r => !(orders.map (·.orderReference)).contains r
  require (unavailable = []) (.validation
    s!"Unknown or unavailable order references: {joinReferences unavailable}.")
  let finished := (orders.filter fun o => o.status = .finishedReady).map (·.orderReference)
  require (finished = [])
    (.validation s!"Orders already Finished / Ready: {joinReferences finished}.")
  let early := (orders.filter fun o => !(o.receivedDate ≤ finishedDate)).map (·.orderReference)
  require (early = []) (.validation
    s!"Finished date is before the received date for: {joinReferences early}.")
  return (access, references)

/-- The order is finished. -/
def WmsWorkshopOrder.finish (finishedDate : Date) (o : WmsWorkshopOrder) : WmsWorkshopOrder :=
  { o with status := .finishedReady, finishedDate := some finishedDate }

/-- `finish_order_batch`. -/
def finishOrderBatch (c : WmsCall) (finishedDate : Date) (references : List Text) :
    WmsService Unit := do
  let (access, references) ← reads (checkFinishBatch c finishedDate references)
  modify fun w => { w with
    orders := w.orders.map fun o =>
      if o.asked access references then o.finish finishedDate else o }

/-! ## What an accepted call did -/

lemma recorded_append (lines new : List WmsProductionEntryLine) (order category : ℕ) :
    recorded (lines ++ new) order category =
      recorded lines order category + recorded new order category := by
  unfold recorded
  rw [List.filter_append, List.map_append, List.sum_append]

/-- No operation has recorded more than the largest. -/
lemma recorded_le_largest (lines : List WmsProductionEntryLine) (order category : ℕ) :
    recorded lines order category ≤ largestRecorded lines order := by
  by_cases hany : ∃ l ∈ lines, l.isRemoved = false ∧ l.order = some order ∧ l.category = category
  · obtain ⟨l, hl, hlive, horder, rfl⟩ := hany
    refine List.le_max?_getD_of_mem (List.mem_map.mpr ⟨l, List.mem_filter.mpr ⟨hl, ?_⟩, rfl⟩)
    simp [hlive, horder]
  · have hnone : recorded lines order category = 0 := by
      unfold recorded
      rw [List.filter_eq_nil_iff.mpr]
      · simp
      · intro l hl hkey
        simp only [Bool.and_eq_true, Bool.not_eq_true', decide_eq_true_eq] at hkey
        exact hany ⟨l, hl, hkey.1.1, hkey.1.2, hkey.2⟩
    omega

/-- An accepted count is the old one, or no operation has recorded more. -/
lemma checkPieceCount_ok {c : WmsCall} {order : ℕ} {count : RawInt} {w : Workshop} {new : ℕ+}
    (h : checkPieceCount c order count w = .ok new) :
    ∃ row, w.orders[order]? = some row ∧
      (row.eligiblePieceCount = some new ∨ ∀ category, recorded w.lines order category ≤ new) := by
  unfold checkPieceCount at h
  simp only [except_bind_eq_ok, found_eq_ok, require_eq_ok, Bool.or_eq_true, decide_eq_true_eq,
    pure, Except.pure] at h
  obtain ⟨n, -, hpos, -, row, hrow, -, -, -, -, -, -, -, -, _, hcount, hnew⟩ := h
  obtain rfl := Except.ok.inj hnew
  refine ⟨row, hrow, ?_⟩
  rcases hcount with hsame | hlargest
  · exact .inl hsame
  · refine .inr fun category => ?_
    have := recorded_le_largest w.lines order category
    omega

end NexaPos.Wms
