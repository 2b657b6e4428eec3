import NexaPos.Wms.Orders

/-!
# Production

An entry records what one employee made on one day; its lines say how many pieces of which order
in which operation.  A new entry takes rows that name an order and an operation each.  A
correction replaces the lines of an entry: it comes either as rows, which keep, change, add and
leave out lines, or as a new quantity for every line.  Both check the pieces of the order, a
correction against what the lines of the other entries have recorded.
-/

namespace NexaPos.Wms

open Tx

/-- `_validate_user_access`. -/
def validateUserAccess (c : WmsCall) (location : ℕ) (row : WmsLocation)
    (requireActiveLocation : Bool) (permission : String) : Except PosError Unit := do
  let access ← requireAccess c
  require (access.isActive && access.roleActive)
    (.validation "Active WMS user access is required.")
  require (access.hasPerm permission)
    (.validation s!"WMS permission '{permission}' is required.")
  require (access.allowsLocation location)
    (.validation "The selected WMS location is outside your allowed scope.")
  require (!requireActiveLocation || row.isOpen)
    (.validation "Inactive WMS locations cannot receive new production.")

/-- One row of a production form.  A missing or falsy reference is `none`. -/
structure SubmittedRow where
  lineId : Option ℕ := none
  order : Option ℕ
  assignment : Option ℕ
  quantity : RawInt

/-- `_cap_error`. -/
def capError (order : WmsWorkshopOrder) (pcs : ℕ+) (category : WmsProductionCategory)
    (recorded requested : ℕ) : PosError :=
  let reference := String.ofList order.orderReference
  let count : ℕ := pcs
  .validation ("Production quantity exceeded.\n" ++
    s!"Order: {reference}\n" ++
    s!"Operation: {category.name}\n" ++
    s!"Order PCS: {count}\n" ++
    s!"Already recorded: {recorded} PCS\n" ++
    s!"Requested additional: {requested} PCS")

/-- The refusal of an order and operation that are in the entry twice. -/
def duplicateError : PosError :=
  .validation ("This Workshop Order and operation already exist in this production " ++
    "record. Update the existing row instead.")

/-- The checks every new use of an order makes; the piece count of the order. -/
def checkReceiving (w : Workshop) (order : WmsWorkshopOrder) : Except PosError ℕ+ := do
  require (order.status = .inProcess)
    (.validation "Only In Process Workshop Orders can receive new production.")
  let location ← found w.locations[order.location]? .notFound
  require location.isOpen
    (.validation "Inactive WMS locations cannot receive new production.")
  let reference := String.ofList order.orderReference
  found order.eligiblePieceCount
    (.validation s!"Workshop Order {reference} requires eligible PCS before production.")

/-- A new line of an entry. -/
def newLine (entry : ℕ) (order : Option ℕ) (assignmentId : ℕ)
    (assignment : WmsEmployeeCategoryAssignment) (category : WmsProductionCategory)
    (quantity : ℕ) : WmsProductionEntryLine where
  entry := entry
  order := order
  assignment := assignmentId
  category := assignment.category
  categoryNameSnapshot := category.name
  categoryCodeSnapshot := category.code
  quantity := quantity

/-! ## New entries -/

/-- A row whose order and operation were looked up. -/
structure ResolvedRow where
  orderId : ℕ
  order : WmsWorkshopOrder
  assignmentId : ℕ
  assignment : WmsEmployeeCategoryAssignment
  category : WmsProductionCategory
  quantity : ℕ

namespace ResolvedRow

/-- The order and the operation. -/
def combination (r : ResolvedRow) : ℕ × ℕ := (r.orderId, r.assignment.category)

/-- The line a row becomes. -/
def line (entry : ℕ) (r : ResolvedRow) : WmsProductionEntryLine :=
  newLine entry (some r.orderId) r.assignmentId r.assignment r.category r.quantity

end ResolvedRow

/-- The first pass of `_resolve_submitted_rows` over a row; a row that is no `dict` is `none`. -/
def prepareRow (row : Option SubmittedRow) : Except PosError (ℕ × ℕ × ℕ) := do
  let row ← found row
    (.validation "Each production row must contain Order, Operation, and PCS.")
  let quantity ← validateQuantity row.quantity "Production PCS" true
  let order ← found row.order (.validation "Every production row requires a Workshop Order.")
  let assignment ← found row.assignment
    (.validation "Every production row requires a Operation.")
  return (order, assignment, quantity)

/-- The second pass of `_resolve_submitted_rows` over a row. -/
def resolveRow (w : Workshop) (employee : ℕ) (prepared : ℕ × ℕ × ℕ) :
    Except PosError ResolvedRow := do
  let (orderId, assignmentId, quantity) := prepared
  let order ← found w.orders[orderId]?
    (.validation "The selected Workshop Order is unavailable.")
  let assignment ← found w.assignments[assignmentId]?
    (.validation "The selected production operation is unavailable.")
  require (assignment.employee = employee)
    (.validation "The selected operation is not assigned to this employee.")
  let category ← found w.categories[assignment.category]? .notFound
  require (assignment.isActive && category.isActive)
    (.validation "Only active employee operations can receive production.")
  return {
    orderId := orderId
    order := order
    assignmentId := assignmentId
    assignment := assignment
    category := category
    quantity := quantity }

/-- `_resolve_submitted_rows`. -/
def resolveSubmittedRows (w : Workshop) (employee : ℕ) (rows : List (Option SubmittedRow)) :
    Except PosError (List ResolvedRow) := do
  let prepared ← rows.mapM prepareRow
  require (!prepared.isEmpty) (.validation "Add at least one production row.")
  prepared.mapM (resolveRow w employee)

/-- What the rows together ask for of a combination. -/
def requested (rows : List ResolvedRow) (combination : ℕ × ℕ) : ℕ :=
  ((rows.filter fun r => r.combination = combination).map (·.quantity)).sum

/-- The first loop of `_validate_new_order_rows`: the row with the pieces of its order. -/
def checkNewOrder (w : Workshop) (location : ℕ) (row : ResolvedRow) :
    Except PosError (ResolvedRow × ℕ+) := do
  require (row.order.location = location)
    (.validation "Workshop Order location must match the employee location.")
  return (row, ← checkReceiving w row.order)

/-- The second loop of `_validate_new_order_rows`. -/
def checkNewCap (w : Workshop) (rows : List ResolvedRow) (checked : ResolvedRow × ℕ+) :
    Except PosError Unit := do
  let (row, pcs) := checked
  let already := recorded w.lines row.orderId row.assignment.category
  let asked := requested rows row.combination
  require (already + asked ≤ pcs) (capError row.order pcs row.category already asked)

/-- The checks of `create_production_entry`. -/
def checkProductionEntry (c : WmsCall) (location employee : ℕ) (productionDate : Date)
    (dailyTotalPieces : RawInt) (rows : List (Option SubmittedRow)) (w : Workshop) :
    Except PosError (ℕ × List ResolvedRow) := do
  let total ← validateQuantity dailyTotalPieces "Daily Total Pieces" false
  let missing := PosError.validation "The employee or WMS location belongs to another business."
  let staff ← found w.employees[employee]? missing
  let place ← found w.locations[location]? missing
  validateUserAccess c location place true "wms.production.manage"
  require (staff.location = location)
    (.validation "Production location must match the employee's WMS location.")
  require staff.isActive (.validation "Inactive employees cannot receive new production.")
  let rows ← resolveSubmittedRows w employee rows
  require (rows.map (·.combination)).Nodup duplicateError
  let checked ← rows.mapM (checkNewOrder w location)
  let _ ← checked.mapM (checkNewCap w rows)
  require (!w.entries.any fun e => e.employee = employee && e.productionDate = productionDate)
    (.invalidField "__all__" ("Wms production entry with this Business, Employee and " ++
      "Production date already exists."))
  return (total, rows)

/-- The rows a new entry is stored with. -/
def addEntry (location employee : ℕ) (productionDate : Date) (total : ℕ) (notes : Text)
    (rows : List ResolvedRow) (w : Workshop) : Workshop :=
  { w with
    entries := w.entries ++ [{
      location := location
      employee := employee
      productionDate := productionDate
      dailyTotalPieces := total
      notes := Text.strip notes }]
    lines := w.lines ++ rows.map (·.line w.entries.length) }

/-- `create_production_entry`. -/
def createProductionEntry (c : WmsCall) (location employee : ℕ) (productionDate : Date)
    (dailyTotalPieces : RawInt) (notes : Text) (rows : List (Option SubmittedRow)) :
    WmsService Unit := do
  let (total, rows) ← reads
    (checkProductionEntry c location employee productionDate dailyTotalPieces rows)
  modify (addEntry location employee productionDate total notes rows)

/-! ## Corrections -/

/-- The lines of an entry that are not removed, with their keys. -/
def liveLines (w : Workshop) (entry : ℕ) : List (ℕ × WmsProductionEntryLine) :=
  (childrenOf (·.entry) w.lines entry).filter fun e => !e.2.isRemoved

/-- A row of a correction; `line` is the line it rewrites. -/
structure CorrectedRow where
  line : Option (ℕ × WmsProductionEntryLine)
  order : Option (ℕ × WmsWorkshopOrder)
  assignmentId : ℕ
  assignment : WmsEmployeeCategoryAssignment
  category : WmsProductionCategory
  quantity : ℕ

/-- The order and the operation of a line. -/
def WmsProductionEntryLine.combination (l : WmsProductionEntryLine) : Option (ℕ × ℕ) :=
  l.order.map fun order => (order, l.category)

namespace CorrectedRow

/-- The key of the line the row rewrites. -/
def lineKey (r : CorrectedRow) : Option ℕ := r.line.map Prod.fst

/-- The order and the operation of a row. -/
def combination (r : CorrectedRow) : Option (ℕ × ℕ) :=
  r.order.map fun order => (order.1, r.assignment.category)

/-- The line the row rewrites, in its new form. -/
def rewrite (r : CorrectedRow) (l : WmsProductionEntryLine) : WmsProductionEntryLine :=
  { l with
    order := r.order.map Prod.fst
    assignment := r.assignmentId
    category := r.assignment.category
    categoryNameSnapshot :=
      if l.assignment ≠ r.assignmentId then r.category.name else l.categoryNameSnapshot
    categoryCodeSnapshot :=
      if l.assignment ≠ r.assignmentId then r.category.code else l.categoryCodeSnapshot
    quantity := r.quantity }

/-- The line a row stands for after the correction. -/
def result (entry : ℕ) (r : CorrectedRow) : WmsProductionEntryLine :=
  match r.line with
  | some (_, l) => r.rewrite l
  | none =>
    newLine entry (r.order.map Prod.fst) r.assignmentId r.assignment r.category r.quantity

end CorrectedRow

/-- A row of a correction after the first loop of `_resolve_corrected_rows`. -/
structure PreparedCorrection where
  line : Option (ℕ × WmsProductionEntryLine)
  order : Option ℕ
  assignment : ℕ
  quantity : ℕ

/-- An iteration of the first loop of `_resolve_corrected_rows`: the rows prepared so far, and
the next one. -/
def prepareCorrection (lines : List (ℕ × WmsProductionEntryLine))
    (done : List PreparedCorrection) (row : Option SubmittedRow) :
    Except PosError (List PreparedCorrection) := do
  let row ← found row
    (.validation "Each production row must contain Workshop Order, Operation, and PCS.")
  let line := row.lineId.bind fun id => lines.find? fun e => e.1 = id
  require (row.lineId = none || line.isSome)
    (.validation "A submitted production row is unavailable. Refresh and try again.")
  require (line = none || !(done.map fun p => p.line.map Prod.fst).contains (line.map Prod.fst))
    (.validation "Submit each saved production row at most once.")
  let quantity ← validateQuantity row.quantity "Production PCS" true
  let assignment ← found row.assignment
    (.validation "Every production row requires a Operation.")
  return done ++ [{
    line := line
    order := row.order
    assignment := assignment
    quantity := quantity }]

/-- The order a row or a line names, if it names one. -/
def linkedOrder (w : Workshop) (order : Option ℕ) (missing : PosError) :
    Except PosError (Option (ℕ × WmsWorkshopOrder)) :=
  match order with
  | none => .ok none
  | some id => do
    let row ← found w.orders[id]? missing
    return some (id, row)

/-- An iteration of the second loop of `_resolve_corrected_rows`. -/
def resolveCorrection (w : Workshop) (entry : WmsProductionEntry) (p : PreparedCorrection) :
    Except PosError CorrectedRow := do
  let order ← linkedOrder w p.order
    (.validation "The selected Workshop Order is unavailable.")
  let assignment ← found w.assignments[p.assignment]?
    (.validation "The selected production operation is unavailable.")
  require (p.line.isSome || order.isSome)
    (.validation "Every new production row requires a Workshop Order.")
  require (order.isSome || p.line.all fun e => e.2.order = none)
    (.validation "A linked Workshop Order cannot be cleared.")
  require (assignment.employee = entry.employee)
    (.validation "The selected operation is not assigned to this employee.")
  let category ← found w.categories[assignment.category]? .notFound
  let assignmentChanged := p.line.all fun e => e.2.assignment ≠ p.assignment
  require (!assignmentChanged || assignment.isActive && category.isActive)
    (.validation "Only active employee operations can receive production.")
  match order with
  | none => pure ()
  | some (id, row) => do
    require (row.location = entry.location)
      (.validation "Workshop Order location must match the employee location.")
    let orderChanged := p.line.all fun e => e.2.order ≠ some id
    if orderChanged then
      let _ ← checkReceiving w row
      pure ()
    else pure ()
  return {
    line := p.line
    order := order
    assignmentId := p.assignment
    assignment := assignment
    category := category
    quantity := p.quantity }

/-- The last loop of `_resolve_corrected_rows`: a combination that occurs twice is accepted only
from the line that had it. -/
def distinctCombinations (rows : List CorrectedRow) : Bool :=
  let combinations := rows.filterMap CorrectedRow.combination
  rows.all fun r => r.combination.all fun k =>
    combinations.count k ≤ 1 || (r.line.bind fun e => e.2.combination) = some k

/-- `_resolve_corrected_rows`. -/
def resolveCorrectedRows (w : Workshop) (entry : WmsProductionEntry)
    (lines : List (ℕ × WmsProductionEntryLine)) (rows : List (Option SubmittedRow)) :
    Except PosError (List CorrectedRow) := do
  let prepared ← rows.foldlM (prepareCorrection lines) []
  let resolved ← prepared.mapM (resolveCorrection w entry)
  require (distinctCombinations resolved) duplicateError
  return resolved

/-- A line with a new quantity. -/
def requantify (w : Workshop) (quantities : List (ℕ × RawInt))
    (e : ℕ × WmsProductionEntryLine) : Except PosError CorrectedRow := do
  let quantity ← validateQuantity ((quantities.lookup e.1).getD none) "Production PCS" false
  let order ← linkedOrder w e.2.order .notFound
  let assignment ← found w.assignments[e.2.assignment]? .notFound
  let category ← found w.categories[assignment.category]? .notFound
  return {
    line := some e
    order := order
    assignmentId := e.2.assignment
    assignment := assignment
    category := category
    quantity := quantity }

/-- The rows of a correction that comes as quantities: one for each line, and no other. -/
def quantifiedRows (w : Workshop) (lines : List (ℕ × WmsProductionEntryLine))
    (quantities : List (ℕ × RawInt)) : Except PosError (List CorrectedRow) := do
  let submitted := quantities.map Prod.fst
  let expected := lines.map Prod.fst
  require (submitted.all expected.contains && expected.all submitted.contains)
    (.validation "Submit every saved production row exactly once.")
  lines.mapM (requantify w quantities)

/-- What the rows of a correction record for a combination. -/
def proposed (rows : List CorrectedRow) (combination : ℕ × ℕ) : ℕ :=
  ((rows.filter fun r => r.combination = some combination).map (·.quantity)).sum

/-- What they record for an order. -/
def proposedForOrder (rows : List CorrectedRow) (order : ℕ) : ℕ :=
  ((rows.filter fun r => r.order.map Prod.fst = some order).map (·.quantity)).sum

/-- What lines have recorded for an order. -/
def recordedForOrder (lines : List WmsProductionEntryLine) (order : ℕ) : ℕ :=
  ((lines.filter fun l => l.order = some order).map (·.quantity)).sum

/-- The lines of a table without those with the given keys. -/
def linesExcept (lines : List WmsProductionEntryLine) (keys : List ℕ) :
    List WmsProductionEntryLine :=
  (lines.zipIdx.filter fun e => !keys.contains e.2).map Prod.fst

/-- `_validate_corrected_caps`, for one row. -/
def checkCorrectedCap (w : Workshop) (originals : List (ℕ × WmsProductionEntryLine))
    (rows : List CorrectedRow) (row : CorrectedRow) : Except PosError Unit := do
  let unavailable := PosError.validation "The linked Workshop Order PCS is unavailable."
  match row.order with
  | none => return ()
  | some (id, _) =>
    let order ← found w.orders[id]? unavailable
    let category := row.assignment.category
    let asked := proposed rows (id, category)
    let already := recorded (linesExcept w.lines (originals.map Prod.fst)) id category
    match order.eligiblePieceCount with
    | none =>
      -- an order from before the counts: its production may be moved around, not raised
      require (asked ≤ recorded (originals.map Prod.snd) id category ||
        proposedForOrder rows id ≤ recordedForOrder (originals.map Prod.snd) id) unavailable
    | some pcs =>
      require (already + asked ≤ pcs) (capError order pcs row.category already asked)

/-- An accepted correction: the columns of the entry, and the rows. -/
structure Correction where
  entry : WmsProductionEntry
  originals : List (ℕ × WmsProductionEntryLine)
  rows : List CorrectedRow

/-- The rows of a correction, in the form it came in. -/
def correctedRows (w : Workshop) (entry : WmsProductionEntry)
    (originals : List (ℕ × WmsProductionEntryLine))
    (productionRows : Option (List (Option SubmittedRow)))
    (lineQuantities : Option (List (ℕ × RawInt))) : Except PosError (List CorrectedRow) :=
  match productionRows, lineQuantities with
  | some rows, _ => resolveCorrectedRows w entry originals rows
  | none, some quantities => quantifiedRows w originals quantities
  | none, none => .error (.validation "Submit the corrected production rows.")

/-- The checks of `correct_production_entry`. -/
def checkCorrection (c : WmsCall) (entry : ℕ) (dailyTotalPieces : RawInt) (notes : Text)
    (productionRows : Option (List (Option SubmittedRow)))
    (lineQuantities : Option (List (ℕ × RawInt))) (correctionReason : Text) (w : Workshop) :
    Except PosError Correction := do
  let reason := Text.strip correctionReason
  require (reason ≠ []) (.validation "A correction reason is required.")
  let total ← validateQuantity dailyTotalPieces "Daily Total Pieces" false
  let row ← found w.entries[entry]?
    (.validation "The production entry belongs to another business.")
  let location ← found w.locations[row.location]? .notFound
  validateUserAccess c row.location location false "wms.production.correct"
  let originals := liveLines w entry
  let rows ← correctedRows w row originals productionRows lineQuantities
  let _ ← rows.mapM (checkCorrectedCap w originals rows)
  return {
    entry := { row with
      dailyTotalPieces := total
      notes := Text.strip notes
      isCorrected := true
      correctionReason := reason }
    originals := originals
    rows := rows }

/-- An iteration of the loop that saves the rows of a correction. -/
def saveCorrectedRow (entry : ℕ) (lines : List WmsProductionEntryLine) (row : CorrectedRow) :
    List WmsProductionEntryLine :=
  match row.line with
  | some (id, _) => lines.modify id row.rewrite
  | none => lines ++ [row.result entry]

/-- A line is marked as removed. -/
def removeLine (lines : List WmsProductionEntryLine) (e : ℕ × WmsProductionEntryLine) :
    List WmsProductionEntryLine :=
  lines.modify e.1 ({ · with isRemoved := true })

/-- The lines after a correction: the rows are saved, and the lines none of them kept are
removed. -/
def correctedLines (entry : ℕ) (originals : List (ℕ × WmsProductionEntryLine))
    (rows : List CorrectedRow) (lines : List WmsProductionEntryLine) :
    List WmsProductionEntryLine :=
  let retained := rows.filterMap CorrectedRow.lineKey
  let dropped := originals.filter fun e => !retained.contains e.1
  dropped.foldl removeLine (rows.foldl (saveCorrectedRow entry) lines)

/-- `correct_production_entry`. -/
def correctProductionEntry (c : WmsCall) (entry : ℕ) (dailyTotalPieces : RawInt) (notes : Text)
    (productionRows : Option (List (Option SubmittedRow)))
    (lineQuantities : Option (List (ℕ × RawInt))) (correctionReason : Text) :
    WmsService Unit := do
  let correction ← reads (checkCorrection c entry dailyTotalPieces notes productionRows
    lineQuantities correctionReason)
  modify fun w => { w with
    entries := w.entries.set entry correction.entry
    lines := correctedLines entry correction.originals correction.rows w.lines }

/-! ## What an accepted call did -/

/-- The pieces of an order that may be produced for. -/
lemma checkReceiving_ok {w : Workshop} {order : WmsWorkshopOrder} {pcs : ℕ+}
    (h : checkReceiving w order = .ok pcs) : order.eligiblePieceCount = some pcs := by
  unfold checkReceiving at h
  simp only [except_bind_eq_ok, found_eq_ok] at h
  obtain ⟨-, -, location, -, -, -, h⟩ := h
  exact h

/-- A row of an accepted new entry. -/
structure ResolvedRow.Accepted (w : Workshop) (employee : ℕ) (rows : List ResolvedRow)
    (r : ResolvedRow) : Prop where
  order : w.orders[r.orderId]? = some r.order
  assignment : w.assignments[r.assignmentId]? = some r.assignment
  own : r.assignment.employee = employee
  cap : ∃ pcs : ℕ+, r.order.eligiblePieceCount = some pcs ∧
    recorded w.lines r.orderId r.assignment.category + requested rows r.combination ≤ pcs

lemma resolveRow_ok {w : Workshop} {employee : ℕ} {p : ℕ × ℕ × ℕ} {r : ResolvedRow}
    (h : resolveRow w employee p = .ok r) :
    w.orders[r.orderId]? = some r.order ∧ w.assignments[r.assignmentId]? = some r.assignment ∧
      r.assignment.employee = employee := by
  unfold resolveRow at h
  simp only [except_bind_eq_ok, found_eq_ok, require_eq_ok, decide_eq_true_eq, pure, Except.pure,
    Except.ok.injEq] at h
  obtain ⟨order, horder, assignment, hassignment, -, hown, category, -, -, -, rfl⟩ := h
  exact ⟨horder, hassignment, hown⟩

lemma checkProductionEntry_ok {c : WmsCall} {location employee : ℕ} {date : Date}
    {daily : RawInt} {submitted : List (Option SubmittedRow)} {w : Workshop} {total : ℕ}
    {rows : List ResolvedRow}
    (h : checkProductionEntry c location employee date daily submitted w = .ok (total, rows)) :
    (rows.map (·.combination)).Nodup ∧ (∀ r ∈ rows, r.Accepted w employee rows) ∧
      ∀ e ∈ w.entries, e.employee = employee → e.productionDate ≠ date := by
  unfold checkProductionEntry at h
  simp only [except_bind_eq_ok, require_eq_ok, decide_eq_true_eq, pure, Except.pure,
    Except.ok.injEq, Prod.mk.injEq] at h
  obtain ⟨_, -, _, -, _, -, -, -, -, -, -, -, rows', hrows, -, hnodup, checked, hchecked, _,
    hcaps, -, hfree, -, rfl⟩ := h
  refine ⟨hnodup, ?_, ?_⟩
  · intro r hr
    unfold resolveSubmittedRows at hrows
    simp only [except_bind_eq_ok] at hrows
    obtain ⟨prepared, -, -, -, hresolved⟩ := hrows
    obtain ⟨p, -, hp⟩ := exists_of_forall₂_mem (mapM_eq_ok.mp hresolved) hr
    obtain ⟨horder, hassignment, hown⟩ := resolveRow_ok hp
    refine ⟨horder, hassignment, hown, ?_⟩
    obtain ⟨pair, hpair, hcheck⟩ := exists_of_forall₂_mem (mapM_eq_ok.mp hchecked).flip hr
    obtain ⟨_, _, hcap⟩ := exists_of_forall₂_mem (mapM_eq_ok.mp hcaps).flip hpair
    unfold checkNewOrder at hcheck
    simp only [except_bind_eq_ok, pure, Except.pure, Except.ok.injEq] at hcheck
    obtain ⟨-, -, pcs, hpcs, rfl⟩ := hcheck
    refine ⟨pcs, checkReceiving_ok hpcs, ?_⟩
    unfold checkNewCap at hcap
    simpa using hcap
  · intro e he hemployee hdate
    simp only [Bool.not_eq_true', List.any_eq_false, Bool.and_eq_true, decide_eq_true_eq] at hfree
    exact hfree e he ⟨hemployee, hdate⟩

/-- The rows of an accepted correction. -/
structure CorrectionRows (w : Workshop) (entry : WmsProductionEntry)
    (originals : List (ℕ × WmsProductionEntryLine)) (rows : List CorrectedRow) : Prop where
  /-- A row rewrites a line of the entry, -/
  line : ∀ r ∈ rows, ∀ e, r.line = some e → e ∈ originals
  /-- and no two the same one. -/
  distinct : (rows.filterMap CorrectedRow.lineKey).Nodup
  order : ∀ r ∈ rows, ∀ o, r.order = some o → w.orders[o.1]? = some o.2
  assignment : ∀ r ∈ rows, w.assignments[r.assignmentId]? = some r.assignment
  /-- A combination occurs once, or in the line it comes from. -/
  combination : ∀ r ∈ rows, ∀ k, r.combination = some k →
    (rows.filterMap CorrectedRow.combination).count k ≤ 1 ∨
      ∃ e, r.line = some e ∧ (e.2.combination = some k ∨
        e.2.order = some k.1 ∧ e.2.assignment = r.assignmentId)

lemma linkedOrder_ok {w : Workshop} {order : Option ℕ} {e : PosError}
    {r : Option (ℕ × WmsWorkshopOrder)} (h : linkedOrder w order e = .ok r) :
    r.map Prod.fst = order ∧ ∀ o, r = some o → w.orders[o.1]? = some o.2 := by
  unfold linkedOrder at h
  cases order with
  | none =>
    obtain rfl := Except.ok.inj h
    exact ⟨rfl, fun o ho => nomatch ho⟩
  | some id =>
    simp only [except_bind_eq_ok, found_eq_ok, pure, Except.pure, Except.ok.injEq] at h
    obtain ⟨row, hrow, rfl⟩ := h
    refine ⟨rfl, fun o ho => ?_⟩
    obtain rfl := Option.some.inj ho
    exact hrow

/-- The lines the prepared rows name are lines of the entry, each at most once. -/
def PreparedFrom (originals : List (ℕ × WmsProductionEntryLine))
    (prepared : List PreparedCorrection) : Prop :=
  (∀ p ∈ prepared, ∀ e, p.line = some e → e ∈ originals) ∧
    (prepared.filterMap fun p => p.line.map Prod.fst).Nodup

lemma prepareCorrection_ok {originals : List (ℕ × WmsProductionEntryLine)}
    {done prepared : List PreparedCorrection} {row : Option SubmittedRow}
    (h : prepareCorrection originals done row = .ok prepared)
    (hdone : PreparedFrom originals done) : PreparedFrom originals prepared := by
  unfold prepareCorrection at h
  simp only [except_bind_eq_ok, found_eq_ok, require_eq_ok, pure, Except.pure,
    Except.ok.injEq] at h
  obtain ⟨row, -, -, -, -, hnew, quantity, -, assignment, -, rfl⟩ := h
  obtain ⟨hlines, hnodup⟩ := hdone
  constructor
  · intro p hp e he
    rcases List.mem_append.mp hp with hp | hp
    · exact hlines p hp e he
    · obtain rfl := List.mem_singleton.mp hp
      obtain ⟨id, -, hfind⟩ := Option.bind_eq_some_iff.mp he
      exact List.mem_of_find?_eq_some hfind
  · rw [List.filterMap_append, List.filterMap_cons, List.filterMap_nil]
    cases hline : row.lineId.bind fun id => originals.find? fun e => e.1 = id with
    | none => simpa using hnodup
    | some e =>
      rw [Option.map_some, List.nodup_append]
      refine ⟨hnodup, List.nodup_singleton _, ?_⟩
      intro key hkey other hother
      obtain rfl := List.mem_singleton.mp hother
      rintro rfl
      obtain ⟨p, hp, hpkey⟩ := List.mem_filterMap.mp hkey
      have hfresh : ¬ (done.map fun p => p.line.map Prod.fst).contains (some e.1) = true := by
        simpa [hline] using hnew
      exact hfresh (List.contains_iff_mem.mpr (List.mem_map.mpr ⟨p, hp, hpkey⟩))

lemma foldlM_prepareCorrection_ok {originals : List (ℕ × WmsProductionEntryLine)}
    {done prepared : List PreparedCorrection} {rows : List (Option SubmittedRow)}
    (h : rows.foldlM (prepareCorrection originals) done = .ok prepared)
    (hdone : PreparedFrom originals done) : PreparedFrom originals prepared := by
  induction rows generalizing done with
  | nil =>
    obtain rfl := Except.ok.inj h
    exact hdone
  | cons row rows ih =>
    rw [List.foldlM_cons, except_bind_eq_ok] at h
    obtain ⟨next, hnext, hrest⟩ := h
    exact ih hrest (prepareCorrection_ok hnext hdone)

lemma resolveCorrection_ok {w : Workshop} {entry : WmsProductionEntry} {p : PreparedCorrection}
    {r : CorrectedRow} (h : resolveCorrection w entry p = .ok r) :
    r.line = p.line ∧ (∀ o, r.order = some o → w.orders[o.1]? = some o.2) ∧
      w.assignments[r.assignmentId]? = some r.assignment := by
  unfold resolveCorrection at h
  simp only [except_bind_eq_ok, found_eq_ok] at h
  obtain ⟨order, horder, assignment, hassignment, -, -, -, -, -, -, category, -, -, -, h⟩ := h
  obtain ⟨-, hlinked⟩ := linkedOrder_ok horder
  cases order with
  | none =>
    obtain rfl := Except.ok.inj h
    refine ⟨rfl, ?_, hassignment⟩
    intro o ho
    cases ho
  | some o =>
    simp only [except_bind_eq_ok] at h
    obtain ⟨-, -, h⟩ := h
    split at h
    · simp only [except_bind_eq_ok] at h
      obtain ⟨-, -, h⟩ := h
      obtain rfl := Except.ok.inj h
      exact ⟨rfl, hlinked, hassignment⟩
    · obtain rfl := Except.ok.inj h
      exact ⟨rfl, hlinked, hassignment⟩

lemma resolveCorrectedRows_ok {w : Workshop} {entry : WmsProductionEntry}
    {originals : List (ℕ × WmsProductionEntryLine)} {submitted : List (Option SubmittedRow)}
    {rows : List CorrectedRow}
    (h : resolveCorrectedRows w entry originals submitted = .ok rows) :
    CorrectionRows w entry originals rows := by
  unfold resolveCorrectedRows at h
  simp only [except_bind_eq_ok, require_eq_ok, pure, Except.pure, Except.ok.injEq] at h
  obtain ⟨prepared, hprepared, rows', hresolved, -, hdistinct, rfl⟩ := h
  have hfrom := foldlM_prepareCorrection_ok hprepared ⟨by simp, by simp⟩
  have hrows := mapM_eq_ok.mp hresolved
  have hlines : rows'.map (·.line) = prepared.map (·.line) := by
    clear hprepared hfrom hdistinct hresolved
    induction hrows with
    | nil => rfl
    | cons hr _ ih => rw [List.map_cons, List.map_cons, ih, (resolveCorrection_ok hr).1]
  have hkeys : rows'.filterMap CorrectedRow.lineKey =
      prepared.filterMap fun p => p.line.map Prod.fst := by
    have := congrArg (List.filterMap fun line => line.map Prod.fst) hlines
    rwa [List.filterMap_map, List.filterMap_map] at this
  refine ⟨?_, ?_, ?_, ?_, ?_⟩
  · intro r hr e he
    obtain ⟨p, hp, hpr⟩ := exists_of_forall₂_mem hrows hr
    exact hfrom.1 p hp e ((resolveCorrection_ok hpr).1 ▸ he)
  · rw [hkeys]
    exact hfrom.2
  · intro r hr
    obtain ⟨p, -, hpr⟩ := exists_of_forall₂_mem hrows hr
    exact (resolveCorrection_ok hpr).2.1
  · intro r hr
    obtain ⟨p, -, hpr⟩ := exists_of_forall₂_mem hrows hr
    exact (resolveCorrection_ok hpr).2.2
  · intro r hr k hk
    unfold distinctCombinations at hdistinct
    have hrow := List.all_eq_true.mp hdistinct r hr
    rw [hk, Option.all_some, Bool.or_eq_true, decide_eq_true_eq, decide_eq_true_eq,
      Option.bind_eq_some_iff] at hrow
    rcases hrow with hcount | ⟨e, he, hek⟩
    · exact .inl hcount
    · exact .inr ⟨e, he, .inl hek⟩

lemma requantify_ok {w : Workshop} {quantities : List (ℕ × RawInt)}
    {e : ℕ × WmsProductionEntryLine} {r : CorrectedRow}
    (h : requantify w quantities e = .ok r) :
    r.line = some e ∧ r.order.map Prod.fst = e.2.order ∧ r.assignmentId = e.2.assignment ∧
      (∀ o, r.order = some o → w.orders[o.1]? = some o.2) ∧
      w.assignments[r.assignmentId]? = some r.assignment := by
  unfold requantify at h
  simp only [except_bind_eq_ok, found_eq_ok, pure, Except.pure, Except.ok.injEq] at h
  obtain ⟨quantity, -, order, horder, assignment, hassignment, category, -, rfl⟩ := h
  obtain ⟨hsame, hlinked⟩ := linkedOrder_ok horder
  exact ⟨rfl, hsame, rfl, hlinked, hassignment⟩

lemma quantifiedRows_ok {w : Workshop} {entry : WmsProductionEntry}
    {originals : List (ℕ × WmsProductionEntryLine)} {quantities : List (ℕ × RawInt)}
    {rows : List CorrectedRow} (hkeys : (originals.map Prod.fst).Nodup)
    (h : quantifiedRows w originals quantities = .ok rows) :
    CorrectionRows w entry originals rows := by
  unfold quantifiedRows at h
  simp only [except_bind_eq_ok] at h
  obtain ⟨-, -, h⟩ := h
  have hrows := mapM_eq_ok.mp h
  have hlines : rows.filterMap CorrectedRow.lineKey = originals.map Prod.fst := by
    clear hkeys h
    induction hrows with
    | nil => rfl
    | cons hr _ ih =>
      have hkey := congrArg (Option.map Prod.fst) (requantify_ok hr).1
      rw [List.filterMap_cons_some (f := CorrectedRow.lineKey) hkey, List.map_cons, ih]
  refine ⟨?_, ?_, ?_, ?_, ?_⟩
  · intro r hr e he
    obtain ⟨e', he', hr'⟩ := exists_of_forall₂_mem hrows hr
    rw [(requantify_ok hr').1] at he
    obtain rfl := Option.some.inj he
    exact he'
  · rw [hlines]
    exact hkeys
  · intro r hr
    obtain ⟨e, -, hr'⟩ := exists_of_forall₂_mem hrows hr
    exact (requantify_ok hr').2.2.2.1
  · intro r hr
    obtain ⟨e, -, hr'⟩ := exists_of_forall₂_mem hrows hr
    exact (requantify_ok hr').2.2.2.2
  · intro r hr k hk
    obtain ⟨e, -, hr'⟩ := exists_of_forall₂_mem hrows hr
    obtain ⟨hline, horder, hassignment, -, -⟩ := requantify_ok hr'
    refine .inr ⟨e, hline, .inr ⟨?_, hassignment.symm⟩⟩
    unfold CorrectedRow.combination at hk
    obtain ⟨o, ho, rfl⟩ := Option.map_eq_some_iff.mp hk
    rw [← horder, ho]
    rfl

lemma nodup_keys_liveLines (w : Workshop) (entry : ℕ) :
    ((liveLines w entry).map Prod.fst).Nodup :=
  (nodup_keys_childrenOf _ _ _).sublist (List.filter_sublist.map _)

lemma mem_liveLines {w : Workshop} {entry : ℕ} {e : ℕ × WmsProductionEntryLine} :
    e ∈ liveLines w entry ↔
      w.lines[e.1]? = some e.2 ∧ e.2.entry = entry ∧ e.2.isRemoved = false := by
  unfold liveLines
  rw [List.mem_filter, mem_childrenOf, Bool.not_eq_true', and_assoc]

/-- What an accepted correction found. -/
structure Correction.Accepted (w : Workshop) (entry : ℕ) (row : WmsProductionEntry)
    (x : Correction) : Prop where
  found : w.entries[entry]? = some row
  location : x.entry.location = row.location
  employee : x.entry.employee = row.employee
  date : x.entry.productionDate = row.productionDate
  originals : x.originals = liveLines w entry
  rows : CorrectionRows w row x.originals x.rows
  cap : ∀ r ∈ x.rows, checkCorrectedCap w x.originals x.rows r = .ok ()

lemma checkCorrection_ok {c : WmsCall} {entry : ℕ} {daily : RawInt} {notes : Text}
    {submitted : Option (List (Option SubmittedRow))} {quantities : Option (List (ℕ × RawInt))}
    {reason : Text} {w : Workshop} {x : Correction}
    (h : checkCorrection c entry daily notes submitted quantities reason w = .ok x) :
    ∃ row, x.Accepted w entry row := by
  unfold checkCorrection at h
  simp only [except_bind_eq_ok, found_eq_ok, pure, Except.pure, Except.ok.injEq] at h
  obtain ⟨-, -, total, -, row, hrow, location, -, -, -, rows, hrows, _, hcaps, rfl⟩ := h
  refine ⟨row, hrow, rfl, rfl, rfl, rfl, ?_, ?_⟩
  · unfold correctedRows at hrows
    split at hrows
    · exact resolveCorrectedRows_ok hrows
    · exact quantifiedRows_ok (nodup_keys_liveLines w entry) hrows
    · cases hrows
  · intro r hr
    obtain ⟨_, _, hcap⟩ := exists_of_forall₂_mem (mapM_eq_ok.mp hcaps).flip hr
    exact hcap

end NexaPos.Wms
