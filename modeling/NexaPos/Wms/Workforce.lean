import NexaPos.Wms.Models

/-!
# Locations, employees, operations and attendance

The services that keep the master data.  What a form may put into a location, an employee, a
category or an attendance record is not restricted here; what the later modules rely on is kept
as the source has it: rows are never deleted, an assignment never changes its employee or its
category, and an attendance record never changes its date.
-/

namespace NexaPos.Wms

open Tx

/-- A new row, or a row rewritten in place; `select_for_update().get(pk=...)` raises when there
is none. -/
def saveRow {α : Type} (rows : List α) (instance? : Option ℕ) (row : α) :
    Except PosError (List α) := do
  match instance? with
  | none => return rows ++ [row]
  | some pk =>
    let _ ← found rows[pk]? .notFound
    return rows.set pk row

/-- The services that save a `WmsLocation`. -/
def saveLocation (instance? : Option ℕ) (row : WmsLocation) : WmsService Unit := do
  let rows ← reads fun w => saveRow w.locations instance? row
  modify fun w => { w with locations := rows }

/-- `save_employee`. -/
def saveEmployee (instance? : Option ℕ) (row : WmsEmployee) : WmsService Unit := do
  let rows ← reads fun w => saveRow w.employees instance? row
  modify fun w => { w with employees := rows }

/-- `save_category`. -/
def saveCategory (instance? : Option ℕ) (row : WmsProductionCategory) : WmsService Unit := do
  let rows ← reads fun w => saveRow w.categories instance? row
  modify fun w => { w with categories := rows }

/-- Assignments that meet a condition are deactivated. -/
def deactivateAssignments (p : WmsEmployeeCategoryAssignment → Bool) (w : Workshop) : Workshop :=
  { w with
    assignments := w.assignments.map fun a => if p a then { a with isActive := false } else a }

/-- `set_employee_active`. -/
def setEmployeeActive (employee : ℕ) (isActive : Bool) : WmsService Unit := do
  let row ← reads fun w => found w.employees[employee]? .notFound
  if row.isActive = isActive then
    pure ()
  else do
    modify fun w => { w with
      employees := w.employees.modify employee ({ · with isActive := isActive }) }
    if isActive then pure ()
    else modify (deactivateAssignments fun a => a.employee = employee)

/-- `set_category_active`. -/
def setCategoryActive (category : ℕ) (isActive : Bool) : WmsService Unit := do
  let row ← reads fun w => found w.categories[category]? .notFound
  if row.isActive = isActive then
    pure ()
  else do
    modify fun w => { w with
      categories := w.categories.modify category ({ · with isActive := isActive }) }
    if isActive then pure ()
    else modify (deactivateAssignments fun a => a.category = category)

/-! ## Assignments -/

/-- `WmsEmployeeCategoryAssignment.clean`, for a row that was or was not there before. -/
def cleanAssignment (w : Workshop) (original : Option WmsEmployeeCategoryAssignment)
    (row : WmsEmployeeCategoryAssignment) : Except PosError Unit := do
  let employee ← found w.employees[row.employee]? .notFound
  let category ← found w.categories[row.category]? .notFound
  let location ← found w.locations[employee.location]? .notFound
  require (row.perPieceRate = none || employee.compensation.paysPieces ||
      (original.bind WmsEmployeeCategoryAssignment.perPieceRate) = row.perPieceRate)
    (.invalidField "per_piece_rate"
      "Category rates are available only for Per Piece and Hybrid employees.")
  require (!row.isActive || employee.isActive)
    (.invalidField "employee" "Inactive employees cannot receive assignments.")
  require (!row.isActive || category.isActive)
    (.invalidField "category" "Inactive categories cannot be assigned.")
  require (!row.isActive || location.isOpen)
    (.invalidField "employee" "The employee must have an active WMS location.")

/-- The rate a reactivated assignment of a fixed-salary employee keeps. -/
def keptRate (employee : WmsEmployee) (row : WmsEmployeeCategoryAssignment) (rate : Option ℕ) :
    Option ℕ :=
  if !row.isActive && rate = none && !employee.compensation.paysPieces then row.perPieceRate
  else rate

/-- `save_assignment`: the rows after a rate was set, or the operation was assigned. -/
def savedAssignments (employee category : ℕ) (perPieceRate : Option ℕ) (instance? : Option ℕ)
    (w : Workshop) : Except PosError (List WmsEmployeeCategoryAssignment) := do
  let staff ← found w.employees[employee]? .notFound
  match instance? with
  | some pk =>
    let row ← found w.assignments[pk]?
      (.validation "The WMS assignment belongs to another business.")
    require (row.employee = employee && row.category = category)
      (.validation "The assignment employee and category cannot be changed.")
    cleanAssignment w (some row) { row with perPieceRate := perPieceRate }
    return w.assignments.modify pk ({ · with perPieceRate := perPieceRate })
  | none =>
    match w.assignments.findIdx? fun a => a.employee = employee && a.category = category with
    | some pk =>
      let row ← found w.assignments[pk]? .notFound
      let rate := keptRate staff row perPieceRate
      cleanAssignment w (some row) { row with perPieceRate := rate, isActive := true }
      return w.assignments.modify pk ({ · with perPieceRate := rate, isActive := true })
    | none =>
      let row : WmsEmployeeCategoryAssignment :=
        { employee := employee, category := category, perPieceRate := perPieceRate }
      cleanAssignment w none row
      return w.assignments ++ [row]

/-- `save_assignment`. -/
def saveAssignment (employee category : ℕ) (perPieceRate : Option ℕ) (instance? : Option ℕ) :
    WmsService Unit := do
  let rows ← reads (savedAssignments employee category perPieceRate instance?)
  modify fun w => { w with assignments := rows }

/-- `set_assignment_active`. -/
def setAssignmentActive (assignment : ℕ) (isActive : Bool) : WmsService Unit := do
  let row ← reads fun w => found w.assignments[assignment]? .notFound
  if row.isActive = isActive then
    pure ()
  else do
    reads fun w => cleanAssignment w (some row) { row with isActive := isActive }
    modify fun w => { w with
      assignments := w.assignments.modify assignment ({ · with isActive := isActive }) }

/-! ## Attendance -/

/-- `create_attendance`: one record for an employee and a date. -/
def createAttendance (row : WmsAttendance) : WmsService Unit := do
  reads fun w => require
    (!w.attendance.any fun a => a.employee = row.employee && a.attendanceDate = row.attendanceDate)
    (.validation "Attendance already exists for this employee on this date.")
  modify fun w => { w with attendance := w.attendance ++ [row] }

/-- `correct_attendance`. -/
def correctAttendance (attendance : ℕ) (figures : AttendanceFigures) : WmsService Unit := do
  let _ ← reads fun w => found w.attendance[attendance]? .notFound
  modify fun w => { w with
    attendance := w.attendance.modify attendance ({ · with figures := figures }) }

/-! ## What an accepted call did -/

/-- The identity of an assignment. -/
def WmsEmployeeCategoryAssignment.identity (a : WmsEmployeeCategoryAssignment) : ℕ × ℕ :=
  (a.employee, a.category)

@[simp] lemma WmsEmployeeCategoryAssignment.identity_mk (a : WmsEmployeeCategoryAssignment)
    (rate : Option ℕ) (isActive : Bool) :
    WmsEmployeeCategoryAssignment.identity
      { a with perPieceRate := rate, isActive := isActive } = a.identity := rfl

/-- The assignments of a later state: more of them, each with its employee and category. -/
def AssignmentsKept (w w' : Workshop) : Prop :=
  w.assignments.map (·.identity) <+: w'.assignments.map (·.identity)

lemma AssignmentsKept.of_eq {w w' : Workshop} (h : w'.assignments = w.assignments) :
    AssignmentsKept w w' := by
  exact isPrefix_of_eq (congrArg (List.map (·.identity)) h)

/-- A row keeps its employee and its category. -/
lemma AssignmentsKept.getElem? {w w' : Workshop} (h : AssignmentsKept w w') {pk : ℕ}
    {a : WmsEmployeeCategoryAssignment} (ha : w.assignments[pk]? = some a) :
    ∃ a', w'.assignments[pk]? = some a' ∧ a'.identity = a.identity := by
  have hmap : (w.assignments.map (·.identity))[pk]? = some a.identity := by
    rw [List.getElem?_map, ha, Option.map_some]
  have hlater := getElem?_of_prefix h hmap
  rw [List.getElem?_map, Option.map_eq_some_iff] at hlater
  exact hlater

lemma assignmentsKept_modify {w : Workshop} {pk : ℕ}
    {f : WmsEmployeeCategoryAssignment → WmsEmployeeCategoryAssignment}
    (hf : ∀ a, (f a).identity = a.identity) :
    w.assignments.map (·.identity) <+: (w.assignments.modify pk f).map (·.identity) := by
  exact isPrefix_of_eq (map_modify_of_eq hf _ _)

lemma savedAssignments_ok {employee category : ℕ} {rate instance? : Option ℕ} {w : Workshop}
    {rows : List WmsEmployeeCategoryAssignment}
    (h : savedAssignments employee category rate instance? w = .ok rows) :
    w.assignments.map (·.identity) <+: rows.map (·.identity) := by
  unfold savedAssignments at h
  simp only [except_bind_eq_ok, found_eq_ok] at h
  obtain ⟨staff, -, h⟩ := h
  cases instance? with
  | some pk =>
    simp only [except_bind_eq_ok, found_eq_ok, pure, Except.pure, Except.ok.injEq] at h
    obtain ⟨row, -, -, -, -, -, rfl⟩ := h
    exact assignmentsKept_modify fun _ => rfl
  | none =>
    dsimp only at h
    split at h
    · simp only [except_bind_eq_ok, found_eq_ok, pure, Except.pure, Except.ok.injEq] at h
      obtain ⟨row, -, -, -, rfl⟩ := h
      exact assignmentsKept_modify fun _ => rfl
    · simp only [except_bind_eq_ok, pure, Except.pure, Except.ok.injEq] at h
      obtain ⟨-, -, rfl⟩ := h
      rw [List.map_append]
      exact List.prefix_append _ _

lemma deactivateAssignments_kept (p : WmsEmployeeCategoryAssignment → Bool) (w : Workshop) :
    AssignmentsKept w (deactivateAssignments p w) := by
  have hsame : (deactivateAssignments p w).assignments.map (·.identity) =
      w.assignments.map (·.identity) := by
    unfold deactivateAssignments
    rw [List.map_map]
    refine List.map_congr_left fun a _ => ?_
    by_cases ha : p a <;> simp [ha]
  exact isPrefix_of_eq hsame

/-- The tables of orders, production and salaries. -/
def Workshop.ledger (w : Workshop) :
    List WmsWorkshopOrder × List WmsProductionEntry × List WmsProductionEntryLine ×
      List WmsSalary :=
  (w.orders, w.entries, w.lines, w.salaries)

/-- A change of master data. -/
structure MasterChange (w w' : Workshop) : Prop where
  ledger : w'.ledger = w.ledger
  assignments : AssignmentsKept w w'

instance : IsPreorder Workshop MasterChange where
  refl _ := ⟨rfl, .of_eq rfl⟩
  trans _ _ _ h₁ h₂ := ⟨h₂.ledger.trans h₁.ledger, h₁.assignments.trans h₂.assignments⟩

lemma within_saveLocation (instance? : Option ℕ) (row : WmsLocation) :
    Within MasterChange (saveLocation instance? row) :=
  within_bind within_reads fun _ => within_modify fun _ => ⟨rfl, .of_eq rfl⟩

lemma within_saveEmployee (instance? : Option ℕ) (row : WmsEmployee) :
    Within MasterChange (saveEmployee instance? row) :=
  within_bind within_reads fun _ => within_modify fun _ => ⟨rfl, .of_eq rfl⟩

lemma within_saveCategory (instance? : Option ℕ) (row : WmsProductionCategory) :
    Within MasterChange (saveCategory instance? row) :=
  within_bind within_reads fun _ => within_modify fun _ => ⟨rfl, .of_eq rfl⟩

lemma within_deactivate (p : WmsEmployeeCategoryAssignment → Bool) :
    Within MasterChange (modify (deactivateAssignments p) : WmsService PUnit) :=
  within_modify fun w => ⟨rfl, deactivateAssignments_kept p w⟩

lemma within_setEmployeeActive (employee : ℕ) (isActive : Bool) :
    Within MasterChange (setEmployeeActive employee isActive) := by
  refine within_bind within_reads fun row => ?_
  refine within_ite (fun _ => within_pure) fun _ => ?_
  refine within_bind (within_modify fun _ => ⟨rfl, .of_eq rfl⟩) fun _ => ?_
  exact within_ite (fun _ => within_pure) fun _ => within_deactivate _

lemma within_setCategoryActive (category : ℕ) (isActive : Bool) :
    Within MasterChange (setCategoryActive category isActive) := by
  refine within_bind within_reads fun row => ?_
  refine within_ite (fun _ => within_pure) fun _ => ?_
  refine within_bind (within_modify fun _ => ⟨rfl, .of_eq rfl⟩) fun _ => ?_
  exact within_ite (fun _ => within_pure) fun _ => within_deactivate _

lemma within_saveAssignment (employee category : ℕ) (rate instance? : Option ℕ) :
    Within MasterChange (saveAssignment employee category rate instance?) := by
  intro w u t h
  simp only [saveAssignment, runs_bind, runs_reads, runs_modify] at h
  obtain ⟨rows, _, ⟨hrows, rfl⟩, rfl⟩ := h
  exact ⟨rfl, savedAssignments_ok hrows⟩

lemma within_setAssignmentActive (assignment : ℕ) (isActive : Bool) :
    Within MasterChange (setAssignmentActive assignment isActive) := by
  refine within_bind within_reads fun row => ?_
  refine within_ite (fun _ => within_pure) fun _ => within_bind within_reads fun _ => ?_
  exact within_modify fun w => ⟨rfl, assignmentsKept_modify fun _ => rfl⟩

lemma within_createAttendance (row : WmsAttendance) :
    Within MasterChange (createAttendance row) :=
  within_bind within_reads fun _ => within_modify fun _ => ⟨rfl, .of_eq rfl⟩

lemma within_correctAttendance (attendance : ℕ) (figures : AttendanceFigures) :
    Within MasterChange (correctAttendance attendance figures) :=
  within_bind within_reads fun _ => within_modify fun _ => ⟨rfl, .of_eq rfl⟩

end NexaPos.Wms
