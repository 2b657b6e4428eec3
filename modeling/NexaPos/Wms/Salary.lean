import NexaPos.Wms.Production

/-!
# Salaries

A salary is calculated for an employee and a month from the records of that moment: a fixed
salary has one day for each date with its attendance, a piece salary one day for each production
entry with its lines, a hybrid salary both.  Calculating again replaces the snapshots; finalising
freezes them.
-/

namespace NexaPos.Wms

open Tx

/-- `_authorized_access`. -/
def authorizedAccess (c : WmsCall) (permission : String) : Except PosError WmsAccess := do
  let access ← requireAccess c
  match access.evaluate permission with
  | .error message => .error (.validation message)
  | .ok () => do
    require (access.isActive && access.roleActive)
      (.validation "Active WMS user access is required.")
    return access

/-- `_period_dates`: the year and the month. -/
def salaryPeriod (salaryYear salaryMonth : RawInt) : Except PosError (ℕ × ℕ) := do
  let error := PosError.validation "Choose a valid calendar month."
  let year ← found salaryYear error
  let month ← found salaryMonth error
  require (1 ≤ year && year ≤ 9999 && 1 ≤ month && month ≤ 12) error
  return (year.toNat, month.toNat)

/-- `period_start`. -/
def periodStart (year month : ℕ) : Date := ⟨year, month, 1⟩

/-- `period_end`. -/
def periodEnd (year month : ℕ) : Date := ⟨year, month, monthDays year month⟩

/-- `max(period_start, employee.joining_date)`. -/
def firstDate (year month : ℕ) (joining : Date) : Date :=
  if periodStart year month ≤ joining then joining else periodStart year month

/-- The date is one the salary of the month is about. -/
def InPeriod (year month : ℕ) (joining date : Date) : Prop :=
  firstDate year month joining ≤ date ∧ date ≤ periodEnd year month

instance (year month : ℕ) (joining date : Date) : Decidable (InPeriod year month joining date) :=
  inferInstanceAs (Decidable (_ ∧ _))

/-- `_validate_location_scope`. -/
def validateLocationScope (access : WmsAccess) (locations : List ℕ) : Except PosError Unit :=
  require (locations.all access.allowsLocation)
    (.validation "One or more salary locations are outside the allowed scope.")

/-! ## Fixed days -/

/-- The dates from the first one to the end of its month. -/
def salaryDates (first : Date) (last : ℕ) : List Date :=
  (List.range' first.day (last + 1 - first.day)).map fun day => { first with day := day }

/-- The attendance of an employee on a date, with its key. -/
def attendanceOn (w : Workshop) (employee : ℕ) (date : Date) : Option (ℕ × WmsAttendance) :=
  (childrenOf (·.employee) w.attendance employee).find? fun e => e.2.attendanceDate = date

/-- An iteration of the loop of `_fixed_breakdown`. -/
def fixedDay (w : Workshop) (employee : ℕ) (staff : WmsEmployee) (date : Date) : WmsSalaryDay :=
  match attendanceOn w employee date with
  | some (id, attendance) =>
    { salaryDate := date
      location := attendance.location
      attendance := some id
      figures := attendance.figures }
  | none => { salaryDate := date, location := staff.location }

/-- `_fixed_breakdown`. -/
def fixedBreakdown (w : Workshop) (employee : ℕ) (staff : WmsEmployee) (year month : ℕ) :
    List WmsSalaryDay :=
  (salaryDates (firstDate year month staff.joiningDate) (monthDays year month)).map
    (fixedDay w employee staff)

/-! ## Piece days -/

/-- The rate of a line, and where it comes from. -/
def pieceRate (staff : WmsEmployee) (assignment : WmsEmployeeCategoryAssignment) :
    Option (ℕ × RateSource) :=
  match assignment.perPieceRate with
  | some rate => some (rate, .assignment)
  | none => staff.compensation.defaultPerPieceRate.map fun rate => (rate, .employeeDefault)

/-- A line of the production breakdown. -/
def pieceLine (w : Workshop) (employee : ℕ) (staff : WmsEmployee)
    (e : ℕ × WmsProductionEntryLine) : Except PosError WmsSalaryPieceLine := do
  let (id, line) := e
  let assignment ← found w.assignments[line.assignment]?
    (.validation "A production assignment is unavailable for salary calculation.")
  require (assignment.employee = employee)
    (.validation "Production assignment belongs to another employee.")
  let (rate, source) ← found (pieceRate staff assignment)
    (.validation "Every production line requires a valid nonnegative piece rate.")
  let order ← linkedOrder w line.order .notFound
  return {
    productionLine := id
    assignment := line.assignment
    order := order.map Prod.fst
    orderReference := order.map fun o => o.2.orderReference
    categoryName := line.categoryNameSnapshot
    categoryCode := line.categoryCodeSnapshot
    rateSource := source
    appliedRate := rate
    quantity := line.quantity
    lineAmount := money (dec rate * line.quantity) }

/-- `assignment__category__display_order` of a line. -/
def lineDisplayOrder (w : Workshop) (line : WmsProductionEntryLine) : ℕ :=
  ((w.assignments[line.assignment]?.bind fun a => w.categories[a.category]?).map
    (·.displayOrder)).getD 0

/-- The order of the lines of an entry. -/
def lineBefore (w : Workshop) (a b : ℕ × WmsProductionEntryLine) : Bool :=
  lineDisplayOrder w a.2 < lineDisplayOrder w b.2 ||
    lineDisplayOrder w a.2 = lineDisplayOrder w b.2 &&
      a.2.categoryNameSnapshot ≤ b.2.categoryNameSnapshot

/-- An iteration of the last loop of `_piece_breakdown`, with the lines of the entry. -/
def pieceDay (w : Workshop) (employee : ℕ) (staff : WmsEmployee) (e : ℕ × WmsProductionEntry) :
    Except PosError WmsSalaryDay := do
  let lines ← ((liveLines w e.1).insertionSort (lineBefore w · ·)).mapM
    (pieceLine w employee staff)
  return {
    salaryDate := e.2.productionDate
    location := e.2.location
    productionEntry := some e.1
    eligibleQuantity := (lines.map (·.quantity)).sum
    dailyAmount := (lines.map (·.lineAmount)).sum
    pieceLines := lines }

/-- The entries of the employee in the period, with their keys. -/
def periodEntries (w : Workshop) (employee : ℕ) (joining : Date) (year month : ℕ) :
    List (ℕ × WmsProductionEntry) :=
  (childrenOf (·.employee) w.entries employee).filter fun e =>
    InPeriod year month joining e.2.productionDate

/-- `_piece_breakdown`. -/
def pieceBreakdown (w : Workshop) (employee : ℕ) (staff : WmsEmployee) (year month : ℕ) :
    Except PosError (List WmsSalaryDay) :=
  ((periodEntries w employee staff.joiningDate year month).insertionSort
    fun a b => a.2.productionDate ≤ b.2.productionDate).mapM (pieceDay w employee staff)

/-! ## Hybrid days -/

/-- A number below 100 with two digits. -/
def twoDigits (n : ℕ) : String := if n < 10 then s!"0{n}" else s!"{n}"

/-- `{date:%Y-%m-%d}`. -/
def Date.format (d : Date) : String := s!"{d.year}-{twoDigits d.month}-{twoDigits d.day}"

/-- An iteration of the loop of `_hybrid_breakdown`. -/
def mergeDay (pieces : List WmsSalaryDay) (day : WmsSalaryDay) : Except PosError WmsSalaryDay :=
  match pieces.find? fun p => p.salaryDate = day.salaryDate with
  | none => .ok day
  | some piece => do
    let date := day.salaryDate.format
    require (day.attendance = none || day.location = piece.location)
      (.validation ("Attendance and production use different locations on " ++
        s!"{date}; the Hybrid salary day cannot be snapshotted safely."))
    return { day with
      location := if day.attendance = none then piece.location else day.location
      productionEntry := piece.productionEntry
      eligibleQuantity := piece.eligibleQuantity
      dailyAmount := piece.dailyAmount
      pieceLines := piece.pieceLines }

/-- `_hybrid_breakdown`. -/
def hybridBreakdown (w : Workshop) (employee : ℕ) (staff : WmsEmployee) (year month : ℕ) :
    Except PosError (List WmsSalaryDay) := do
  let days := fixedBreakdown w employee staff year month
  let pieces ← pieceBreakdown w employee staff year month
  let merged ← days.mapM (mergeDay pieces)
  require (pieces.all fun p => (days.map (·.salaryDate)).contains p.salaryDate)
    (.validation ("One or more Hybrid production dates could not be merged into " ++
      "the salary calendar."))
  return merged

/-! ## Calculating -/

/-- The days of a salary, with the fixed component it pays. -/
def salaryBreakdown (w : Workshop) (employee : ℕ) (staff : WmsEmployee) (year month : ℕ) :
    Except PosError (List WmsSalaryDay) :=
  match staff.compensation with
  | .fixedSalary _ => .ok (fixedBreakdown w employee staff year month)
  | .perPiece _ => pieceBreakdown w employee staff year month
  | .hybrid _ _ => hybridBreakdown w employee staff year month

/-- `fixed_salary_component`. -/
def fixedComponent (compensation : Compensation) : ℤ := compensation.fixedMonthlySalary.getD 0

/-- The locations of a salary: the employee's, and those of its days and entries. -/
def salaryLocations (w : Workshop) (employee : ℕ) (staff : WmsEmployee) (year month : ℕ)
    (days : List WmsSalaryDay) : List ℕ :=
  let fixed :=
    match staff.compensation with
    | .hybrid _ _ => (fixedBreakdown w employee staff year month).map (·.location)
    | _ => []
  (staff.location :: (fixed ++ days.map (·.location))).dedup

/-- `WmsSalaryLocationSnapshot` of a location. -/
def locationSnapshot (w : Workshop) (id : ℕ) : Except PosError WmsSalaryLocationSnapshot := do
  let row ← found w.locations[id]? .notFound
  return { location := id, locationName := row.branchName, locationType := row.locationType }

/-- The order of the location snapshots. -/
def snapshotBefore (a b : WmsSalaryLocationSnapshot) : Bool :=
  a.locationName < b.locationName || a.locationName = b.locationName && a.location ≤ b.location

/-- The key of the salary of an employee and a month. -/
def salaryOf (w : Workshop) (employee year month : ℕ) : Option ℕ :=
  w.salaries.findIdx? fun s =>
    s.employee = employee && s.salaryYear = year && s.salaryMonth = month

/-- The checks of `calculate_salary`: the key of the row that is there, and the new row. -/
def checkCalculation (c : WmsCall) (employee : ℕ) (salaryYear salaryMonth : RawInt)
    (w : Workshop) : Except PosError (Option ℕ × WmsSalary) := do
  let access ← authorizedAccess c "wms.salary.calculate"
  let (year, month) ← salaryPeriod salaryYear salaryMonth
  let staff ← found w.employees[employee]?
    (.validation "The employee belongs to another business.")
  require (staff.joiningDate ≤ periodEnd year month)
    (.validation "Salary cannot be calculated for a month before joining.")
  let existing := salaryOf w employee year month
  require ((existing.bind fun pk => w.salaries[pk]?).all fun s => s.status ≠ .finalized)
    (.validation "Finalized salary cannot be recalculated.")
  let days ← salaryBreakdown w employee staff year month
  let locations := salaryLocations w employee staff year month days
  validateLocationScope access locations
  let snapshots ← locations.mapM (locationSnapshot w)
  let fixed := fixedComponent staff.compensation
  let production := (days.map (·.dailyAmount)).sum
  return (existing, {
    employee := employee
    salaryYear := year
    salaryMonth := month
    employeeCode := staff.employeeCode
    employeeName := staff.fullName
    joiningDate := staff.joiningDate
    compensation := staff.compensation
    totalEligibleQuantity := (days.map (·.eligibleQuantity)).sum
    fixedSalaryComponent := fixed
    productionSalaryComponent := production
    grossSalary := fixed + production
    calculatedBy := c.user
    calculatedAt := c.now
    days := days
    locationSnapshots := snapshots.insertionSort (snapshotBefore · ·) })

/-- `calculate_salary`. -/
def calculateSalary (c : WmsCall) (employee : ℕ) (salaryYear salaryMonth : RawInt) :
    WmsService Unit := do
  let (existing, row) ← reads (checkCalculation c employee salaryYear salaryMonth)
  modify fun w => { w with
    salaries :=
      match existing with
      | none => w.salaries ++ [row]
      | some pk => w.salaries.set pk row }

/-! ## Finalising -/

/-- The checks of `finalize_salary`. -/
def checkFinalization (c : WmsCall) (salary : ℕ) (w : Workshop) : Except PosError Unit := do
  let access ← authorizedAccess c "wms.salary.finalize"
  let row ← found w.salaries[salary]? (.validation "The salary belongs to another business.")
  validateLocationScope access (row.locationSnapshots.map (·.location))
  require (row.status = .calculated) (.validation "Salary has already been finalized.")

/-- The salary is final. -/
def WmsSalary.finalize (c : WmsCall) (s : WmsSalary) : WmsSalary :=
  { s with status := .finalized, finalizedBy := some c.user, finalizedAt := some c.now }

/-- `finalize_salary`. -/
def finalizeSalary (c : WmsCall) (salary : ℕ) : WmsService Unit := do
  reads (checkFinalization c salary)
  modify fun w => { w with salaries := w.salaries.modify salary (·.finalize c) }

end NexaPos.Wms
