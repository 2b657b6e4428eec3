import NexaPos.Core.Access
import NexaPos.Lib.Tables
import NexaPos.Lib.Transaction
import Mathlib.Data.PNat.Notation

/-!
# The workshop records of one business

The workshop applications keep their own tables: locations, the workforce with the operations
assigned to it, the orders in work, the production of each employee and day, attendance, and the
salaries with the snapshots they were calculated from.  A row's primary key is its position, and
rows are rewritten in place.

What the database constrains is kept in the types.  An employee's compensation carries exactly
the amounts its type has (`valid_wms_employee_comp_values`), amounts and quantities that may not
be negative are natural numbers, and an eligible piece count is positive when there is one
(`valid_wms_order_piece_count`).  Amounts are in thousandths.
-/

namespace NexaPos.Wms

/-! ## Dates -/

/-- A calendar date. -/
structure Date where
  year : ℕ
  month : ℕ
  day : ℕ
  deriving DecidableEq, Repr

/-- Dates are compared by year, then month, then day. -/
instance : LE Date where
  le a b := a.year < b.year ∨ a.year = b.year ∧
    (a.month < b.month ∨ a.month = b.month ∧ a.day ≤ b.day)

lemma Date.le_iff {a b : Date} :
    a ≤ b ↔ a.year < b.year ∨ a.year = b.year ∧
      (a.month < b.month ∨ a.month = b.month ∧ a.day ≤ b.day) := Iff.rfl

instance (a b : Date) : Decidable (a ≤ b) := decidable_of_iff' _ Date.le_iff

/-- `calendar.isleap`. -/
def isLeap (year : ℕ) : Bool := year % 4 = 0 && (year % 100 ≠ 0 || year % 400 = 0)

/-- `calendar.monthrange(year, month)[1]`. -/
def monthDays (year month : ℕ) : ℕ :=
  if month = 2 then
    if isLeap year then 29 else 28
  else if month = 4 || month = 6 || month = 9 || month = 11 then 30
  else 31

/-! ## Locations and the workforce -/

structure WmsLocation where
  isActive : Bool := true
  /-- `location.branch.is_active`. -/
  branchActive : Bool := true
  branchName : String := ""
  locationType : String := "WORKSHOP"

/-- The location and its branch are active. -/
def WmsLocation.isOpen (l : WmsLocation) : Bool := l.isActive && l.branchActive

/-- `compensation_type` with the amounts that belong to it. -/
inductive Compensation
  | fixedSalary (fixedMonthlySalary : ℕ)
  | perPiece (defaultPerPieceRate : ℕ)
  | hybrid (fixedMonthlySalary defaultPerPieceRate : ℕ)
  deriving DecidableEq, Repr

namespace Compensation

/-- `fixed_monthly_salary`. -/
def fixedMonthlySalary : Compensation → Option ℕ
  | fixedSalary salary => some salary
  | perPiece _ => none
  | hybrid salary _ => some salary

/-- `default_per_piece_rate`. -/
def defaultPerPieceRate : Compensation → Option ℕ
  | fixedSalary _ => none
  | perPiece rate => some rate
  | hybrid _ rate => some rate

/-- The type pays for pieces. -/
def paysPieces (c : Compensation) : Bool := c.defaultPerPieceRate.isSome

end Compensation

structure WmsEmployee where
  employeeCode : String := ""
  fullName : String := ""
  location : ℕ
  joiningDate : Date
  compensation : Compensation
  isActive : Bool := true

structure WmsProductionCategory where
  name : String := ""
  code : String := ""
  displayOrder : ℕ := 0
  isActive : Bool := true

/-- An operation an employee may be given. -/
structure WmsEmployeeCategoryAssignment where
  employee : ℕ
  category : ℕ
  perPieceRate : Option ℕ := none
  isActive : Bool := true

/-! ## Orders and production -/

inductive OrderStatus
  | inProcess
  | finishedReady
  deriving DecidableEq, Repr

structure WmsWorkshopOrder where
  location : ℕ
  orderReference : Text
  eligiblePieceCount : Option ℕ+
  status : OrderStatus := .inProcess
  receivedDate : Date
  finishedDate : Option Date := none

/-- What one employee made on one day. -/
structure WmsProductionEntry where
  location : ℕ
  employee : ℕ
  productionDate : Date
  dailyTotalPieces : ℕ := 0
  notes : Text := []
  isCorrected : Bool := false
  correctionReason : Text := []

structure WmsProductionEntryLine where
  entry : ℕ
  /-- Lines from before orders were linked have none. -/
  order : Option ℕ
  assignment : ℕ
  category : ℕ
  categoryNameSnapshot : String := ""
  categoryCodeSnapshot : String := ""
  quantity : ℕ
  isRemoved : Bool := false

/-! ## Attendance and salaries -/

/-- What a salary day copies from an attendance record. -/
structure AttendanceFigures where
  morningStatus : String := ""
  eveningStatus : String := ""
  morningTimeIn : Option ℕ := none
  morningTimeOut : Option ℕ := none
  eveningTimeIn : Option ℕ := none
  eveningTimeOut : Option ℕ := none
  workedMinutes : ℕ := 0
  missingMinutes : ℕ := 0
  deriving DecidableEq, Repr

structure WmsAttendance where
  location : ℕ
  employee : ℕ
  attendanceDate : Date
  figures : AttendanceFigures := {}

inductive RateSource
  | assignment
  | employeeDefault
  deriving DecidableEq, Repr

/-- One production line as a salary counted it. -/
structure WmsSalaryPieceLine where
  productionLine : ℕ
  assignment : ℕ
  order : Option ℕ
  orderReference : Option Text
  categoryName : String
  categoryCode : String
  rateSource : RateSource
  appliedRate : ℤ
  quantity : ℕ
  lineAmount : ℤ
  deriving DecidableEq, Repr

/-- One day of a salary, with its piece lines. -/
structure WmsSalaryDay where
  salaryDate : Date
  location : ℕ
  attendance : Option ℕ := none
  productionEntry : Option ℕ := none
  figures : AttendanceFigures := {}
  eligibleQuantity : ℕ := 0
  dailyAmount : ℤ := 0
  pieceLines : List WmsSalaryPieceLine := []
  deriving DecidableEq, Repr

structure WmsSalaryLocationSnapshot where
  location : ℕ
  locationName : String
  locationType : String
  deriving DecidableEq, Repr

inductive SalaryStatus
  | calculated
  | finalized
  deriving DecidableEq, Repr

structure WmsSalary where
  employee : ℕ
  salaryYear : ℕ
  salaryMonth : ℕ
  status : SalaryStatus := .calculated
  employeeCode : String
  employeeName : String
  joiningDate : Date
  compensation : Compensation
  totalEligibleQuantity : ℕ
  fixedSalaryComponent : ℤ
  productionSalaryComponent : ℤ
  grossSalary : ℤ
  calculatedBy : ℕ
  calculatedAt : ℤ
  finalizedBy : Option ℕ := none
  finalizedAt : Option ℤ := none
  /-- The rows of `WmsSalaryDay` and of `WmsSalaryPieceLine` below them. -/
  days : List WmsSalaryDay
  /-- The rows of `WmsSalaryLocationSnapshot`. -/
  locationSnapshots : List WmsSalaryLocationSnapshot
  deriving DecidableEq, Repr

/-! ## The tables -/

structure Workshop where
  locations : List WmsLocation := []
  employees : List WmsEmployee := []
  categories : List WmsProductionCategory := []
  assignments : List WmsEmployeeCategoryAssignment := []
  orders : List WmsWorkshopOrder := []
  entries : List WmsProductionEntry := []
  lines : List WmsProductionEntryLine := []
  attendance : List WmsAttendance := []
  salaries : List WmsSalary := []

/-- A service of the workshop applications. -/
abbrev WmsService (α : Type) := Tx Workshop PosError α

/-! ## Callers -/

/-- A member's workshop access (`WmsUserAccess`), and what the access engine says of it. -/
structure WmsAccess where
  isActive : Bool := true
  roleActive : Bool := true
  /-- `user_access.has_perm(code)`. -/
  hasPerm : String → Bool
  /-- `allowed_location_ids`; `none` is every location. -/
  allowedLocationIds : Option (List ℕ) := none
  /-- `evaluate_wms_actor_access`: the permission is granted, or refused with a message. -/
  evaluate : String → Except String Unit

/-- The location is in the member's scope. -/
def WmsAccess.allowsLocation (a : WmsAccess) (location : ℕ) : Bool :=
  match a.allowedLocationIds with
  | none => true
  | some ids => ids.contains location

/-- `can_access_location`: an open location of the member's scope. -/
def WmsAccess.canAccessLocation (a : WmsAccess) (location : ℕ) (row : WmsLocation) : Bool :=
  row.isOpen && a.allowsLocation location

/-- What a call is made with besides its arguments; a service that needs the access and gets
none raises. -/
structure WmsCall where
  user : ℕ
  access : Option WmsAccess
  /-- `timezone.now()`, in seconds. -/
  now : ℤ

/-- The workshop access of a call. -/
def requireAccess (c : WmsCall) : Except PosError WmsAccess :=
  found c.access (.validation "Explicit WMS user access is required.")

/-! ## Whole numbers -/

/-- A value that should be a whole number; `none` when it is no `int`, or a `bool`. -/
abbrev RawInt := Option ℤ

/-- `_validate_quantity`. -/
def validateQuantity (value : RawInt) (label : String) (positive : Bool) : Except PosError ℕ := do
  let qualifier := if positive then "positive" else "nonnegative"
  let minimum : ℤ := if positive then 1 else 0
  let error := PosError.validation s!"{label} must be a whole {qualifier} number."
  let n ← found value error
  require (minimum ≤ n) error
  return n.toNat

end NexaPos.Wms
