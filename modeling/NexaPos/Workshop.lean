import NexaPos.Wms.Workforce
import NexaPos.Wms.Salary

/-!
# The workshop as a system

The requests of the workshop applications, what one request does to the tables, and what holds
for as long as a workshop runs.
-/

namespace NexaPos.Wms

open Tx

/-- One request. -/
inductive WorkshopOp
  | saveLocation (instance? : Option ℕ) (row : WmsLocation)
  | saveEmployee (instance? : Option ℕ) (row : WmsEmployee)
  | saveCategory (instance? : Option ℕ) (row : WmsProductionCategory)
  | setEmployeeActive (employee : ℕ) (isActive : Bool)
  | setCategoryActive (category : ℕ) (isActive : Bool)
  | saveAssignment (employee category : ℕ) (perPieceRate instance? : Option ℕ)
  | setAssignmentActive (assignment : ℕ) (isActive : Bool)
  | createAttendance (row : WmsAttendance)
  | correctAttendance (attendance : ℕ) (figures : AttendanceFigures)
  | createOrderBatch (c : WmsCall) (location : ℕ) (receivedDate : Date)
      (rows : List (Option OrderRow))
  | updateOrderPieceCount (c : WmsCall) (order : ℕ) (count : RawInt)
  | finishOrderBatch (c : WmsCall) (finishedDate : Date) (references : List Text)
  | createProductionEntry (c : WmsCall) (location employee : ℕ) (productionDate : Date)
      (dailyTotalPieces : RawInt) (notes : Text) (rows : List (Option SubmittedRow))
  | correctProductionEntry (c : WmsCall) (entry : ℕ) (dailyTotalPieces : RawInt) (notes : Text)
      (productionRows : Option (List (Option SubmittedRow)))
      (lineQuantities : Option (List (ℕ × RawInt))) (correctionReason : Text)
  | calculateSalary (c : WmsCall) (employee : ℕ) (salaryYear salaryMonth : RawInt)
  | finalizeSalary (c : WmsCall) (salary : ℕ)

/-- The service a request runs. -/
def WorkshopOp.service : WorkshopOp → WmsService Unit
  | saveLocation instance? row => Wms.saveLocation instance? row
  | saveEmployee instance? row => Wms.saveEmployee instance? row
  | saveCategory instance? row => Wms.saveCategory instance? row
  | setEmployeeActive employee isActive => Wms.setEmployeeActive employee isActive
  | setCategoryActive category isActive => Wms.setCategoryActive category isActive
  | saveAssignment employee category rate instance? =>
    Wms.saveAssignment employee category rate instance?
  | setAssignmentActive assignment isActive => Wms.setAssignmentActive assignment isActive
  | createAttendance row => Wms.createAttendance row
  | correctAttendance attendance figures => Wms.correctAttendance attendance figures
  | createOrderBatch c location receivedDate rows =>
    Wms.createOrderBatch c location receivedDate rows
  | updateOrderPieceCount c order count => Wms.updateOrderPieceCount c order count
  | finishOrderBatch c finishedDate references => Wms.finishOrderBatch c finishedDate references
  | createProductionEntry c location employee productionDate daily notes rows =>
    Wms.createProductionEntry c location employee productionDate daily notes rows
  | correctProductionEntry c entry daily notes rows quantities reason =>
    Wms.correctProductionEntry c entry daily notes rows quantities reason
  | calculateSalary c employee salaryYear salaryMonth =>
    Wms.calculateSalary c employee salaryYear salaryMonth
  | finalizeSalary c salary => Wms.finalizeSalary c salary

namespace Workshop

/-- One request on the tables. -/
def step (w : Workshop) (op : WorkshopOp) : Workshop := commit op.service w

/-- The tables after a sequence of requests. -/
def run (w : Workshop) (ops : List WorkshopOp) : Workshop := Trace.run step w ops

end Workshop

/-! ## What a request does -/

/-- What a request does to orders, production and salaries. -/
inductive WorkshopStep (w : Workshop) : WorkshopOp → Workshop → Prop
  | refused {op : WorkshopOp} {e : PosError} (h : op.service.run w = .error e) :
      WorkshopStep w op w
  | master {op : WorkshopOp} {t : Workshop} (h : MasterChange w t)
      (hop : ∀ c employee year month, op ≠ .calculateSalary c employee year month) :
      WorkshopStep w op t
  | received {c : WmsCall} {location : ℕ} {date : Date} {submitted : List (Option OrderRow)}
      (new : List WmsWorkshopOrder) :
      WorkshopStep w (.createOrderBatch c location date submitted)
        { w with orders := w.orders ++ new }
  | counted {c : WmsCall} {order : ℕ} {count : RawInt} {pcs : ℕ+}
      (h : checkPieceCount c order count w = .ok pcs) :
      WorkshopStep w (.updateOrderPieceCount c order count)
        { w with orders := w.orders.modify order ({ · with eligiblePieceCount := some pcs }) }
  | finished {c : WmsCall} {date : Date} {references : List Text} {t : Workshop}
      (horders : List.Forall₂ (fun o o' => o'.eligiblePieceCount = o.eligiblePieceCount)
        w.orders t.orders)
      (hrest : t = { w with orders := t.orders }) :
      WorkshopStep w (.finishOrderBatch c date references) t
  | produced {c : WmsCall} {location employee : ℕ} {date : Date} {daily : RawInt} {notes : Text}
      {submitted : List (Option SubmittedRow)} {total : ℕ} {rows : List ResolvedRow}
      (h : checkProductionEntry c location employee date daily submitted w = .ok (total, rows)) :
      WorkshopStep w (.createProductionEntry c location employee date daily notes submitted)
        (addEntry location employee date total notes rows w)
  | corrected {c : WmsCall} {entry : ℕ} {daily : RawInt} {notes reason : Text}
      {submitted : Option (List (Option SubmittedRow))} {quantities : Option (List (ℕ × RawInt))}
      {x : Correction}
      (h : checkCorrection c entry daily notes submitted quantities reason w = .ok x) :
      WorkshopStep w (.correctProductionEntry c entry daily notes submitted quantities reason)
        { w with
          entries := w.entries.set entry x.entry
          lines := correctedLines entry x.originals x.rows w.lines }
  | calculated {c : WmsCall} {employee : ℕ} {year month : RawInt} {row : WmsSalary}
      (h : checkCalculation c employee year month w = .ok (none, row)) :
      WorkshopStep w (.calculateSalary c employee year month)
        { w with salaries := w.salaries ++ [row] }
  | recalculated {c : WmsCall} {employee : ℕ} {year month : RawInt} {pk : ℕ} {row : WmsSalary}
      (h : checkCalculation c employee year month w = .ok (some pk, row)) :
      WorkshopStep w (.calculateSalary c employee year month)
        { w with salaries := w.salaries.set pk row }
  | finalized {c : WmsCall} {salary : ℕ} (h : checkFinalization c salary w = .ok ()) :
      WorkshopStep w (.finalizeSalary c salary)
        { w with salaries := w.salaries.modify salary (·.finalize c) }

/-- Every request is one of these steps. -/
lemma workshopStep (w : Workshop) (op : WorkshopOp) : WorkshopStep w op (Workshop.step w op) := by
  rcases hrun : op.service.run w with e | ⟨u, t⟩
  · rw [Workshop.step, commit_of_error hrun]
    exact .refused hrun
  have hruns : Runs op.service w u t := hrun
  rw [Workshop.step, commit_of_runs hruns]
  cases op with
  | saveLocation => exact .master (within_saveLocation _ _ hruns) nofun
  | saveEmployee => exact .master (within_saveEmployee _ _ hruns) nofun
  | saveCategory => exact .master (within_saveCategory _ _ hruns) nofun
  | setEmployeeActive => exact .master (within_setEmployeeActive _ _ hruns) nofun
  | setCategoryActive => exact .master (within_setCategoryActive _ _ hruns) nofun
  | saveAssignment => exact .master (within_saveAssignment _ _ _ _ hruns) nofun
  | setAssignmentActive => exact .master (within_setAssignmentActive _ _ hruns) nofun
  | createAttendance => exact .master (within_createAttendance _ hruns) nofun
  | correctAttendance => exact .master (within_correctAttendance _ _ hruns) nofun
  | createOrderBatch c location date submitted =>
    simp only [WorkshopOp.service, createOrderBatch, runs_bind, runs_reads, runs_modify] at hruns
    obtain ⟨rows, _, ⟨-, rfl⟩, rfl⟩ := hruns
    exact .received _
  | updateOrderPieceCount c order count =>
    simp only [WorkshopOp.service, updateOrderPieceCount, runs_bind, runs_reads,
      runs_modify] at hruns
    obtain ⟨pcs, _, ⟨hcheck, rfl⟩, rfl⟩ := hruns
    exact .counted hcheck
  | finishOrderBatch c date references =>
    simp only [WorkshopOp.service, finishOrderBatch, runs_bind, runs_reads, runs_modify] at hruns
    obtain ⟨checked, _, ⟨-, rfl⟩, rfl⟩ := hruns
    refine .finished ?_ rfl
    rw [List.forall₂_map_right_iff, List.forall₂_same]
    intro o _
    split <;> rfl
  | createProductionEntry c location employee date daily notes submitted =>
    simp only [WorkshopOp.service, createProductionEntry, runs_bind, runs_reads,
      runs_modify] at hruns
    obtain ⟨checked, _, ⟨hcheck, rfl⟩, rfl⟩ := hruns
    exact .produced hcheck
  | correctProductionEntry c entry daily notes submitted quantities reason =>
    simp only [WorkshopOp.service, correctProductionEntry, runs_bind, runs_reads,
      runs_modify] at hruns
    obtain ⟨x, _, ⟨hcheck, rfl⟩, rfl⟩ := hruns
    exact .corrected hcheck
  | calculateSalary c employee year month =>
    simp only [WorkshopOp.service, calculateSalary, runs_bind, runs_reads, runs_modify] at hruns
    obtain ⟨⟨existing, row⟩, _, ⟨hcheck, rfl⟩, rfl⟩ := hruns
    cases existing with
    | none => exact .calculated hcheck
    | some pk => exact .recalculated hcheck
  | finalizeSalary c salary =>
    simp only [WorkshopOp.service, finalizeSalary, runs_bind, runs_reads, runs_modify] at hruns
    obtain ⟨_, _, ⟨hcheck, rfl⟩, rfl⟩ := hruns
    exact .finalized hcheck

end NexaPos.Wms
