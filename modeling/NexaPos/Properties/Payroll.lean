import NexaPos.Workshop
import Mathlib.Data.List.Induction
import Mathlib.Data.List.Perm.Lattice
import Mathlib.Data.List.Perm.Subperm

/-!
# Salaries count production at their last calculation

A salary is a snapshot: its days and lines hold the production of the employee and the month as
it was when the salary was last calculated, and its gross is what they add up to.  Later
corrections do not reach it, and finalising freezes it.  What holds over every run is that each
salary is exactly the snapshot of its last accepted calculation, that no production line is in
two salaries or twice in one, and that a final salary never changes.
-/

namespace NexaPos.Wms

/-! ## What a calculation counts -/

/-- The production a piece salary is about: the lines that are not removed of the employee's
entries of the period. -/
def payableLines (w : Workshop) (employee : ℕ) (staff : WmsEmployee) (year month : ℕ) :
    List (ℕ × WmsProductionEntryLine) :=
  (periodEntries w employee staff.joiningDate year month).flatMap fun e => liveLines w e.1

/-- The lines a salary counts: a fixed salary counts none. -/
def countedLines (w : Workshop) (employee : ℕ) (staff : WmsEmployee) (year month : ℕ) :
    List (ℕ × WmsProductionEntryLine) :=
  if staff.compensation.paysPieces then payableLines w employee staff year month else []

/-- The rate of a line: that of its assignment, or the employee's default. -/
def lineRate (w : Workshop) (staff : WmsEmployee) (l : WmsProductionEntryLine) : ℕ :=
  ((w.assignments[l.assignment]?.bind (pieceRate staff)).map Prod.fst).getD 0

/-- What a salary takes from a production line. -/
structure PieceFigures where
  productionLine : ℕ
  quantity : ℕ
  rate : ℤ
  amount : ℤ
  deriving DecidableEq, Repr

/-- The figures of a line of a salary. -/
def WmsSalaryPieceLine.figures (p : WmsSalaryPieceLine) : PieceFigures where
  productionLine := p.productionLine
  quantity := p.quantity
  rate := p.appliedRate
  amount := p.lineAmount

/-- The figures of a production line: its quantity, its rate, and their product. -/
def lineFigures (w : Workshop) (staff : WmsEmployee) (e : ℕ × WmsProductionEntryLine) :
    PieceFigures where
  productionLine := e.1
  quantity := e.2.quantity
  rate := lineRate w staff e.2
  amount := lineRate w staff e.2 * e.2.quantity

/-- The lines of a salary. -/
def WmsSalary.pieceLines (s : WmsSalary) : List WmsSalaryPieceLine :=
  s.days.flatMap (·.pieceLines)

/-- The days of a salary count these lines, and each day adds its own up. -/
structure Counts (w : Workshop) (staff : WmsEmployee) (days : List WmsSalaryDay)
    (lines : List (ℕ × WmsProductionEntryLine)) : Prop where
  amounts : ∀ d ∈ days, d.dailyAmount = (d.pieceLines.map (·.lineAmount)).sum
  lines : ((days.flatMap (·.pieceLines)).map (·.figures)).Perm (lines.map (lineFigures w staff))

/-- The salary is what a calculation of it in this state gives. -/
structure SnapshotOf (w : Workshop) (staff : WmsEmployee) (s : WmsSalary) : Prop where
  employee : w.employees[s.employee]? = some staff
  fixed : s.fixedSalaryComponent = fixedComponent staff.compensation
  production : s.productionSalaryComponent = (s.days.map (·.dailyAmount)).sum
  gross : s.grossSalary = s.fixedSalaryComponent + s.productionSalaryComponent
  counts : Counts w staff s.days (countedLines w s.employee staff s.salaryYear s.salaryMonth)

/-! ## Piece lines and piece days -/

/-- An exact product needs no rounding. -/
lemma money_rate (rate quantity : ℕ) : money (dec rate * quantity) = rate * quantity := by
  have hexact : dec (rate : ℤ) * (quantity : ℚ) = dec ((rate : ℤ) * quantity) := by
    unfold dec
    push_cast
    ring
  rw [hexact, money_dec]

lemma pieceLine_ok {w : Workshop} {employee : ℕ} {staff : WmsEmployee}
    {e : ℕ × WmsProductionEntryLine} {p : WmsSalaryPieceLine}
    (h : pieceLine w employee staff e = .ok p) : p.figures = lineFigures w staff e := by
  unfold pieceLine at h
  simp only [except_bind_eq_ok, found_eq_ok, pure, Except.pure, Except.ok.injEq] at h
  obtain ⟨assignment, hassignment, -, -, ⟨rate, source⟩, hrate, order, -, rfl⟩ := h
  have hlineRate : lineRate w staff e.2 = rate := by
    rw [lineRate, hassignment, Option.bind_some, hrate, Option.map_some, Option.getD_some]
  simp only [WmsSalaryPieceLine.figures, lineFigures, hlineRate]
  rw [money_rate]

/-- The day of an entry. -/
structure DayOf (w : Workshop) (staff : WmsEmployee) (e : ℕ × WmsProductionEntry)
    (d : WmsSalaryDay) : Prop where
  date : d.salaryDate = e.2.productionDate
  amount : d.dailyAmount = (d.pieceLines.map (·.lineAmount)).sum
  lines : (d.pieceLines.map (·.figures)).Perm ((liveLines w e.1).map (lineFigures w staff))

lemma pieceDay_ok {w : Workshop} {employee : ℕ} {staff : WmsEmployee}
    {e : ℕ × WmsProductionEntry} {d : WmsSalaryDay}
    (h : pieceDay w employee staff e = .ok d) : DayOf w staff e d := by
  unfold pieceDay at h
  simp only [except_bind_eq_ok, pure, Except.pure, Except.ok.injEq] at h
  obtain ⟨lines, hlines, rfl⟩ := h
  refine ⟨rfl, rfl, ?_⟩
  show (lines.map (·.figures)).Perm _
  rw [map_eq_of_forall₂ (mapM_eq_ok.mp hlines) fun _ _ => pieceLine_ok]
  exact (List.perm_insertionSort _ _).map _

/-- The days of a list of entries. -/
lemma counts_of_days {w : Workshop} {staff : WmsEmployee}
    {entries : List (ℕ × WmsProductionEntry)} {days : List WmsSalaryDay}
    (h : List.Forall₂ (DayOf w staff) entries days) :
    Counts w staff days (entries.flatMap fun e => liveLines w e.1) := by
  constructor
  · intro d hd
    obtain ⟨e, -, hday⟩ := exists_of_forall₂_mem h hd
    exact hday.amount
  · induction h with
    | nil => rfl
    | cons hday _ ih =>
      rw [List.flatMap_cons, List.flatMap_cons, List.map_append, List.map_append]
      exact hday.lines.append ih

/-- Counting is about which lines there are, not about their order. -/
lemma Counts.perm {w : Workshop} {staff : WmsEmployee} {days : List WmsSalaryDay}
    {lines lines' : List (ℕ × WmsProductionEntryLine)} (h : Counts w staff days lines)
    (hperm : lines.Perm lines') : Counts w staff days lines' :=
  ⟨h.amounts, h.lines.trans (hperm.map _)⟩

lemma pieceBreakdown_ok {w : Workshop} {employee : ℕ} {staff : WmsEmployee} {year month : ℕ}
    {days : List WmsSalaryDay} (h : pieceBreakdown w employee staff year month = .ok days) :
    Counts w staff days (payableLines w employee staff year month) ∧
      (days.map (·.salaryDate)).Perm
        ((periodEntries w employee staff.joiningDate year month).map (·.2.productionDate)) := by
  have hdays := (mapM_eq_ok.mp h).imp fun _ _ => pieceDay_ok
  have hsort := List.perm_insertionSort
    (fun a b : ℕ × WmsProductionEntry => a.2.productionDate ≤ b.2.productionDate)
    (periodEntries w employee staff.joiningDate year month)
  constructor
  · exact (counts_of_days hdays).perm (hsort.flatMap_right _)
  · rw [map_eq_of_forall₂ hdays fun _ _ hday => hday.date]
    exact hsort.map _

/-! ## Hybrid days -/

/-- A list of dates that has the date of every piece finds each of them once. -/
lemma perm_filterMap_find {dates : List Date} {pieces : List WmsSalaryDay}
    (hdates : dates.Nodup) (hpieces : (pieces.map (·.salaryDate)).Nodup)
    (hall : ∀ p ∈ pieces, p.salaryDate ∈ dates) :
    (dates.filterMap fun date => pieces.find? fun p => p.salaryDate = date).Perm pieces := by
  have hdate : ∀ {date : Date} {p : WmsSalaryDay},
      (pieces.find? fun p => p.salaryDate = date) = some p → p.salaryDate = date := by
    intro date p hp
    simpa using List.find?_some hp
  refine (List.perm_ext_iff_of_nodup (hdates.filterMap fun a b p hp hp' => ?_)
    (List.Nodup.of_map _ hpieces)).mpr fun p => ?_
  · exact (hdate hp).symm.trans (hdate hp')
  · rw [List.mem_filterMap]
    constructor
    · rintro ⟨date, -, hp⟩
      exact List.mem_of_find?_eq_some hp
    · intro hp
      refine ⟨p.salaryDate, hall p hp, ?_⟩
      cases hfind : pieces.find? fun q => q.salaryDate = p.salaryDate with
      | none => simpa using List.find?_eq_none.mp hfind p hp
      | some q =>
        exact congrArg some (List.inj_on_of_nodup_map hpieces (List.mem_of_find?_eq_some hfind)
          hp (hdate hfind))

/-- A day of the calendar with the piece day it was merged with. -/
lemma mergeDay_ok {pieces : List WmsSalaryDay} {day merged : WmsSalaryDay}
    (h : mergeDay pieces day = .ok merged) (hempty : day.pieceLines = [])
    (hzero : day.dailyAmount = 0) :
    merged.pieceLines =
        ((pieces.find? fun p => p.salaryDate = day.salaryDate).map (·.pieceLines)).getD [] ∧
      merged.dailyAmount =
        ((pieces.find? fun p => p.salaryDate = day.salaryDate).map (·.dailyAmount)).getD 0 := by
  unfold mergeDay at h
  cases hfind : pieces.find? fun p => p.salaryDate = day.salaryDate with
  | none =>
    rw [hfind] at h
    obtain rfl := Except.ok.inj h
    exact ⟨hempty, hzero⟩
  | some piece =>
    rw [hfind] at h
    simp only [except_bind_eq_ok, pure, Except.pure, Except.ok.injEq] at h
    obtain ⟨-, -, rfl⟩ := h
    exact ⟨rfl, rfl⟩

lemma fixedDay_pieces (w : Workshop) (employee : ℕ) (staff : WmsEmployee) (date : Date) :
    (fixedDay w employee staff date).salaryDate = date ∧
      (fixedDay w employee staff date).pieceLines = [] ∧
      (fixedDay w employee staff date).dailyAmount = 0 := by
  unfold fixedDay
  split <;> exact ⟨rfl, rfl, rfl⟩

lemma nodup_salaryDates (first : Date) (last : ℕ) : (salaryDates first last).Nodup := by
  refine List.Nodup.map ?_ List.nodup_range'
  intro a b hab
  exact congrArg Date.day hab

lemma fixedBreakdown_dates (w : Workshop) (employee : ℕ) (staff : WmsEmployee)
    (year month : ℕ) :
    (fixedBreakdown w employee staff year month).map (·.salaryDate) =
      salaryDates (firstDate year month staff.joiningDate) (monthDays year month) := by
  unfold fixedBreakdown
  rw [List.map_map]
  exact (List.map_congr_left fun date _ => (fixedDay_pieces w employee staff date).1).trans
    (List.map_id _)

lemma counts_fixed (w : Workshop) (employee : ℕ) (staff : WmsEmployee) (year month : ℕ) :
    Counts w staff (fixedBreakdown w employee staff year month) [] := by
  have hday : ∀ d ∈ fixedBreakdown w employee staff year month,
      d.pieceLines = [] ∧ d.dailyAmount = 0 := by
    intro d hd
    obtain ⟨date, -, rfl⟩ := List.mem_map.mp hd
    exact (fixedDay_pieces w employee staff date).2
  refine ⟨fun d hd => ?_, ?_⟩
  · rw [(hday d hd).1, (hday d hd).2]
    rfl
  · rw [List.flatMap_eq_nil_iff.mpr fun d hd => (hday d hd).1]
    exact .nil

/-- No two entries of an employee have a date. -/
def EntriesUnique (w : Workshop) : Prop :=
  (w.entries.map fun e => (e.employee, e.productionDate)).Nodup

lemma nodup_periodEntries {w : Workshop} (h : EntriesUnique w) (employee : ℕ) (joining : Date)
    (year month : ℕ) :
    ((periodEntries w employee joining year month).map (·.2.productionDate)).Nodup := by
  have hsub : ((periodEntries w employee joining year month).map Prod.snd).Sublist w.entries := by
    refine (List.filter_sublist.map Prod.snd).trans ?_
    rw [map_snd_childrenOf]
    exact List.filter_sublist
  have hnodup := List.Nodup.sublist
    (hsub.map fun e : WmsProductionEntry => (e.employee, e.productionDate)) h
  rw [List.map_map] at hnodup
  refine List.Nodup.of_map (fun date => (employee, date)) ?_
  rw [List.map_map]
  refine (List.map_congr_left fun e he => ?_).symm ▸ hnodup
  have hemployee := (mem_childrenOf.mp (List.mem_of_mem_filter he)).2
  simp only [Function.comp_apply, hemployee]

/-- A calendar merged with the piece days counts what the piece days count. -/
lemma counts_hybrid {w : Workshop} (hunique : EntriesUnique w) {employee : ℕ}
    {staff : WmsEmployee} {year month : ℕ} {days : List WmsSalaryDay}
    (h : hybridBreakdown w employee staff year month = .ok days) :
    Counts w staff days (payableLines w employee staff year month) := by
  unfold hybridBreakdown at h
  simp only [except_bind_eq_ok, require_eq_ok, pure, Except.pure, Except.ok.injEq] at h
  obtain ⟨pieces, hpieces, merged, hmerged, -, hall, rfl⟩ := h
  obtain ⟨hcounts, hdates⟩ := pieceBreakdown_ok hpieces
  let dates := salaryDates (firstDate year month staff.joiningDate) (monthDays year month)
  let onDate := fun date : Date => pieces.find? fun p => p.salaryDate = date
  have hdays : List.Forall₂ (fun date (d : WmsSalaryDay) =>
      d.pieceLines = ((onDate date).map (·.pieceLines)).getD [] ∧
        d.dailyAmount = ((onDate date).map (·.dailyAmount)).getD 0) dates merged := by
    have hmerge := mapM_eq_ok.mp hmerged
    rw [fixedBreakdown, List.forall₂_map_left_iff] at hmerge
    refine hmerge.imp fun date d hd => ?_
    obtain ⟨hdate, hempty, hzero⟩ := fixedDay_pieces w employee staff date
    have hok := mergeDay_ok hd hempty hzero
    rwa [hdate] at hok
  have hfound : (dates.filterMap onDate).Perm pieces := by
    refine perm_filterMap_find (nodup_salaryDates _ _) ?_ fun p hp => ?_
    · exact hdates.nodup_iff.mpr (nodup_periodEntries hunique _ _ _ _)
    · have hin := List.all_eq_true.mp hall p hp
      rw [fixedBreakdown_dates] at hin
      exact List.contains_iff_mem.mp hin
  constructor
  · intro d hd
    obtain ⟨date, -, hlines, hamount⟩ := exists_of_forall₂_mem hdays hd
    rw [hlines, hamount]
    cases hdate : onDate date with
    | none => rfl
    | some piece => exact hcounts.amounts piece (List.mem_of_find?_eq_some hdate)
  · have hflat : merged.flatMap (·.pieceLines) =
        (dates.filterMap onDate).flatMap (·.pieceLines) := by
      clear hmerged hfound
      clear_value dates
      induction hdays with
      | nil => rfl
      | @cons date d _ _ hd _ ih =>
        rw [List.flatMap_cons, hd.1, ih]
        cases hdate : onDate date with
        | none => rw [List.filterMap_cons_none hdate]; rfl
        | some piece => rw [List.filterMap_cons_some hdate]; rfl
    rw [hflat]
    exact ((hfound.flatMap_right _).map _).trans hcounts.lines

/-! ## Calculating -/

lemma salaryBreakdown_ok {w : Workshop} (hunique : EntriesUnique w) {employee : ℕ}
    {staff : WmsEmployee} {year month : ℕ} {days : List WmsSalaryDay}
    (h : salaryBreakdown w employee staff year month = .ok days) :
    Counts w staff days (countedLines w employee staff year month) := by
  unfold salaryBreakdown at h
  unfold countedLines Compensation.paysPieces
  cases hcompensation : staff.compensation with
  | fixedSalary salary =>
    rw [hcompensation] at h
    obtain rfl := Except.ok.inj h
    exact counts_fixed w employee staff year month
  | perPiece rate =>
    rw [hcompensation] at h
    exact (pieceBreakdown_ok h).1
  | hybrid salary rate =>
    rw [hcompensation] at h
    exact counts_hybrid hunique h

/-- The salary of an employee and a month. -/
def WmsSalary.key (s : WmsSalary) : ℕ × ℕ × ℕ := (s.employee, s.salaryYear, s.salaryMonth)

/-- An accepted calculation: a snapshot of this state, in place of the draft that was there. -/
structure CalculationAccepted (w : Workshop) (employee : ℕ) (salaryYear salaryMonth : RawInt)
    (existing : Option ℕ) (row : WmsSalary) : Prop where
  employee : row.employee = employee
  period : salaryPeriod salaryYear salaryMonth = .ok (row.salaryYear, row.salaryMonth)
  draft : row.status = .calculated
  found : existing = w.salaries.findIdx? fun s => s.key = row.key
  replaces : ∀ pk old, existing = some pk → w.salaries[pk]? = some old → old.status ≠ .finalized
  snapshot : ∃ staff, SnapshotOf w staff row

lemma checkCalculation_ok {w : Workshop} (hunique : EntriesUnique w) {c : WmsCall} {employee : ℕ}
    {salaryYear salaryMonth : RawInt} {existing : Option ℕ} {row : WmsSalary}
    (h : checkCalculation c employee salaryYear salaryMonth w = .ok (existing, row)) :
    CalculationAccepted w employee salaryYear salaryMonth existing row := by
  unfold checkCalculation at h
  simp only [except_bind_eq_ok, found_eq_ok, require_eq_ok, pure, Except.pure, Except.ok.injEq,
    Prod.mk.injEq] at h
  obtain ⟨access, -, ⟨year, month⟩, hperiod, staff, hstaff, -, -, -, hdraft, days, hdays, -, -,
    snapshots, -, rfl, rfl⟩ := h
  refine ⟨rfl, hperiod, rfl, ?_, ?_, staff, hstaff, rfl, rfl, rfl, ?_⟩
  · unfold salaryOf
    congr 1
    funext s
    simp [WmsSalary.key, Bool.and_assoc]
  · intro pk old hexisting hold
    simpa [hexisting, hold] using hdraft
  · exact salaryBreakdown_ok hunique hdays

/-- The gross of a snapshot: the fixed part and rate times quantity over the lines it counts. -/
lemma SnapshotOf.gross_eq {w : Workshop} {staff : WmsEmployee} {s : WmsSalary}
    (h : SnapshotOf w staff s) :
    s.grossSalary = fixedComponent staff.compensation +
      ((countedLines w s.employee staff s.salaryYear s.salaryMonth).map fun e =>
        (lineRate w staff e.2 * e.2.quantity : ℤ)).sum := by
  have hdays : (s.days.map (·.dailyAmount)).sum =
      ((s.days.flatMap (·.pieceLines)).map (·.lineAmount)).sum := by
    have hamounts := h.counts.amounts
    generalize s.days = days at hamounts
    induction days with
    | nil => rfl
    | cons d days ih =>
      rw [List.map_cons, List.sum_cons, List.flatMap_cons, List.map_append, List.sum_append,
        hamounts d List.mem_cons_self, ih fun d' hd' => hamounts d' (List.mem_cons_of_mem d hd')]
  have hlines := (h.counts.lines.map PieceFigures.amount).sum_eq
  rw [List.map_map, List.map_map] at hlines
  rw [h.gross, h.fixed, h.production, hdays]
  exact congrArg _ hlines

/-! ## Entries and lines stay where they are -/

/-- Entries keep their employee and date, and lines their entry. -/
structure ProductionKept (w t : Workshop) : Prop where
  entries : (w.entries.map fun e => (e.employee, e.productionDate)) <+:
    t.entries.map fun e => (e.employee, e.productionDate)
  lines : w.lines.map (·.entry) <+: t.lines.map (·.entry)

lemma ProductionKept.of_eq {w t : Workshop} (hentries : t.entries = w.entries)
    (hlines : t.lines = w.lines) : ProductionKept w t := by
  constructor
  · exact isPrefix_of_eq (congrArg (List.map _) hentries)
  · exact isPrefix_of_eq (congrArg (List.map _) hlines)

lemma entries_correctedLines (entry : ℕ) (originals : List (ℕ × WmsProductionEntryLine))
    (rows : List CorrectedRow) (lines : List WmsProductionEntryLine) :
    lines.map (·.entry) <+: (correctedLines entry originals rows lines).map (·.entry) := by
  have hsaved : lines.map (·.entry) <+:
      (rows.foldl (saveCorrectedRow entry) lines).map (·.entry) := by
    induction rows generalizing lines with
    | nil => exact List.prefix_rfl
    | cons r rows ih =>
      refine List.IsPrefix.trans ?_ (ih (saveCorrectedRow entry lines r))
      unfold saveCorrectedRow
      split
      · exact isPrefix_of_eq
          (map_modify_of_eq (f := r.rewrite) (g := (·.entry)) (fun _ => rfl) _ _)
      · rw [List.map_append]
        exact List.prefix_append _ _
  have hremoved : ∀ (es : List (ℕ × WmsProductionEntryLine)) (saved : List _),
      (es.foldl removeLine saved).map (·.entry) = saved.map (·.entry) := by
    intro es
    induction es with
    | nil => exact fun saved => rfl
    | cons e es ih =>
      intro saved
      rw [List.foldl_cons, ih, removeLine]
      exact map_modify_of_eq (f := fun l : WmsProductionEntryLine => { l with isRemoved := true })
        (fun _ => rfl) saved e.1
  unfold correctedLines
  rw [hremoved]
  exact hsaved

lemma map_set_of_eq {α β : Type} {g : α → β} {rows : List α} {pk : ℕ} {a b : α}
    (ha : rows[pk]? = some a) (hb : g b = g a) : (rows.set pk b).map g = rows.map g := by
  refine List.ext_getElem? fun j => ?_
  rw [List.getElem?_map, List.getElem?_map, List.getElem?_set]
  by_cases hj : pk = j
  · subst hj
    rw [if_pos rfl, if_pos (List.getElem?_eq_some_iff.mp ha).1, ha, Option.map_some,
      Option.map_some, hb]
  · rw [if_neg hj]

lemma productionKept_step (w : Workshop) (op : WorkshopOp) :
    ProductionKept w (Workshop.step w op) := by
  have hstep := workshopStep w op
  generalize Workshop.step w op = t at hstep
  cases hstep with
  | master h _ =>
    obtain ⟨-, hrest⟩ := Prod.mk.inj h.ledger
    obtain ⟨hentries, hrest⟩ := Prod.mk.inj hrest
    exact .of_eq hentries (Prod.mk.inj hrest).1
  | produced _ =>
    constructor
    · show _ <+: (w.entries ++ _).map _
      rw [List.map_append]
      exact List.prefix_append _ _
    · show _ <+: (w.lines ++ _).map _
      rw [List.map_append]
      exact List.prefix_append _ _
  | corrected h =>
    obtain ⟨row, haccepted⟩ := checkCorrection_ok h
    refine ⟨?_, entries_correctedLines _ _ _ _⟩
    have hsame := Prod.ext haccepted.employee haccepted.date
      (x := (_, _)) (y := (_, _))
    exact isPrefix_of_eq (map_set_of_eq haccepted.found hsame)
  | finished _ hrest =>
    rw [hrest]
    exact .of_eq rfl rfl
  | _ => exact .of_eq rfl rfl

/-- Entries stay unique. -/
lemma EntriesUnique.step {w : Workshop} (h : EntriesUnique w) (op : WorkshopOp) :
    EntriesUnique (Workshop.step w op) := by
  have hstep := workshopStep w op
  generalize Workshop.step w op = t at hstep
  cases hstep with
  | master hmaster _ =>
    obtain ⟨-, hrest⟩ := Prod.mk.inj hmaster.ledger
    unfold EntriesUnique
    rw [(Prod.mk.inj hrest).1]
    exact h
  | produced hcheck =>
    obtain ⟨-, -, hfree⟩ := checkProductionEntry_ok hcheck
    show ((w.entries ++ _).map _).Nodup
    rw [List.map_append, List.nodup_append]
    refine ⟨h, List.nodup_singleton _, ?_⟩
    intro a ha b hb
    obtain ⟨e, he, rfl⟩ := List.mem_map.mp ha
    obtain rfl := List.mem_singleton.mp hb
    intro heq
    obtain ⟨hemployee, hdate⟩ := Prod.mk.inj heq
    exact hfree e he hemployee hdate
  | corrected hcheck =>
    obtain ⟨row, haccepted⟩ := checkCorrection_ok hcheck
    have hsame := Prod.ext haccepted.employee haccepted.date (x := (_, _)) (y := (_, _))
    unfold EntriesUnique
    rw [map_set_of_eq haccepted.found hsame]
    exact h
  | finished _ hrest =>
    rw [hrest]
    exact h
  | _ => exact h

/-! ## The lines of a salary -/

/-- No two salaries are of an employee and a month. -/
def SalariesUnique (w : Workshop) : Prop := (w.salaries.map (·.key)).Nodup

/-- The production line belongs to the employee and the month of the salary. -/
def BelongsTo (w : Workshop) (s : WmsSalary) (line : ℕ) : Prop :=
  ∃ l e, w.lines[line]? = some l ∧ w.entries[l.entry]? = some e ∧
    (e.employee, e.productionDate.year, e.productionDate.month) = s.key

/-- A salary counts lines of its employee and month, each once. -/
structure LinesSound (w : Workshop) (s : WmsSalary) : Prop where
  belong : ∀ p ∈ s.pieceLines, BelongsTo w s p.productionLine
  once : (s.pieceLines.map (·.productionLine)).Nodup

lemma BelongsTo.mono {w t : Workshop} {s : WmsSalary} {line : ℕ} (h : BelongsTo w s line)
    (hkept : ProductionKept w t) : BelongsTo t s line := by
  obtain ⟨l, e, hl, he, hkey⟩ := h
  have hentry : (w.lines.map (·.entry))[line]? = some l.entry := by
    rw [List.getElem?_map, hl, Option.map_some]
  have hidentity : (w.entries.map fun e => (e.employee, e.productionDate))[l.entry]? =
      some (e.employee, e.productionDate) := by
    rw [List.getElem?_map, he, Option.map_some]
  have hl' := getElem?_of_prefix hkept.lines hentry
  have he' := getElem?_of_prefix hkept.entries hidentity
  rw [List.getElem?_map, Option.map_eq_some_iff] at hl' he'
  obtain ⟨l', hl', hentry⟩ := hl'
  obtain ⟨e', he', heq⟩ := he'
  obtain ⟨hemployee, hdate⟩ := Prod.mk.inj heq
  refine ⟨l', e', hl', ?_, ?_⟩
  · rw [hentry, he']
  · rw [hemployee, hdate, hkey]

lemma LinesSound.mono {w t : Workshop} {s : WmsSalary} (h : LinesSound w s)
    (hkept : ProductionKept w t) : LinesSound t s :=
  ⟨fun p hp => (h.belong p hp).mono hkept, h.once⟩

/-- A line belongs to the salary of one employee and month. -/
lemma BelongsTo.key_eq {w : Workshop} {s s' : WmsSalary} {line : ℕ} (h : BelongsTo w s line)
    (h' : BelongsTo w s' line) : s.key = s'.key := by
  obtain ⟨l, e, hl, he, hkey⟩ := h
  obtain ⟨l', e', hl', he', hkey'⟩ := h'
  obtain rfl := Option.some.inj (hl.symm.trans hl')
  obtain rfl := Option.some.inj (he.symm.trans he')
  exact hkey.symm.trans hkey'

/-- A date of the period is in its month. -/
lemma InPeriod.month {year month : ℕ} {joining date : Date}
    (h : InPeriod year month joining date) : date.year = year ∧ date.month = month := by
  obtain ⟨hfirst, hlast⟩ := h
  unfold firstDate at hfirst
  rw [periodEnd, Date.le_iff] at hlast
  split at hfirst
  · rename_i hjoining
    rw [periodStart, Date.le_iff] at hjoining
    rw [Date.le_iff] at hfirst
    dsimp only at hjoining hlast
    omega
  · rw [periodStart, Date.le_iff] at hfirst
    dsimp only at hfirst hlast
    omega

lemma mem_payableLines {w : Workshop} {employee : ℕ} {staff : WmsEmployee} {year month : ℕ}
    {e : ℕ × WmsProductionEntryLine} (h : e ∈ payableLines w employee staff year month) :
    w.lines[e.1]? = some e.2 ∧ ∃ entry, w.entries[e.2.entry]? = some entry ∧
      entry.employee = employee ∧ entry.productionDate.year = year ∧
      entry.productionDate.month = month := by
  obtain ⟨⟨id, entry⟩, hentry, he⟩ := List.mem_flatMap.mp h
  obtain ⟨hchild, hperiod⟩ := List.mem_filter.mp hentry
  obtain ⟨hfound, hemployee⟩ := mem_childrenOf.mp hchild
  obtain ⟨hline, rfl, -⟩ := mem_liveLines.mp he
  exact ⟨hline, entry, hfound, hemployee, (of_decide_eq_true hperiod).month⟩

lemma nodup_payableLines (w : Workshop) (employee : ℕ) (staff : WmsEmployee) (year month : ℕ) :
    ((payableLines w employee staff year month).map Prod.fst).Nodup := by
  have hpairs : (payableLines w employee staff year month).Nodup := by
    refine List.nodup_flatMap.mpr ⟨fun e _ => ?_, ?_⟩
    · exact List.Nodup.of_map _ (nodup_keys_liveLines w e.1)
    · have hkeys : ((periodEntries w employee staff.joiningDate year month).map Prod.fst).Nodup :=
        (nodup_keys_childrenOf (·.employee) w.entries employee).sublist
          (List.filter_sublist.map Prod.fst)
      refine (List.pairwise_map.mp hkeys).imp fun {e e'} hne => ?_
      intro l hl hl'
      exact hne ((mem_liveLines.mp hl).2.1.symm.trans (mem_liveLines.mp hl').2.1)
  refine List.Nodup.map_on ?_ hpairs
  intro a ha b hb hab
  have hsame := (mem_payableLines ha).1
  rw [hab, (mem_payableLines hb).1] at hsame
  exact Prod.ext hab (Option.some.inj hsame).symm

lemma SnapshotOf.linesSound {w : Workshop} {staff : WmsEmployee} {s : WmsSalary}
    (h : SnapshotOf w staff s) : LinesSound w s := by
  have hkeys : (s.pieceLines.map (·.productionLine)).Perm
      ((countedLines w s.employee staff s.salaryYear s.salaryMonth).map Prod.fst) := by
    have := h.counts.lines.map PieceFigures.productionLine
    rwa [List.map_map, List.map_map] at this
  have hsub : ∀ e ∈ countedLines w s.employee staff s.salaryYear s.salaryMonth,
      e ∈ payableLines w s.employee staff s.salaryYear s.salaryMonth := by
    intro e he
    unfold countedLines at he
    split at he
    · exact he
    · exact absurd he List.not_mem_nil
  constructor
  · intro p hp
    have hmem := hkeys.subset (List.mem_map_of_mem hp)
    obtain ⟨e, he, hkey⟩ := List.mem_map.mp hmem
    obtain ⟨hline, entry, hentry, hemployee, hyear, hmonth⟩ := mem_payableLines (hsub e he)
    refine ⟨e.2, entry, ?_, hentry, ?_⟩
    · rw [← hkey, hline]
    · rw [WmsSalary.key, hemployee, hyear, hmonth]
  · refine hkeys.nodup_iff.mpr ?_
    unfold countedLines
    split
    · exact nodup_payableLines _ _ _ _ _
    · exact List.nodup_nil

/-! ## One request -/

/-- What holds of the salaries of a workshop. -/
structure PayrollKept (w : Workshop) : Prop where
  entries : EntriesUnique w
  salaries : SalariesUnique w
  sound : ∀ s ∈ w.salaries, LinesSound w s

/-- The same salaries over production that was kept. -/
lemma PayrollKept.of_same {w t : Workshop} (h : PayrollKept w) (hentries : EntriesUnique t)
    (hkept : ProductionKept w t) (hsalaries : t.salaries = w.salaries) : PayrollKept t := by
  refine ⟨hentries, ?_, fun s hs => ?_⟩
  · unfold SalariesUnique
    rw [hsalaries]
    exact h.salaries
  · rw [hsalaries] at hs
    exact (h.sound s hs).mono hkept

/-- A new salary is of an employee and a month that had none. -/
lemma key_not_mem {w : Workshop} {employee : ℕ} {year month : RawInt} {row : WmsSalary}
    (h : CalculationAccepted w employee year month none row) :
    ∀ s ∈ w.salaries, s.key ≠ row.key := by
  intro s hs heq
  have hnone := List.findIdx?_eq_none_iff.mp h.found.symm s hs
  simp [heq] at hnone

/-- A recalculated salary is of the employee and the month of the row it replaces. -/
lemma key_replaced {w : Workshop} {employee pk : ℕ} {year month : RawInt} {row : WmsSalary}
    (h : CalculationAccepted w employee year month (some pk) row) :
    ∃ old, w.salaries[pk]? = some old ∧ old.key = row.key ∧ old.status ≠ .finalized := by
  obtain ⟨hlt, hkey, -⟩ := List.findIdx?_eq_some_iff_getElem.mp h.found.symm
  have hold := List.getElem?_eq_getElem hlt
  exact ⟨w.salaries[pk], hold, by simpa using hkey, h.replaces pk _ rfl hold⟩

lemma PayrollKept.step {w : Workshop} (h : PayrollKept w) (op : WorkshopOp) :
    PayrollKept (Workshop.step w op) := by
  have hentries := h.entries.step op
  have hkept := productionKept_step w op
  have hstep := workshopStep w op
  generalize Workshop.step w op = t at hstep hentries hkept
  cases hstep with
  | master hmaster _ =>
    obtain ⟨-, hrest⟩ := Prod.mk.inj hmaster.ledger
    obtain ⟨-, hrest⟩ := Prod.mk.inj hrest
    exact h.of_same hentries hkept (Prod.mk.inj hrest).2
  | finished _ hrest =>
    exact h.of_same hentries hkept (by rw [hrest])
  | @calculated c employee year month row hcheck =>
    have haccepted := checkCalculation_ok h.entries hcheck
    obtain ⟨staff, hsnapshot⟩ := haccepted.snapshot
    refine ⟨hentries, ?_, fun s hs => ?_⟩
    · show ((w.salaries ++ [row]).map (·.key)).Nodup
      rw [List.map_append, List.nodup_append]
      refine ⟨h.salaries, List.nodup_singleton _, ?_⟩
      intro a ha b hb
      obtain ⟨s, hs, rfl⟩ := List.mem_map.mp ha
      obtain rfl := List.mem_singleton.mp hb
      exact key_not_mem haccepted s hs
    · rcases List.mem_append.mp hs with hs | hs
      · exact (h.sound s hs).mono hkept
      · rw [List.mem_singleton.mp hs]
        exact hsnapshot.linesSound.mono hkept
  | @recalculated c employee year month pk row hcheck =>
    have haccepted := checkCalculation_ok h.entries hcheck
    obtain ⟨staff, hsnapshot⟩ := haccepted.snapshot
    obtain ⟨old, hold, hkey, -⟩ := key_replaced haccepted
    refine ⟨hentries, ?_, fun s hs => ?_⟩
    · show ((w.salaries.set pk row).map (·.key)).Nodup
      rw [map_set_of_eq hold hkey.symm]
      exact h.salaries
    · rcases List.mem_or_eq_of_mem_set hs with hs | rfl
      · exact (h.sound s hs).mono hkept
      · exact hsnapshot.linesSound.mono hkept
  | @finalized c salary hcheck =>
    refine ⟨hentries, ?_, fun s hs => ?_⟩
    · show ((w.salaries.modify salary _).map (·.key)).Nodup
      rw [map_modify_of_eq (f := WmsSalary.finalize c) (g := WmsSalary.key) fun _ => rfl]
      exact h.salaries
    · have hsound := forall_mem_modify (f := WmsSalary.finalize c) h.sound
        (fun s hs => ⟨hs.belong, hs.once⟩) salary
      exact (hsound s hs).mono hkept
  | _ => exact h.of_same hentries hkept rfl

/-- No production line is in two salaries, or twice in one. -/
lemma PayrollKept.nodup_lines {w : Workshop} (h : PayrollKept w) :
    ((w.salaries.flatMap (·.pieceLines)).map (·.productionLine)).Nodup := by
  rw [List.map_flatMap]
  refine List.nodup_flatMap.mpr ⟨fun s hs => (h.sound s hs).once, ?_⟩
  have hkeys := List.Pairwise.and_mem.mp (List.pairwise_map.mp h.salaries)
  refine hkeys.imp fun {s s'} ⟨hs, hs', hne⟩ => ?_
  intro line hline hline'
  obtain ⟨p, hp, rfl⟩ := List.mem_map.mp hline
  obtain ⟨p', hp', heq⟩ := List.mem_map.mp hline'
  have hbelongs' := (h.sound s' hs').belong p' hp'
  rw [heq] at hbelongs'
  exact hne (((h.sound s hs).belong p hp).key_eq hbelongs')

/-- A final salary stays as it is. -/
lemma final_step {w : Workshop} (h : PayrollKept w) (op : WorkshopOp) {pk : ℕ} {s : WmsSalary}
    (hs : w.salaries[pk]? = some s) (hfinal : s.status = .finalized) :
    (Workshop.step w op).salaries[pk]? = some s := by
  have hstep := workshopStep w op
  generalize Workshop.step w op = t at hstep
  cases hstep with
  | master hmaster _ =>
    obtain ⟨-, hrest⟩ := Prod.mk.inj hmaster.ledger
    obtain ⟨-, hrest⟩ := Prod.mk.inj hrest
    rw [(Prod.mk.inj hrest).2]
    exact hs
  | finished _ hrest =>
    rw [hrest]
    exact hs
  | calculated => exact getElem?_of_prefix (List.prefix_append _ _) hs
  | @recalculated c employee year month pk' row hcheck =>
    obtain ⟨old, hold, -, hdraft⟩ := key_replaced (checkCalculation_ok h.entries hcheck)
    have hne : pk' ≠ pk := by
      rintro rfl
      obtain rfl := Option.some.inj (hs.symm.trans hold)
      exact hdraft hfinal
    show (w.salaries.set pk' row)[pk]? = some s
    rw [List.getElem?_set_ne hne]
    exact hs
  | @finalized c salary hcheck =>
    unfold checkFinalization at hcheck
    simp only [except_bind_eq_ok, found_eq_ok, require_eq_ok, decide_eq_true_eq] at hcheck
    obtain ⟨access, -, row, hrow, -, -, hdraft⟩ := hcheck
    have hne : salary ≠ pk := by
      rintro rfl
      obtain rfl := Option.some.inj (hs.symm.trans hrow)
      rw [hfinal] at hdraft
      cases hdraft
    show (w.salaries.modify salary _)[pk]? = some s
    rw [List.getElem?_modify_ne _ _ hne]
    exact hs
  | _ => exact hs

/-! ## The last calculation -/

/-- The request calculates the salary. -/
def WorkshopOp.Calculates (op : WorkshopOp) (s : WmsSalary) : Prop :=
  ∃ c year month, op = .calculateSalary c s.employee year month ∧
    salaryPeriod year month = .ok (s.salaryYear, s.salaryMonth)

/-- The request at this position is the last accepted calculation of the salary, and the salary
is its snapshot. -/
structure LastCalculation (start : Workshop) (ops : List WorkshopOp) (s : WmsSalary)
    (staff : WmsEmployee) (n : ℕ) : Prop where
  request : ∃ op, ops[n]? = some op ∧ op.Calculates s
  snapshot : SnapshotOf (Workshop.run start (ops.take n)) staff s
  last : ∀ m op, n < m → ops[m]? = some op → op.Calculates s →
    ∃ e, op.service.run (Workshop.run start (ops.take m)) = .error e

section Last

variable {start : Workshop} {ops : List WorkshopOp} {s : WmsSalary} {staff : WmsEmployee} {n : ℕ}

lemma LastCalculation.lt_length (h : LastCalculation start ops s staff n) : n < ops.length := by
  obtain ⟨op, hop, -⟩ := h.request
  exact (List.getElem?_eq_some_iff.mp hop).1

/-- A later request that is no accepted calculation of the salary leaves it the last one. -/
lemma LastCalculation.append (h : LastCalculation start ops s staff n) {op : WorkshopOp}
    (hop : op.Calculates s → ∃ e, op.service.run (Workshop.run start ops) = .error e) :
    LastCalculation start (ops ++ [op]) s staff n := by
  have hlt := h.lt_length
  refine ⟨?_, ?_, ?_⟩
  · obtain ⟨op', hop', hcalculates⟩ := h.request
    exact ⟨op', getElem?_of_prefix (List.prefix_append _ _) hop', hcalculates⟩
  · rw [List.take_append_of_le_length hlt.le]
    exact h.snapshot
  · intro m op' hm hop' hcalculates
    rcases getElem?_concat_eq_some.mp hop' with hold | ⟨rfl, rfl⟩
    · rw [List.take_append_of_le_length (List.getElem?_eq_some_iff.mp hold).1.le]
      exact h.last m op' hm hold hcalculates
    · rw [List.take_left]
      exact hop hcalculates

/-- Nothing a snapshot or a calculation says of a salary is about its status. -/
lemma LastCalculation.finalize (h : LastCalculation start ops s staff n) (c : WmsCall) :
    LastCalculation start ops (s.finalize c) staff n where
  request := h.request
  snapshot := ⟨h.snapshot.employee, h.snapshot.fixed, h.snapshot.production, h.snapshot.gross,
    h.snapshot.counts⟩
  last := h.last

/-- An accepted calculation is the last one so far. -/
lemma lastCalculation_new {op : WorkshopOp} (hop : op.Calculates s)
    (hsnapshot : SnapshotOf (Workshop.run start ops) staff s) :
    LastCalculation start (ops ++ [op]) s staff ops.length := by
  refine ⟨⟨op, List.getElem?_concat_length, hop⟩, ?_, ?_⟩
  · rw [List.take_left]
    exact hsnapshot
  · intro m op' hm hop' _
    have hlt := (List.getElem?_eq_some_iff.mp hop').1
    simp only [List.length_append, List.length_singleton] at hlt
    omega

end Last

/-- The tables before the first salary. -/
structure PayrollBeginning where
  tables : Workshop := {}
  /-- `uniq_wms_production_employee_date`. -/
  entries : EntriesUnique tables
  salaries : tables.salaries = []

/-- A business without records. -/
instance : Inhabited PayrollBeginning where
  default := { tables := {}, entries := List.nodup_nil, salaries := rfl }

lemma PayrollBeginning.kept (b : PayrollBeginning) (ops : List WorkshopOp) :
    PayrollKept (Workshop.run b.tables ops) := by
  refine Trace.invariant (I := PayrollKept) (fun w op h => h.step op) ⟨b.entries, ?_, ?_⟩ ops
  · rw [SalariesUnique, b.salaries]
    exact List.nodup_nil
  · intro s hs
    rw [b.salaries] at hs
    exact absurd hs List.not_mem_nil

/-- Every salary has a last calculation. -/
lemma exists_lastCalculation (b : PayrollBeginning) (ops : List WorkshopOp) :
    ∀ s ∈ (Workshop.run b.tables ops).salaries,
      ∃ n staff, LastCalculation b.tables ops s staff n := by
  induction ops using List.reverseRecOn with
  | nil =>
    intro s hs
    rw [show (Workshop.run b.tables []).salaries = b.tables.salaries from rfl, b.salaries] at hs
    exact absurd hs List.not_mem_nil
  | append_singleton ops op ih =>
    intro s hs
    have hkept := b.kept ops
    rw [Workshop.run, Trace.run_append, ← Workshop.run] at hs
    change s ∈ (Workshop.step (Workshop.run b.tables ops) op).salaries at hs
    have hstep := workshopStep (Workshop.run b.tables ops) op
    generalize Workshop.step (Workshop.run b.tables ops) op = t at hs hstep
    -- a salary that was there, when the request does not calculate it
    have hold : s ∈ (Workshop.run b.tables ops).salaries →
        (op.Calculates s → ∃ e, op.service.run (Workshop.run b.tables ops) = .error e) →
        ∃ n staff, LastCalculation b.tables (ops ++ [op]) s staff n := by
      intro hmem hop
      obtain ⟨n, staff, hlast⟩ := ih s hmem
      exact ⟨n, staff, hlast.append hop⟩
    cases hstep with
    | refused herror => exact hold hs fun _ => ⟨_, herror⟩
    | master hmaster hop =>
      obtain ⟨-, hrest⟩ := Prod.mk.inj hmaster.ledger
      obtain ⟨-, hrest⟩ := Prod.mk.inj hrest
      rw [(Prod.mk.inj hrest).2] at hs
      exact hold hs fun ⟨c, year, month, heq, _⟩ => absurd heq (hop c _ year month)
    | finished _ hrest =>
      rw [hrest] at hs
      exact hold hs fun ⟨_, _, _, heq, _⟩ => nomatch heq
    | @calculated c employee year month row hcheck =>
      have haccepted := checkCalculation_ok hkept.entries hcheck
      obtain ⟨staff, hsnapshot⟩ := haccepted.snapshot
      rcases List.mem_append.mp hs with hs | hs
      · refine hold hs ?_
        rintro ⟨c', year', month', heq, hperiod⟩
        cases heq
        have hsame := Except.ok.inj (hperiod.symm.trans haccepted.period)
        refine absurd ?_ (key_not_mem haccepted s hs)
        rw [WmsSalary.key, WmsSalary.key, haccepted.employee, hsame]
      · obtain rfl := List.mem_singleton.mp hs
        refine ⟨ops.length, staff, lastCalculation_new ⟨c, year, month, ?_, haccepted.period⟩
          hsnapshot⟩
        rw [haccepted.employee]
    | @recalculated c employee year month pk row hcheck =>
      have haccepted := checkCalculation_ok hkept.entries hcheck
      obtain ⟨staff, hsnapshot⟩ := haccepted.snapshot
      obtain ⟨old, hfound, hkey, -⟩ := key_replaced haccepted
      obtain ⟨j, hj⟩ := List.mem_iff_getElem?.mp hs
      change ((Workshop.run b.tables ops).salaries.set pk row)[j]? = some s at hj
      by_cases hpk : pk = j
      · subst hpk
        rw [List.getElem?_set_self (List.getElem?_eq_some_iff.mp hfound).1] at hj
        obtain rfl := Option.some.inj hj
        refine ⟨ops.length, staff, lastCalculation_new ⟨c, year, month, ?_, haccepted.period⟩
          hsnapshot⟩
        rw [haccepted.employee]
      · rw [List.getElem?_set_ne hpk] at hj
        refine hold (List.mem_of_getElem? hj) ?_
        rintro ⟨c', year', month', heq, hperiod⟩
        cases heq
        have hsame := Except.ok.inj (hperiod.symm.trans haccepted.period)
        have hkeys : s.key = old.key := by
          rw [hkey, WmsSalary.key, WmsSalary.key, haccepted.employee, hsame]
        exact absurd (pk_unique hkept.salaries hfound hj hkeys.symm) hpk
    | @finalized c salary hcheck =>
      obtain ⟨j, hj⟩ := List.mem_iff_getElem?.mp hs
      obtain ⟨before, hbefore, heq⟩ := getElem?_modify_eq_some.mp hj
      obtain ⟨n, staff, hlast⟩ := ih before (List.mem_of_getElem? hbefore)
      have happend : LastCalculation b.tables (ops ++ [.finalizeSalary c salary]) before staff n :=
        hlast.append fun ⟨_, _, _, hop, _⟩ => nomatch hop
      split at heq
      · subst heq
        exact ⟨n, staff, happend.finalize c⟩
      · subst heq
        exact ⟨n, staff, happend⟩
    | _ => exact hold hs fun ⟨_, _, _, heq, _⟩ => nomatch heq

/-! ## Every run -/

/-- Over every run: the gross of a salary is the fixed part plus rate times quantity over the
production it counts, as that production was at the last accepted calculation of the salary; no
production line is counted in two salaries or twice in one; and a final salary, with its days and
lines, stays as it is. -/
theorem payroll_follows_last_calculation (start : PayrollBeginning) (ops : List WorkshopOp) :
    (∀ s ∈ (Workshop.run start.tables ops).salaries, ∃ n staff,
      LastCalculation start.tables ops s staff n ∧
        s.grossSalary = fixedComponent staff.compensation +
          ((countedLines (Workshop.run start.tables (ops.take n)) s.employee staff s.salaryYear
            s.salaryMonth).map fun e =>
              (lineRate (Workshop.run start.tables (ops.take n)) staff e.2 * e.2.quantity :
                ℤ)).sum) ∧
    (((Workshop.run start.tables ops).salaries.flatMap (·.pieceLines)).map
      (·.productionLine)).Nodup ∧
    ∀ n (pk : ℕ) (s : WmsSalary), (Workshop.run start.tables (ops.take n)).salaries[pk]? = some s →
      s.status = .finalized → (Workshop.run start.tables ops).salaries[pk]? = some s := by
  refine ⟨fun s hs => ?_, (start.kept ops).nodup_lines, fun n pk s hs hfinal => ?_⟩
  · obtain ⟨n, staff, hlast⟩ := exists_lastCalculation start ops s hs
    exact ⟨n, staff, hlast, hlast.snapshot.gross_eq⟩
  · -- from the state after `n` requests on, the final row is kept together with the invariant
    have hrest := @Trace.invariant _ _ Workshop.step _
      (fun w => PayrollKept w ∧ w.salaries[pk]? = some s)
      (fun w op h => ⟨h.1.step op, final_step h.1 op h.2 hfinal⟩) ⟨start.kept (ops.take n), hs⟩
      (ops.drop n)
    rw [Workshop.run, ← Trace.run_append, List.take_append_drop] at hrest
    exact hrest.2

/-- A member who may do everything. -/
def fullAccess : WmsCall where
  user := 0
  access := some { hasPerm := fun _ => true, evaluate := fun _ => .ok () }
  now := 0

/-- An employee with a piece rate of 1, an order of ten pieces, and an entry of three. -/
def threePieces : List WorkshopOp := [
  .saveLocation none {},
  .saveCategory none {},
  .saveEmployee none
    { location := 0, joiningDate := ⟨2024, 1, 1⟩, compensation := .perPiece 1000 },
  .saveAssignment 0 0 none none,
  .createOrderBatch fullAccess 0 ⟨2024, 5, 1⟩ [some ⟨['A'], some 10⟩],
  .createProductionEntry fullAccess 0 0 ⟨2024, 5, 2⟩ (some 3) []
    [some { order := some 0, assignment := some 0, quantity := some 3 }]]

/-- The salary is calculated, the entry corrected to five pieces, and the salary finalised. -/
def finalizedStale : List WorkshopOp := threePieces ++ [
  .calculateSalary fullAccess 0 (some 2024) (some 5),
  .correctProductionEntry fullAccess 0 (some 5) [] none (some [(0, some 5)]) ['x'],
  .finalizeSalary fullAccess 0]

/-- A salary can be final with a gross that is not the fixed part plus rate times quantity over
the production there is when it is finalised: three pieces are paid, five were made. -/
theorem stale_salary_finalized :
    ((Workshop.run {} finalizedStale).salaries.map fun s =>
      (s.status, s.grossSalary, s.pieceLines.map (·.quantity))) =
        [(.finalized, 3000, [3])] ∧
    (Workshop.run {} finalizedStale).lines.map (·.quantity) = [5] ∧
    ¬ ∀ s ∈ (Workshop.run {} finalizedStale).salaries,
      ∀ staff ∈ (Workshop.run {} finalizedStale).employees[s.employee]?,
        s.grossSalary = fixedComponent staff.compensation +
          ((countedLines (Workshop.run {} finalizedStale) s.employee staff s.salaryYear
            s.salaryMonth).map fun e =>
              (lineRate (Workshop.run {} finalizedStale) staff e.2 * e.2.quantity : ℤ)).sum := by
  decide +kernel

end NexaPos.Wms
