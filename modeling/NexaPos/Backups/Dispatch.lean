import NexaPos.Backups.States
import NexaPos.Lib.Process
import Mathlib.Data.Int.Notation
import Mathlib.Data.List.Sort

/-!
# The dispatch of requested backups and restores

A requested backup or restore is handed to its worker through a broker, and every step of the
handover is a row of the append-only journal `BackupActivity`.  `dispatch` is the handover,
`reconcileQueuedBackupDispatches` and `reconcileQueuedRestoreDispatches` repeat it for requests
that stayed behind.  Any number of handovers and reconciliations run at the same time; each query,
each new row and each call of the broker is one step of them.

Public identifiers are represented by primary keys, and a row is deleted by nobody.
-/

namespace NexaPos.Backups.Dispatching

open Routine

/-! ## Rows -/

inductive BackupTrigger
  | manual
  | scheduled
  | preRestoreSafety
  deriving DecidableEq, Repr

/-- The two relations of a journal row. -/
inductive Relation
  | backup
  | restore
  deriving DecidableEq, Repr

/-- A backup or a restore, by its primary key. -/
inductive Operation
  | backup (pk : ℕ)
  | restore (pk : ℕ)
  deriving DecidableEq, Repr

/-- `event_type`, as far as dispatching tells events apart. -/
inductive JournalEvent
  | backupDispatchRequested
  | backupDispatchAttempted
  | backupDispatchConfirmed
  | backupDispatchFailed
  | backupRedispatched
  | backupExecutionStarted
  | backupCompleted
  | backupFailed
  | restoreQueued
  | restoreDispatchAttempted
  | restoreDispatchConfirmed
  | restoreDispatchFailed
  | restoreRedispatched
  | restoreWorkerStarted
  | restoreStarted
  | restoreMutationStarted
  | restoreCompleted
  | restoreFailed
  | restoreRecoveryRequired
  | other (name : String)
  deriving DecidableEq, Repr

/-- `structured_metadata` of the rows that dispatching writes. -/
inductive Metadata
  | none
  | requested (journalVersion : ℕ)
  | attempted (attemptInBatch maximumBatchAttempts : ℕ) (redispatch : Bool)
  | confirmed (attemptInBatch : ℕ) (redispatch : Bool)
  | redispatched (attemptInBatch : ℕ)
  | failed (attempts : ℕ) (redispatch : Bool)
  deriving DecidableEq, Repr

structure BackupActivity where
  event : JournalEvent
  backup : Option ℕ := none
  restore : Option ℕ := none
  metadata : Metadata := .none
  createdAt : ℤ := 0
  deriving DecidableEq, Repr

structure BackupRecord where
  business : ℕ := 0
  status : BackupStatus := .queued
  trigger : BackupTrigger := .manual
  startedAt : Option ℤ := none
  storageBackendIdentifier : String := ""
  opaqueObjectKey : String := ""
  wholeArtifactHash : String := ""
  deriving DecidableEq, Repr

structure RestoreOperation where
  business : ℕ := 0
  sourceBackup : ℕ
  status : RestoreStatus := .queued
  startedAt : Option ℤ := none
  safetyBackup : Option ℕ := none
  rollbackAttempted : Bool := false
  deriving DecidableEq, Repr

structure TenantOperationLock where
  business : ℕ
  operation : Operation
  active : Bool
  deriving DecidableEq, Repr

/-- Which relation of a row an event is about. -/
def JournalEvent.relation : JournalEvent → Option Relation
  | .backupDispatchRequested | .backupDispatchAttempted | .backupDispatchConfirmed
  | .backupDispatchFailed | .backupRedispatched | .backupExecutionStarted | .backupCompleted
  | .backupFailed => some .backup
  | .restoreQueued | .restoreDispatchAttempted | .restoreDispatchConfirmed
  | .restoreDispatchFailed | .restoreRedispatched | .restoreWorkerStarted | .restoreStarted
  | .restoreMutationStarted | .restoreCompleted | .restoreFailed
  | .restoreRecoveryRequired => some .restore
  | .other _ => none

def Relation.operation : Relation → ℕ → Operation
  | .backup => .backup
  | .restore => .restore

def Operation.relation : Operation → Relation
  | .backup _ => .backup
  | .restore _ => .restore

namespace BackupActivity

/-- The foreign key of the relation. -/
def related (a : BackupActivity) : Relation → Option ℕ
  | .backup => a.backup
  | .restore => a.restore

/-- The row is among the activities of the operation. -/
def concerns (a : BackupActivity) : Operation → Bool
  | .backup pk => a.backup == some pk
  | .restore pk => a.restore == some pk

/-- The operation that the event of the row is about. -/
def subject (a : BackupActivity) : Option Operation :=
  a.event.relation.bind fun relation => (a.related relation).map relation.operation

end BackupActivity

/-- The events that `_dispatch` is called with. -/
structure DispatchEvents where
  attempted : JournalEvent
  confirmed : JournalEvent
  failed : JournalEvent
  redispatched : JournalEvent

def backupDispatchEvents : DispatchEvents where
  attempted := .backupDispatchAttempted
  confirmed := .backupDispatchConfirmed
  failed := .backupDispatchFailed
  redispatched := .backupRedispatched

def restoreDispatchEvents : DispatchEvents where
  attempted := .restoreDispatchAttempted
  confirmed := .restoreDispatchConfirmed
  failed := .restoreDispatchFailed
  redispatched := .restoreRedispatched

/-- The row that a reconciliation starts from. -/
def Relation.intent : Relation → JournalEvent
  | .backup => .backupDispatchRequested
  | .restore => .restoreQueued

def Operation.attempted : Operation → JournalEvent
  | .backup _ => .backupDispatchAttempted
  | .restore _ => .restoreDispatchAttempted

/-- The events after which an operation is not handed over again. -/
def Operation.settling : Operation → List JournalEvent
  | .backup _ =>
    [.backupDispatchConfirmed, .backupExecutionStarted, .backupCompleted, .backupFailed]
  | .restore _ =>
    [.restoreDispatchConfirmed, .restoreWorkerStarted, .restoreStarted, .restoreMutationStarted,
      .restoreCompleted, .restoreFailed, .restoreRecoveryRequired]

/-! ## Settings -/

/-- The settings of dispatching; nothing stands for a value that is not an integer. -/
structure DispatchSettings where
  maxImmediateAttempts : Option ℤ := none
  maxTotalAttempts : Option ℤ := none
  reconcileAfterSeconds : Option ℤ := none

/-- `_bounded_setting`. -/
def boundedSetting (value : Option ℤ) (default minimum maximum : ℕ) : ℕ :=
  match value with
  | some v => if minimum ≤ v ∧ v ≤ maximum then v.toNat else default
  | none => default

def DispatchSettings.immediateLimit (c : DispatchSettings) : ℕ :=
  boundedSetting c.maxImmediateAttempts 3 1 3

def DispatchSettings.totalLimit (c : DispatchSettings) : ℕ :=
  boundedSetting c.maxTotalAttempts 12 3 100

/-- `_dispatch_cutoff`, with instants in microseconds. -/
def dispatchCutoff (c : DispatchSettings) (now : ℤ) (eligibleBefore : Option ℤ) : ℤ :=
  match eligibleBefore with
  | some t => t
  | none => now - boundedSetting c.reconcileAfterSeconds 300 60 86400 * 1000000

/-! ## The shared state -/

/-- The tables, the clock, and two fields that no program reads.  `checked` is the operation that
a party last found eligible, as long as nobody has changed its row, confirmed it or journaled its
start or its end; `counted` is the one whose attempts it last counted, as long as no other party
has attempted it. -/
structure Site where
  backups : List BackupRecord := []
  restores : List RestoreOperation := []
  locks : List TenantOperationLock := []
  journal : List BackupActivity := []
  clock : ℤ := 0
  checked : ℕ → Option Operation := fun _ => none
  counted : ℕ → Option Operation := fun _ => none

namespace Site

def hasActivity (s : Site) (op : Operation) (events : List JournalEvent) : Bool :=
  s.journal.any fun a => a.concerns op && events.contains a.event

def countActivity (s : Site) (op : Operation) (event : JournalEvent) : ℕ :=
  s.journal.countP fun a => a.concerns op && a.event == event

/-- The recorded delivery attempts. -/
def attempts (s : Site) (op : Operation) : ℕ := s.countActivity op op.attempted

def hasActiveLock (s : Site) (business : ℕ) (op : Operation) : Bool :=
  s.locks.any fun lock => lock.business == business && lock.operation == op && lock.active

/-- What `checked` and `counted` forget when the operation is settled, or attempted by a party. -/
def settle (s : Site) (op : Operation) : Site :=
  { s with checked := fun q => if s.checked q = some op then none else s.checked q }

def supersede (s : Site) (who : ℕ) (op : Operation) : Site :=
  { s with counted := fun q => if q ≠ who ∧ s.counted q = some op then none else s.counted q }

/-- A new row of the journal, written by a party. -/
def record (s : Site) (who : ℕ) (a : BackupActivity) : Site :=
  let s' := { s with journal := s.journal ++ [{ a with createdAt := s.clock }] }
  match a.subject with
  | none => s'
  | some op =>
    if a.event ∈ op.settling then s'.settle op
    else if a.event = op.attempted then s'.supersede who op
    else s'

end Site

/-! ## Eligibility -/

/-- `_attempt_budget_available`. -/
def attemptBudgetAvailable (c : DispatchSettings) (s : Site) (op : Operation)
    (event : JournalEvent) : Bool :=
  s.countActivity op event < c.totalLimit

/-- `backup_dispatch_eligible`. -/
def backupDispatchEligible (c : DispatchSettings) (s : Site) (pk : ℕ) (backup : BackupRecord) :
    Bool :=
  if backup.status ≠ .queued ∨ backup.trigger = .preRestoreSafety ∨ backup.startedAt ≠ none ∨
      backup.storageBackendIdentifier ≠ "" ∨ backup.opaqueObjectKey ≠ "" ∨
      backup.wholeArtifactHash ≠ "" then
    false
  else if !s.hasActivity (.backup pk) [.backupDispatchRequested] then
    false
  else if s.hasActivity (.backup pk)
      [.backupDispatchConfirmed, .backupExecutionStarted, .backupCompleted, .backupFailed] then
    false
  else if s.hasActiveLock backup.business (.backup pk) then
    false
  else
    attemptBudgetAvailable c s (.backup pk) .backupDispatchAttempted

/-- `restore_dispatch_eligible`. -/
def restoreDispatchEligible (c : DispatchSettings) (s : Site) (pk : ℕ)
    (restore : RestoreOperation) : Bool :=
  if restore.status ≠ .queued ∨ restore.startedAt ≠ none ∨ restore.safetyBackup ≠ none ∨
      restore.rollbackAttempted then
    false
  else if !s.hasActivity (.restore pk) [.restoreQueued] then
    false
  else if s.hasActivity (.restore pk)
      [.restoreDispatchConfirmed, .restoreWorkerStarted, .restoreStarted,
        .restoreMutationStarted, .restoreCompleted, .restoreFailed,
        .restoreRecoveryRequired] then
    false
  else if s.hasActiveLock restore.business (.restore pk) then
    false
  else
    attemptBudgetAvailable c s (.restore pk) .restoreDispatchAttempted

/-- `lock_backup_for_redispatch`. -/
def lockBackupForRedispatch (c : DispatchSettings) (s : Site) (pk : ℕ) : Option BackupRecord :=
  (s.backups[pk]?).filter (backupDispatchEligible c s pk)

/-- `lock_restore_for_redispatch`. -/
def lockRestoreForRedispatch (c : DispatchSettings) (s : Site) (pk : ℕ) :
    Option RestoreOperation :=
  (s.restores[pk]?).filter (restoreDispatchEligible c s pk)

/-- The query of `_candidate_ids`.  The journal is in the order of its primary keys, and rows of
the same time keep it; the columns of the order are selected too, so that `distinct` compares
whole rows. -/
def candidateRows (s : Site) (event : JournalEvent) (relation : Relation) (cutoff : ℤ) :
    List ℕ :=
  ((s.journal.filter fun a =>
    a.event == event && decide (a.createdAt ≤ cutoff) && (a.related relation).isSome).insertionSort
      fun a b => a.createdAt ≤ b.createdAt).filterMap fun a => a.related relation

/-! ## Calls -/

/-- What a step can raise, as far as the handlers tell exceptions apart. -/
inductive DispatchFault
  /-- `ValueError`. -/
  | value (message : String)
  /-- Any other `Exception`. -/
  | error
  /-- `KeyboardInterrupt`, `SystemExit` or `GeneratorExit`. -/
  | abort
  deriving DecidableEq, Repr

inductive DispatchCall
  /-- `timezone.now`. -/
  | now
  /-- The query of `_candidate_ids`, cut to the limit. -/
  | candidates (event : JournalEvent) (relation : Relation) (cutoff : ℤ) (limit : ℕ)
  | lockBackup (pk : ℕ)
  | lockRestore (pk : ℕ)
  /-- The number of prior attempts. -/
  | count (op : Operation) (event : JournalEvent)
  /-- `create_backup_activity`. -/
  | createActivity (a : BackupActivity)
  | publish (op : Operation)
  deriving DecidableEq

abbrev DispatchCall.Result : DispatchCall → Type
  | .now => ℤ
  | .candidates .. => List ℕ
  | .lockBackup _ => Option BackupRecord
  | .lockRestore _ => Option RestoreOperation
  | .count .. => ℕ
  | .createActivity _ => Unit
  | .publish _ => Unit

def exec (c : DispatchSettings) (who : ℕ) :
    (i : DispatchCall) → Site → Except DispatchFault i.Result × Site
  | .now, s => (.ok s.clock, s)
  | .candidates event relation cutoff limit, s =>
    (.ok ((candidateRows s event relation cutoff).take limit), s)
  | .lockBackup pk, s =>
    match lockBackupForRedispatch c s pk with
    | some row =>
      (.ok (some row), { s with checked := Function.update s.checked who (some (.backup pk)) })
    | none => (.ok none, s)
  | .lockRestore pk, s =>
    match lockRestoreForRedispatch c s pk with
    | some row =>
      (.ok (some row), { s with checked := Function.update s.checked who (some (.restore pk)) })
    | none => (.ok none, s)
  | .count op event, s =>
    (.ok (s.countActivity op event),
      { s with counted := Function.update s.counted who (some op) })
  | .createActivity a, s => (.ok ⟨⟩, s.record who a)
  | .publish _, s => (.ok ⟨⟩, s)

/-- A row can be committed although the call raises. -/
def torn : DispatchCall → Bool
  | .createActivity _ => true
  | _ => false

/-! ## Dispatch -/

abbrev Code (α : Type) := Routine Unit DispatchCall DispatchCall.Result DispatchFault α

abbrev ask (i : DispatchCall) : Code i.Result := perform i

/-- The object that is dispatched, with the values it was read with. -/
inductive Subject
  | backup (pk : ℕ) (row : BackupRecord)
  | restore (pk : ℕ) (row : RestoreOperation)

def Subject.operation : Subject → Operation
  | .backup pk _ => .backup pk
  | .restore pk _ => .restore pk

structure DispatchOutcome where
  confirmed : Bool
  attempts : ℕ
  redispatch : Bool
  deriving DecidableEq, Repr

/-- `_create_activity`. -/
def createActivity (operation : Subject) (event : JournalEvent) (metadata : Metadata) :
    Code Unit :=
  match operation with
  | .backup pk _ => ask (.createActivity { event, backup := some pk, metadata })
  | .restore pk row =>
    ask (.createActivity { event, backup := some row.sourceBackup, restore := some pk, metadata })

/-- The call of the publisher; what it raises is dropped, unless it is an abort. -/
def publish (operation : Subject) : Code Bool :=
  tryCatch
    (do
      ask (.publish operation.operation)
      pure true)
    fun e => if e = .abort then throw e else pure false

/-- The end of `_dispatch` after the broker has accepted. -/
def confirm (operation : Subject) (events : DispatchEvents) (redispatch : Bool) (attempt : ℕ) :
    Code DispatchOutcome := do
  createActivity operation events.confirmed (.confirmed attempt redispatch)
  if redispatch then do
    createActivity operation events.redispatched (.redispatched attempt)
    pure ⟨true, attempt, redispatch⟩
  else
    pure ⟨true, attempt, redispatch⟩

/-- The loop of `_dispatch` and what follows it, after `attempts` rounds. -/
def deliver (operation : Subject) (events : DispatchEvents) (redispatch : Bool)
    (maximum : ℕ) : (rounds attempts : ℕ) → Code DispatchOutcome
  | 0, attempts => do
    createActivity operation events.failed (.failed attempts redispatch)
    pure ⟨false, attempts, redispatch⟩
  | rounds + 1, attempts => do
    createActivity operation events.attempted (.attempted (attempts + 1) maximum redispatch)
    let accepted ← publish operation
    if accepted then
      confirm operation events redispatch (attempts + 1)
    else
      deliver operation events redispatch maximum rounds (attempts + 1)

/-- `_dispatch`. -/
def dispatch (c : DispatchSettings) (operation : Subject) (events : DispatchEvents)
    (redispatch : Bool) : Code DispatchOutcome := do
  let priorAttempts : ℕ ← ask (.count operation.operation events.attempted)
  let immediateLimit := min c.immediateLimit (c.totalLimit - priorAttempts)
  if immediateLimit = 0 then
    pure ⟨false, 0, redispatch⟩
  else
    deliver operation events redispatch immediateLimit immediateLimit 0

def dispatchBackup (c : DispatchSettings) (pk : ℕ) (backup : BackupRecord) (redispatch : Bool) :
    Code DispatchOutcome :=
  if backup.status ≠ .queued then
    pure ⟨false, 0, redispatch⟩
  else
    dispatch c (.backup pk backup) backupDispatchEvents redispatch

def dispatchRestore (c : DispatchSettings) (pk : ℕ) (restore : RestoreOperation)
    (redispatch : Bool) : Code DispatchOutcome :=
  if restore.status ≠ .queued then
    pure ⟨false, 0, redispatch⟩
  else
    dispatch c (.restore pk restore) restoreDispatchEvents redispatch

/-! ## Reconciliation -/

structure DispatchReconciliationResult where
  examinedCount : ℕ
  eligibleCount : ℕ := 0
  confirmedCount : ℕ := 0
  failedCount : ℕ := 0
  deriving DecidableEq, Repr

/-- The time that a reconciliation works with. -/
def currentTime (now : Option ℤ) : Code ℤ :=
  match now with
  | some t => pure t
  | none => ask .now

/-- `_candidate_ids`. -/
def candidateIds (event : JournalEvent) (relation : Relation) (cutoff limit : ℤ) :
    Code (List ℕ) :=
  if 1 ≤ limit ∧ limit ≤ 1000 then
    ask (.candidates event relation cutoff limit.toNat)
  else
    throw (.value "limit must be between 1 and 1000.")

/-- The loop over the candidates. -/
def redispatchAll {α : Type} (lock : ℕ → Code (Option α))
    (redispatch : ℕ → α → Code DispatchOutcome) :
    List ℕ → DispatchReconciliationResult → Code DispatchReconciliationResult
  | [], result => pure result
  | pk :: pks, result => do
    match ← lock pk with
    | none => redispatchAll lock redispatch pks result
    | some row => do
      let outcome ← redispatch pk row
      redispatchAll lock redispatch pks
        { result with
          eligibleCount := result.eligibleCount + 1
          confirmedCount := result.confirmedCount + outcome.confirmed.toNat
          failedCount := result.failedCount + (!outcome.confirmed).toNat }

def reconcileQueuedBackupDispatches (c : DispatchSettings) (now eligibleBefore : Option ℤ)
    (limit : ℤ) : Code DispatchReconciliationResult := do
  let t ← currentTime now
  let pks ← candidateIds .backupDispatchRequested .backup (dispatchCutoff c t eligibleBefore) limit
  redispatchAll (fun pk => ask (.lockBackup pk)) (fun pk row => dispatchBackup c pk row true) pks
    { examinedCount := pks.length }

def reconcileQueuedRestoreDispatches (c : DispatchSettings) (now eligibleBefore : Option ℤ)
    (limit : ℤ) : Code DispatchReconciliationResult := do
  let t ← currentTime now
  let pks ← candidateIds .restoreQueued .restore (dispatchCutoff c t eligibleBefore) limit
  redispatchAll (fun pk => ask (.lockRestore pk)) (fun pk row => dispatchRestore c pk row true) pks
    { examinedCount := pks.length }

/-! ## The system -/

/-- The arguments of a reconciliation. -/
structure Reconciliation where
  relation : Relation
  now : Option ℤ := none
  eligibleBefore : Option ℤ := none
  limit : ℤ := 100

def Reconciliation.code (c : DispatchSettings) (r : Reconciliation) :
    Code DispatchReconciliationResult :=
  match r.relation with
  | .backup => reconcileQueuedBackupDispatches c r.now r.eligibleBefore r.limit
  | .restore => reconcileQueuedRestoreDispatches c r.now r.eligibleBefore r.limit

/-- What a process runs: the dispatch of a request, of whatever values its row was read with, or
a reconciliation. -/
inductive Program
  | dispatch (operation : Subject)
  | reconcile (r : Reconciliation)

/-- The dispatch that follows a request. -/
def Subject.request (c : DispatchSettings) : Subject → Code DispatchOutcome
  | .backup pk row => dispatchBackup c pk row false
  | .restore pk row => dispatchRestore c pk row false

def Program.code (c : DispatchSettings) : Program → Prog DispatchCall DispatchCall.Result
    DispatchFault PUnit
  | .dispatch operation => ((operation.request c).prog ()).bind fun _ => .done ⟨⟩
  | .reconcile r => ((r.code c).prog ()).bind fun _ => .done ⟨⟩

/-- `record_backup_dispatch_intent`, by the party that made the request. -/
def recordBackupDispatchIntent (s : Site) (who pk : ℕ) (backup : BackupRecord) : Site :=
  if backup.status = .queued ∧ ¬ s.hasActivity (.backup pk) [.backupDispatchRequested] then
    s.record who
      { event := .backupDispatchRequested, backup := some pk, metadata := .requested 1 }
  else
    s

/-- The rows that only `_dispatch` writes. -/
def JournalEvent.ofDispatch (event : JournalEvent) : Bool :=
  [backupDispatchAttempted, backupDispatchConfirmed, backupDispatchFailed, backupRedispatched,
    restoreDispatchAttempted, restoreDispatchConfirmed, restoreDispatchFailed,
    restoreRedispatched].contains event

/-- What requests, workers, operators and the clock do beside the dispatches. -/
inductive Outside
  | tick (t : ℤ)
  | createBackup (row : BackupRecord)
  | createRestore (row : RestoreOperation)
  | updateBackup (pk : ℕ) (row : BackupRecord)
  | updateRestore (pk : ℕ) (row : RestoreOperation)
  | setLocks (locks : List TenantOperationLock)
  | recordIntent (who pk : ℕ) (row : BackupRecord)
  /-- A row of any event that `_dispatch` does not write. -/
  | journal (who : ℕ) (a : BackupActivity)

def outside : Outside → Site → Site
  | .tick t, s => { s with clock := t }
  | .createBackup row, s =>
    { s with backups := s.backups ++ [row] }.settle (.backup s.backups.length)
  | .createRestore row, s =>
    { s with restores := s.restores ++ [row] }.settle (.restore s.restores.length)
  | .updateBackup pk row, s => { s with backups := s.backups.set pk row }.settle (.backup pk)
  | .updateRestore pk row, s => { s with restores := s.restores.set pk row }.settle (.restore pk)
  | .setLocks locks, s => { s with locks }
  | .recordIntent who pk row, s => recordBackupDispatchIntent s who pk row
  | .journal who a, s => if a.event.ofDispatch then s else s.record who a

def system (c : DispatchSettings) :
    System ℕ Site DispatchCall DispatchCall.Result DispatchFault Program Outside where
  exec := exec c
  torn := torn
  code := Program.code c
  outside := outside

end NexaPos.Backups.Dispatching
