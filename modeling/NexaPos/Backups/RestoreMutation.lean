import NexaPos.Backups.RestoreSite

/-!
# The restore coordinator

`RestoreExecutionCoordinator.execute`, statement by statement.  Its local variables are those the
handlers read; an assignment made before a statement raised is seen by the handler.  The media
provider keeps the targets it created as its own evidence, here among the local variables.
-/

namespace NexaPos.Backups

open Routine

/-- The local variables of `execute`, and the evidence of the media provider. -/
structure ExecuteLocals where
  restore : RestoreOperation := {}
  lock : Option ℕ := none
  consumption : Bool := false
  stagedMedia : Option (List StagedObject) := none
  safety : Option ℕ := none
  mutationStarted : Bool := false
  mutationCommitted : Bool := false
  rollbackProven : Bool := false
  safeError : Option Fault := none
  /-- `abort_error is not None`. -/
  aborted : Bool := false
  /-- `created_targets`, the last first. -/
  createdTargets : List (String × ℕ) := []
  deriving DecidableEq, Repr

/-- Code of a restore with the local variables `L`. -/
abbrev RestoreRoutine (L α : Type) := Routine L RestoreCall RestoreCall.Result Fault α

abbrev Execute (α : Type) := RestoreRoutine ExecuteLocals α

variable {L : Type}

/-- Call an operation of the site. -/
abbrev ask (c : RestoreCall) : RestoreRoutine L c.Result := perform c

def attempt (step : RestoreStep) : RestoreRoutine L Unit := ask (.attempt step)

/-- `_activity`. -/
def activity (event : RestoreEvent) : RestoreRoutine L Unit := attempt (.activity event)

/-- `acquire_tenant_operation_lock`. -/
def acquireLock : RestoreRoutine L ℕ := do
  let now ← ask .readClock
  ask (.acquireLock now)

/-- `heartbeat_tenant_operation_lock`. -/
def heartbeatLock (lock : ℕ) : RestoreRoutine L Bool := do
  let now ← ask .readClock
  ask (.heartbeatLock lock now)

/-- `release_tenant_operation_lock`. -/
def releaseLock (lock : ℕ) : RestoreRoutine L Bool := do
  let now ← ask .readClock
  ask (.releaseLock lock now)

/-- `_heartbeat`. -/
def heartbeat (lock : ℕ) : RestoreRoutine L Unit := do
  let renewed ← heartbeatLock lock
  if renewed then pure () else throw .engine

/-- The variable `restore` is bound to the row. -/
def bindRestore (row : RestoreOperation) : Execute Unit := modify fun l => { l with restore := row }

/-- `transition_restore`, with the row bound. -/
def moveRestore (target : RestoreStatus) (code : FailureCode) : Execute Unit := do
  let row ← ask (.transitionRestore target code)
  bindRestore row

/-! ## Before the mutation -/

/-- `_prepare_restore_state`; it returns whether the restore has succeeded already. -/
def prepareRestoreState (restore : RestoreOperation) : Execute Bool :=
  match restore.status with
  | .succeeded =>
    if restore.safetyBackup.isSome then do
      attempt .readResultEvidence
      pure true
    else
      throw .engine
  | .failed => do
    let row ← tryCatch (ask .restartFailedRestoreBeforeMutation) fun e =>
      if e = .abort then throw e else throw .engine
    bindRestore row
    pure false
  | .queued => do
    moveRestore .authorizing .blank
    pure false
  | .authorizing => do
    bindRestore restore
    pure false
  | _ => throw .engine

/-- The execution of a new safety backup under the lease of the restore. -/
def runSafetyBackup (lock safety : ℕ) : Execute Unit := do
  heartbeat lock
  ask (.takeSafetySnapshot safety)
  heartbeat lock
  ask (.finishSafetyBackup safety)

/-- The safety backup of an earlier attempt, when it is still acceptable. -/
def earlierSafetyBackup : Execute (Option ℕ) := do
  let current ← ask .getRestore
  match current.safetyBackup with
  | some safety => do
    let found ← ask (.getSafetyBackup safety)
    pure (if found.any SafetyBackup.acceptable then some safety else none)
  | none => pure none

/-- `_create_safety_backup`. -/
def createSafetyBackup (lock : ℕ) : Execute ℕ := do
  match ← earlierSafetyBackup with
  | some safety => pure safety
  | none => do
    let safety ← ask .createSafetyRequest
    tryCatch (runSafetyBackup lock safety) fun e =>
      if e = .abort then throw e else throw .engine
    let result ← ask (.getSafetyBackup safety)
    if result.any SafetyBackup.acceptable then pure () else throw .engine
    ask (.setRestoreSafetyBackup safety)
    pure safety

/-- Under the lease, up to the safety backup. -/
def safeguardTenant (lock : ℕ) : Execute Unit := do
  activity .started
  attempt .revalidate
  modify fun l => { l with consumption := true }
  heartbeat lock
  activity .preflightValidated
  moveRestore .safetyBackup .blank
  activity .safetyBackupStarted
  attempt .hook
  let safety ← createSafetyBackup lock
  modify fun l => { l with safety := some safety }
  attempt .hook
  heartbeat lock
  activity .safetyBackupCompleted

/-- From `LOCKING` to the safety backup. -/
def secureTenant : Execute ℕ := do
  moveRestore .locking .blank
  let lock ← acquireLock
  modify fun l => { l with lock := some lock }
  safeguardTenant lock
  pure lock

/-- From `VALIDATING` to `RESTORING`. -/
def validateRestore (lock : ℕ) : Execute (List StagedObject) := do
  moveRestore .validating .blank
  attempt .revalidate
  let _ ← ask .prepare
  ask .validateDependencies
  let staged ← ask .stageMedia
  modify fun l => { l with stagedMedia := some staged }
  heartbeat lock
  moveRestore .restoring .blank
  modify fun l => { l with mutationStarted := true }
  pure staged

/-! ## The mutation transaction -/

/-- `_publish_one`: a linked file is remembered before it is looked at again. -/
def publishTarget (item : StagedObject) : Execute Unit := do
  match ← ask (.publishOne item) with
  | some identity => do
    modify fun l => { l with createdTargets := (item.target, identity) :: l.createdTargets }
    attempt .checkPublished
  | none => pure ()

/-- `publish`. -/
def publishAll : List StagedObject → Execute Unit
  | [] => pure ()
  | item :: items => do
    publishTarget item
    publishAll items

/-- The body of `transaction.atomic()` and its commit. -/
def mutationTransaction (lock : ℕ) (staged : List StagedObject) : Execute Unit := do
  let rows ← ask .mutate
  attempt .hook
  publishAll staged
  activity .mediaCompleted
  ask .enterVerifying
  ask (.verifyRestored rows)
  ask (.verifyMedia staged)
  attempt .hook
  ask (.commitMutation lock)

/-- After the commit, to `SUCCEEDED`. -/
def finishRestore : Execute Unit := do
  activity .postVerificationCompleted
  attempt .cleanupMedia
  modify fun l => { l with stagedMedia := none }
  attempt .cleanupPreflight
  modify fun l => { l with consumption := false }
  moveRestore .succeeded .blank
  activity .completed

/-- The body of the `try` statement of `execute`. -/
def executeBody : Execute Unit := do
  let lock ← secureTenant
  let staged ← validateRestore lock
  activity .mutationStarted
  attempt .hook
  mutationTransaction lock staged
  modify fun l => { l with mutationCommitted := true }
  finishRestore

/-! ## Failures -/

/-- `_mark_pre_mutation_failure`. -/
def markPreMutationFailure (cause : Fault) : Execute Unit := do
  let current ← ask .getRestore
  if current.status ∈ [.authorizing, .locking, .safetyBackup, .validating] then
    moveRestore .failed (.preMutation cause)
  else
    bindRestore current

/-- `_mark_rolled_back`. -/
def markRolledBack : Execute Unit := do
  let current ← ask .getRestore
  bindRestore current
  if current.status ∈ [.restoring, .verifying, .failed] then
    moveRestore .rollingBack .blank
  let l ← get
  if l.restore.status = .rollingBack then
    moveRestore .rolledBack .blank

/-- `_mark_recovery_required`. -/
def markRecoveryRequired : Execute Unit := do
  let current ← ask .getRestore
  if current.status ∈ [.restoring, .verifying, .failed] then
    moveRestore .indeterminate .recoveryRequired
  else
    bindRestore current

/-- `rollback` of the media provider. -/
def rollbackMedia : List (String × ℕ) → Execute Unit
  | [] => attempt .removeCreatedDirectories
  | (target, identity) :: rest => do
    ask (.unlinkCreated target identity)
    rollbackMedia rest

/-- `safe_error` is set. -/
def setSafeError (e : Fault) : Execute Unit := modify fun l => { l with safeError := some e }

/-- `abort_error` is set. -/
def setAborted : Execute Unit := modify fun l => { l with aborted := true }

/-- The rollback of published media after a mutation that was started and did not commit. -/
def proveRollback : Execute Unit := do
  let l ← get
  if l.mutationStarted ∧ ¬ l.mutationCommitted then
    tryCatch
      (do
        if l.stagedMedia.isSome then
          rollbackMedia l.createdTargets
        modify fun l => { l with rollbackProven := true })
      fun e => do
        if e = .abort then
          setAborted
        setSafeError .engine
        modify fun l => { l with rollbackProven := false }

/-- The status that a failure leaves. -/
def markFailure (cause : Fault) : Execute Unit := do
  let l ← get
  if ¬ l.mutationStarted then do
    markPreMutationFailure cause
    activity .failed
  else if ¬ l.mutationCommitted ∧ l.rollbackProven then do
    markRolledBack
    activity .failed
  else do
    markRecoveryRequired
    setSafeError .engine
    activity .recoveryRequired

/-- The failure is recorded; what is raised on the way is dropped, unless it is an abort. -/
def recordFailure (cause : Fault) : Execute Unit :=
  tryCatch (markFailure cause) fun e =>
    if e = .abort then
      throw e
    else do
      let l ← get
      if l.mutationStarted then
        setSafeError .engine

/-- What `except BaseException` and the statement after it do with an exception. -/
def settleFailure (e : Fault) : Execute Unit := do
  let safe := if e = .lockUnavailable then Fault.lockUnavailable else .engine
  if e = .abort then
    setAborted
  setSafeError safe
  proveRollback
  let l ← get
  recordFailure (l.safeError.getD safe)

/-- One clean-up; it returns whether it failed. -/
def cleanUp (step : RestoreStep) : Execute Bool :=
  tryCatch
    (do
      attempt step
      pure false)
    fun e =>
      if e = .abort then do
        setAborted
        pure false
      else
        pure true

/-- What is left of the staged media and of the preflight. -/
def cleanUpRestore : Execute Unit := do
  let l ← get
  let mediaFailed ← if l.stagedMedia.isSome then cleanUp .cleanupMedia else pure false
  let preflightFailed ← if l.consumption then cleanUp .cleanupPreflight else pure false
  let l ← get
  if (mediaFailed || preflightFailed) ∧ l.safeError.isNone then
    setSafeError .engine
    markRecoveryRequired

/-- The release of the lease. -/
def releaseRestoreLock : Execute Unit := do
  let l ← get
  match l.lock with
  | none => pure ()
  | some lock =>
    tryCatch
      (do
        let released ← releaseLock lock
        if released then pure () else throw .engine)
      fun e => do
        if e = .abort then
          setAborted
        else if l.safeError.isNone then
          setSafeError .engine

/-- What `execute` raises at its end, if anything. -/
def concludeRestore : Execute Unit := do
  let l ← get
  if l.aborted then
    throw .abort
  match l.safeError with
  | some e => throw e
  | none => if l.restore.status = .succeeded then pure () else throw .engine

/-- What is done whether the body failed or not. -/
def endRestore : Execute Unit := do
  cleanUpRestore
  releaseRestoreLock
  concludeRestore

/-- `execute` after the state of the restore was prepared. -/
def executePrepared : Execute Unit := do
  tryCatch executeBody settleFailure
  endRestore

/-- `RestoreExecutionCoordinator.execute`. -/
def execute : Execute Unit := do
  attempt .resolveRequest
  let restore ← ask .getRestore
  let existing ← prepareRestoreState restore
  if existing then pure () else executePrepared

end NexaPos.Backups
