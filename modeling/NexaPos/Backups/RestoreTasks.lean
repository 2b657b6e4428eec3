import NexaPos.Backups.RestoreMutation

/-!
# The restore worker

`execute_restore`, the task that a delivery of a restore message runs, and the system in which
deliveries, direct calls of the coordinator, other users of the leases and the ordinary work of
the tenant run at the same time.  A retry, a redispatch by the reconciler and a second delivery by
the broker are all deliveries.
-/

namespace NexaPos.Backups

open Routine

abbrev Task (α : Type) := RestoreRoutine Unit α

/-- `_mark_restore_pre_mutation_failure`. -/
def markRestorePreMutationFailure (cause : Fault) : Task Unit := do
  let current ← ask .getRestore
  if current.status ∈ [.queued, .authorizing, .locking, .safetyBackup, .validating] then
    let _ ← ask (.transitionRestore .failed (.preMutation cause))
    activity .failed

/-- `_mark_restore_retry_exhausted`. -/
def markRestoreRetryExhausted : Task Unit := do
  ask .markRetryExhausted
  let _ ← ask .getRestore
  activity .failed

/-- `_mark_unexpected_restore_recovery`. -/
def markUnexpectedRestoreRecovery : Task Unit := do
  let current ← ask .getRestore
  if current.status ∈ [.restoring, .verifying] then
    let _ ← ask (.transitionRestore .indeterminate .recoveryRequired)
    activity .recoveryRequired
  else if current.status = .indeterminate then
    activity .recoveryRequired

/-- The release of the lease of a preflight; a lease that is lost fails it. -/
def releasePreflight (lock : ℕ) : Task Unit := do
  let released ← releaseLock lock
  if released then pure () else throw .engine

/-- `RestorePreflightCoordinator.run`, as far as the leases go; its `finally` gives the lease back
and raises nothing of its own but an abort. -/
def preflight : Task Unit := do
  let lock ← acquireLock
  tryCatch
    (do
      attempt .preflight
      heartbeat lock
      attempt .preflight)
    fun e => do
      tryCatch (releasePreflight lock) fun e' => if e' = .abort then throw .abort else pure ()
      throw (if e = .error then .engine else e)
  releasePreflight lock

/-- What a delivery does with the failure of the preflight or of the coordinator. -/
def handleRestoreFailure (lastRetry : Bool) : Fault → Task Unit
  | .abort => throw .abort
  | .lockUnavailable => do
    markRestorePreMutationFailure .lockUnavailable
    if lastRetry then
      markRestoreRetryExhausted
    throw .lockUnavailable
  | .engine => do
    let restore ← ask .getRestore
    if restore.status ∈ [.authorizing, .locking, .safetyBackup, .validating] then
      markRestorePreMutationFailure .engine
    throw .engine
  | .error => do
    let restore ← ask .getRestore
    if restore.status ∈ [.restoring, .verifying] then
      markUnexpectedRestoreRecovery
    else
      markRestorePreMutationFailure .engine
    throw .engine

/-- A delivery after it claimed the restore. -/
def runClaimedRestore (lastRetry : Bool) : Task Unit := do
  activity .workerStarted
  tryCatch
    (do
      preflight
      withLocals execute {})
    (handleRestoreFailure lastRetry)

/-- `execute_restore`. -/
def executeRestore (lastRetry : Bool) : Task Unit := do
  let restore ← ask .getRestore
  attempt .assertWorkerContext
  match restore.status with
  | .succeeded => pure ()
  | .queued | .failed | .rolledBack => do
    tryCatch (attempt .buildRuntime) fun e =>
      if e = .abort then
        throw e
      else do
        markRestorePreMutationFailure .engine
        throw .engine
    let claim ← ask .claimRestoreOperation
    match claim.1 with
    | .alreadySucceeded => pure ()
    | .claimed => runClaimedRestore lastRetry
    | _ => throw .engine
  | _ => throw .engine

/-- What can be started on the site. -/
inductive Worker
  /-- A delivery of the message; on its last retry it says so. -/
  | delivery (lastRetry : Bool)
  /-- A call of the coordinator with a preflight that was approved. -/
  | direct
  deriving DecidableEq, Repr

/-- What a worker runs; its result is of no interest to the site. -/
def Worker.code : Worker → Prog RestoreCall RestoreCall.Result Fault PUnit
  | .delivery lastRetry => ((executeRestore lastRetry).prog ()).bind fun _ => .done ⟨⟩
  | .direct => (execute.prog {}).bind fun _ => .done ⟨⟩

/-- What happens on the site beside its workers. -/
inductive Outside
  | tick (microseconds : ℕ)
  /-- An operation of the application saves a row: a new one, or new values of one that is there. -/
  | saveRow (r : LogicalRecord)
  | removeRow (key : ModelLabel × ℕ)
  | enableProducts (products : List ProductOwner)
  /-- Other operations of any business take leases, with a clock that was read before; they renew
  and give back those they took. -/
  | acquire (business : ℕ) (kind : OperationKind) (operation leaseSeconds read : ℕ)
  | heartbeat (n leaseSeconds read : ℕ)
  | release (n : ℕ)
  deriving DecidableEq, Repr

/-- The rows after a row is saved. -/
def storeRow (rows : Rows) (r : LogicalRecord) : Rows :=
  rows.filter (fun x => x.key != r.key) ++ [r]

/-- What an outside event does. -/
def Outside.apply (s : Site) : Outside → Site
  | .tick d => { s with now := s.now + d }
  | .saveRow r => { s with rows := storeRow s.rows r, saved := r.key :: s.saved }
  | .removeRow key => { s with rows := s.rows.filter fun x => x.key != key }
  | .enableProducts products => { s with products := products }
  | .acquire business kind operation leaseSeconds read =>
    match acquireTenantOperationLock s.locks business kind operation leaseSeconds
      (min read s.now) with
    | .ok (lock, locks) => { s with locks := locks, others := lock :: s.others }
    | .error _ => s
  | .heartbeat n leaseSeconds read =>
    match s.others[n]? with
    | some lock =>
      match heartbeatTenantOperationLock s.locks lock lock leaseSeconds (min read s.now) with
      | .ok (_, locks) => { s with locks := locks }
      | .error _ => s
    | none => s
  | .release n =>
    match s.others[n]? with
    | some lock => { s with locks := (releaseTenantOperationLock s.locks lock lock s.now).2 }
    | none => s

/-- Any number of workers on one site. -/
def restoreSystem (setup : RestoreSetup) :
    System ℕ Site RestoreCall RestoreCall.Result Fault Worker Outside where
  toMachine := restoreMachine setup
  code := Worker.code
  outside := fun x s => x.apply s

abbrev RestorePool := Pool ℕ Site RestoreCall RestoreCall.Result Fault

abbrev RestoreMove := Move ℕ Fault Worker Outside

/-- One move on the site. -/
def restoreStep (setup : RestoreSetup) (w : RestorePool) (m : RestoreMove) : RestorePool :=
  (restoreSystem setup).step w m

/-- What every call and every outside event keeps, every move keeps.  A call that is not served
moves the site only when it can raise after its effect. -/
lemma site_step {setup : RestoreSetup} {w : RestorePool} {m : RestoreMove} {I : Site → Prop}
    (hcall : ∀ who c a t, System.calls w m = some (who, c, a) → SiteMove setup w.shared c t →
      (a ≠ .served → c.torn = false → t = w.shared) → I w.shared → I t)
    (hout : ∀ x, m = .outside x → I w.shared → I (x.apply w.shared)) (h : I w.shared) :
    I (restoreStep setup w m).shared := by
  refine System.shared_invariant (S := restoreSystem setup) ?_ hout h
  intro who c a hc h
  refine hcall who c a _ hc (siteMove_answer setup w.shared who c a) (fun hserved htorn => ?_) h
  cases a with
  | served => exact absurd rfl hserved
  | raised e => rfl
  | lost e =>
    change (if c.torn then _ else w.shared) = w.shared
    rw [htorn]
    rfl

end NexaPos.Backups
