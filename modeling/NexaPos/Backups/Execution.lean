import NexaPos.Backups.BackupSite

/-!
# The execution of a backup

`BackupExecutionCoordinator.execute` statement by statement, with the `store_encrypted_artifact`
of both storage providers, and `execute_backup`, the task that a delivery of a backup message
runs.  The local variables are those that the handlers read.
-/

namespace NexaPos.Backups.BackupExecution

open Routine

/-! ## Local variables and small steps -/

/-- `stage`. -/
inductive Stage
  | preparing
  | snapshot
  | componentExport
  | manifest
  | package
  | verification
  | encryption
  | durable
  | finalization
  deriving DecidableEq, Repr

/-- The local variables of `execute`. -/
structure Locals where
  backup : BackupRecord := {}
  lock : Option ℕ := none
  stage : Stage := .preparing
  stored : Option StoredBackupObjectResult := none
  /-- `durable_metadata_persisted`. -/
  persisted : Bool := false
  cleanupIncomplete : Bool := false
  deriving DecidableEq, Repr

/-- Code of an execution with the local variables `L`. -/
abbrev Code (L α : Type) := Routine L ExecutionCall ExecutionCall.Result ExecutionFault α

abbrev Execute (α : Type) := Code Locals α

variable {L : Type}

/-- Call an operation of the site. -/
abbrev ask (c : ExecutionCall) : Code L c.Result := perform c

def attempt (step : ExecutionStep) : Code L Unit := ask (.attempt step)

def attemptStore (step : StoreStep) : Code L Unit := ask (.store step)

/-- `_activity`. -/
def activity (event : BackupEvent) : Code L Unit := attempt (.activity event)

/-- What is raised is dropped, unless it is an abort. -/
def dropErrors (x : Code L Unit) : Code L Unit :=
  tryCatch x fun e => if e = .abort then throw e else pure ()

/-- The variable `backup` is bound to the row. -/
def bindBackup (row : BackupRecord) : Execute Unit := modify fun l => { l with backup := row }

def enterStage (stage : Stage) : Execute Unit := modify fun l => { l with stage := stage }

/-- `transition_backup`, with the row bound. -/
def moveBackup (target : BackupStatus) : Execute Unit := do
  let row ← ask (.transitionBackup target "" "")
  bindBackup row

/-- `acquire_tenant_operation_lock`. -/
def acquireLock : Execute ℕ := do
  let now ← ask .readClock
  ask (.acquireLock now)

/-- `_resolve_inherited_lock`. -/
def inheritLock (operation lock : ℕ) : Execute ℕ := do
  let now ← ask .readClock
  ask (.inheritLock operation lock now)

/-- `heartbeat_tenant_operation_lock`. -/
def heartbeatLock (lock : ℕ) : Execute Bool := do
  let now ← ask .readClock
  ask (.heartbeatLock lock now)

/-- `release_tenant_operation_lock`. -/
def releaseLock (lock : ℕ) : Execute Bool := do
  let now ← ask .readClock
  ask (.releaseLock lock now)

/-- `_heartbeat`. -/
def heartbeat (lock : ℕ) : Execute Unit := do
  let renewed ← heartbeatLock lock
  if renewed then pure () else throw (.runtime .lockLost)

/-- `_resolve_request`, as far as it looks at the status. -/
def resolveRequest : Execute BackupRecord := do
  let backup ← ask .getBackup
  if backup.status = .succeeded then
    throw (.runtime .alreadyCompleted)
  else if backup.status = .queued then
    pure backup
  else
    throw (.runtime .state)

/-- `_resolve_request`, with the record bound. -/
def resolveBackup : Execute Unit := do
  let backup ← resolveRequest
  bindBackup backup

/-! ## The storage providers -/

/-- `_safe_error` and `_safe_provider_error`. -/
def storageError : ExecutionFault → ExecutionFault
  | .engine code => .engine code
  | .abort => .abort
  | _ => .engine "durable_object_creation_failed"

/-- The end of both providers: the encrypted staging file is removed, and a failure of that kind
is left to a retry. -/
def cleanStaging (r : StoredBackupObjectResult) : Execute StoredBackupObjectResult := do
  let cleaned ← tryCatch
    (do
      attemptStore .cleanupStaging
      pure true)
    fun e => if e = .cleanup then pure false else throw e
  if cleaned then do
    let completed := { r with stagingCleanupIncomplete := false }
    ask (.register .staged completed)
    pure completed
  else
    pure r

/-- The result for an object that holds the artifact. -/
def storedResult (backend : String) (reference : StoredReference) (a : EncryptedArtifact) :
    StoredBackupObjectResult :=
  ⟨backend, ⟨reference, a.byteCount, a.sha256⟩, true⟩

/-- `LocalPrivateDurableStorageProvider.store_encrypted_artifact` up to `published_evidence`; what
was published is removed when a step after it raises. -/
def publishLocal (a : EncryptedArtifact) : Execute StoredBackupObjectResult := do
  let n ← ask .newReference
  let result := storedResult localBackend { key := .uuid n } a
  tryCatch
    (do
      attemptStore .prepare
      ask (.linkObject n)
      attemptStore .checkPublished
      ask (.register .stored result)
      pure result)
    fun e => do
      tryCatch (ask (.removeOwned n)) fun _ => pure ()
      throw (storageError e)

/-- `LocalPrivateDurableStorageProvider.store_encrypted_artifact`. -/
def storeLocal (a : EncryptedArtifact) : Execute StoredBackupObjectResult := do
  let result ← publishLocal a
  tryCatch
    (do
      attemptStore .stagingHook
      cleanStaging result)
    fun e => throw (storageError e)

/-- `_existing_reference`. -/
def existingReference (c : S3Configuration) : Execute (Option StoredReference) := do
  match ← ask .headObject with
  | none => pure none
  | some version => do
    let reference : StoredReference := ⟨.path c.objectKey, c.bucket, version⟩
    let _ ← ask (.verifyReference reference)
    pure (some reference)

/-- `_put_single`. -/
def putSingle : Execute (Option ℕ) := do
  let version ← ask .putObject
  attemptStore .checkPublished
  pure version

/-- The loop of `_put_multipart` over the parts that are left. -/
def uploadParts : List ℕ → Execute Unit
  | [] => pure ()
  | n :: rest => do
    attemptStore (.uploadPart n)
    uploadParts rest

/-- How many parts a multipart upload has: at most 10000. -/
def partCount (c : S3Configuration) (byteCount : ℕ) : ℕ :=
  let partBytes := max c.multipartPartBytes ((byteCount + 9999) / 10000)
  (byteCount + partBytes - 1) / partBytes

/-- `_put_multipart`. -/
def putMultipart (c : S3Configuration) (a : EncryptedArtifact) : Execute (Option ℕ) := do
  attemptStore .createUpload
  tryCatch
    (do
      uploadParts (List.range (partCount c a.byteCount))
      attemptStore .checkParts
      ask .completeUpload)
    fun e => do
      dropErrors (attemptStore .abortUpload)
      throw e

/-- A new object, by a single or a multipart upload. -/
def uploadArtifact (c : S3Configuration) (a : EncryptedArtifact) : Execute StoredReference := do
  let version ←
    if c.multipartThresholdBytes ≤ a.byteCount then putMultipart c a else putSingle
  pure ⟨.path c.objectKey, c.bucket, version⟩

/-- The object of the backup that is there, or a new one. -/
def publishS3 (c : S3Configuration) (a : EncryptedArtifact) : Execute StoredReference := do
  attemptStore .prepare
  match ← existingReference c with
  | some reference => pure reference
  | none => uploadArtifact c a

/-- The verification after the upload, and the registration. -/
def registerS3 (a : EncryptedArtifact) (reference : StoredReference) :
    Execute StoredBackupObjectResult := do
  let version ← ask (.verifyReference reference)
  let named := { reference with version := reference.version <|> version }
  let result := storedResult s3Backend named a
  ask (.register .stored result)
  cleanStaging result

/-- `S3CompatibleDurableStorageProvider.store_encrypted_artifact`. -/
def storeS3 (c : S3Configuration) (a : EncryptedArtifact) : Execute StoredBackupObjectResult :=
  tryCatch
    (do
      let reference ← publishS3 c a
      registerS3 a reference)
    fun e => throw (storageError e)

def storeEncryptedArtifact (provider : StorageProvider) (a : EncryptedArtifact) :
    Execute StoredBackupObjectResult :=
  match provider with
  | .localPrivate => storeLocal a
  | .s3 c => storeS3 c a

/-- `retry_encrypted_staging_cleanup`. -/
def retryStagingCleanup (r : StoredBackupObjectResult) : Execute StoredBackupObjectResult := do
  attempt .retryStagingCleanup
  let completed := { r with stagingCleanupIncomplete := false }
  ask (.register .retried completed)
  pure completed

/-! ## The body of `execute` -/

/-- `stored_reference_from_metadata` accepts the reference of the result. -/
def acceptsReference (r : StoredBackupObjectResult) : Bool :=
  match r.object.reference.key with
  | .uuid _ =>
    r.backend == localBackend && r.object.reference.bucket == "" &&
      r.object.reference.version.isNone
  | .path name =>
    r.backend == s3Backend && r.object.reference.bucket != "" &&
      decide (r.object.reference.bucket.length ≤ 255) && name != "" && decide (name.length ≤ 500)

/-- `_persist_durable_metadata`; the fields of the record that the variable holds are compared
before the update looks at the row. -/
def persistDurableMetadata (r : StoredBackupObjectResult) : Execute Unit := do
  let l ← get
  if acceptsReference r && l.backup.admits r.object.reference then do
    let row ← ask (.updateStored r)
    bindBackup row
  else
    throw (.runtime .persistence)

/-- The tenant lease, or that of a restore. -/
def takeLease (lease : Option (ℕ × ℕ)) : Execute ℕ :=
  match lease with
  | none =>
    tryCatch acquireLock fun e =>
      if e = .locked then do
        activity .failed
        throw (.runtime .lockUnavailable)
      else
        throw e
  | some (operation, lock) => inheritLock operation lock

/-- An activity, a hook and a heartbeat stand at the end of a stage. -/
def endStage (lock : ℕ) (event : BackupEvent) : Execute Unit := do
  activity event
  attempt .hook
  heartbeat lock

/-- Up to `PREPARING`. -/
def beginExecution (lease : Option (ℕ × ℕ)) : Execute ℕ := do
  let lock ← takeLease lease
  modify fun l => { l with lock := some lock }
  resolveBackup
  attempt .resolveScope
  attempt .createWorkspace
  moveBackup .preparing
  endStage lock .executionStarted
  pure lock

/-- From the snapshot to the verified package. -/
def buildPackage (lock : ℕ) : Execute Unit := do
  enterStage .snapshot
  moveBackup .snapshotting
  attempt .createSnapshot
  endStage lock .snapshotCompleted
  enterStage .componentExport
  attempt .exportComponents
  endStage lock .exportCompleted
  enterStage .manifest
  attempt .buildManifest
  endStage lock .manifestCompleted
  enterStage .package
  moveBackup .packaging
  attempt .buildPackage
  endStage lock .packageCompleted
  enterStage .verification
  attempt .verifyPackage
  endStage lock .verified

/-- The encrypted artifact. -/
def encryptPackage (lock : ℕ) : Execute EncryptedArtifact := do
  enterStage .encryption
  let artifact ← ask .encrypt
  attempt .retryPlaintextCleanup
  attempt .validateEncryptedArtifact
  endStage lock .encrypted
  pure artifact

/-- `stored` is assigned. -/
def bindStored (r : StoredBackupObjectResult) : Execute Unit :=
  modify fun l => { l with stored := some r }

/-- The variable `stored`, after the retry of its staging clean-up where that is incomplete. -/
def storeArtifact (provider : StorageProvider) (a : EncryptedArtifact) :
    Execute StoredBackupObjectResult := do
  let r ← storeEncryptedArtifact provider a
  bindStored r
  if r.stagingCleanupIncomplete then do
    let completed ← retryStagingCleanup r
    bindStored completed
    pure completed
  else
    pure r

/-- Revalidation and persistence of what was stored. -/
def recordStored (lock : ℕ) (r : StoredBackupObjectResult) : Execute Unit := do
  attempt .hook
  ask (.validateStored r)
  attempt .hook
  persistDurableMetadata r
  modify fun l => { l with persisted := true }
  activity .durableStored
  heartbeat lock

/-- The stage `durable`. -/
def storeDurably (provider : StorageProvider) (lock : ℕ) (a : EncryptedArtifact) :
    Execute Unit := do
  enterStage .durable
  moveBackup .uploading
  let r ← storeArtifact provider a
  recordStored lock r

/-- `_execute_retention`; of the new backup alone nothing is deleted. -/
def executeRetention : Execute Unit := do
  attempt .findEarlierBackups
  dropErrors (attempt .retention)
  activity .retention

def moveIntegrity (target : IntegrityStatus) : Execute Unit := do
  let row ← ask (.setBackupIntegrity target)
  bindBackup row

/-- The stage `finalization`. -/
def finishBackup (lock : ℕ) : Execute Unit := do
  enterStage .finalization
  moveBackup .verifying
  moveIntegrity .verifying
  moveIntegrity .verified
  attempt .hook
  moveBackup .succeeded
  attempt .clock
  attempt .updateDuration
  endStage lock .completed
  executeRetention

/-- The body of the `try` statement of `execute`. -/
def executeBody (provider : StorageProvider) (lease : Option (ℕ × ℕ)) : Execute Unit := do
  let lock ← beginExecution lease
  buildPackage lock
  let artifact ← encryptPackage lock
  storeDurably provider lock artifact
  finishBackup lock

/-! ## Failures -/

/-- The table of `_failure_for_stage`. -/
def Stage.failure : Stage → String × String
  | .preparing => ("execution_state_invalid", "Backup preparation failed safely.")
  | .snapshot => ("snapshot_failure", "The database snapshot could not be completed.")
  | .componentExport =>
    ("logical_export_failure", "Logical backup export could not be completed.")
  | .manifest => ("media_manifest_failure", "Media and manifest capture could not be completed.")
  | .package => ("package_failure", "The deterministic package could not be completed.")
  | .verification => ("package_verification_failure", "Independent package verification failed.")
  | .encryption => ("encryption_failure", "Authenticated backup encryption failed.")
  | .durable => ("durable_storage_failure", "Durable encrypted storage could not be completed.")
  | .finalization =>
    ("durable_finalization_failure", "Durable backup metadata could not be finalized.")

/-- The code of `_failure_for_stage`: that of the exception, if it has one. -/
def failureCode (stage : Stage) : ExecutionFault → String
  | .runtime e => e.code
  | .engine code => code
  | .disabled => "backup_engine_disabled"
  | .cleanup => "encrypted_artifact_cleanup_failed"
  | _ => stage.failure.1

/-- `_safe_error`. -/
def safeError : ExecutionFault → ExecutionFault
  | .runtime e => .runtime e
  | .engine _ => .runtime .execution
  | .disabled => .runtime .execution
  | .cleanup => .runtime .execution
  | .abort => .abort
  | _ => .runtime .coordination

/-- What was stored and not yet persisted is persisted by the handlers. -/
def persistPending : Execute Unit := do
  let l ← get
  match l.stored with
  | some r =>
    if l.persisted then
      pure ()
    else
      dropErrors (do
        persistDurableMetadata r
        modify fun l => { l with persisted := true })
  | none => pure ()

/-- The first half of `_mark_failed`: the integrity of a record that is not checked yet. -/
def markIntegrityFailed (current : BackupRecord) : Execute Unit :=
  if current.integrityStatus = .notChecked ∨ current.integrityStatus = .verifying then
    tryCatch
      (do
        let _ ← ask (.setBackupIntegrity .failed))
      fun e =>
        if e = .abort then
          throw e
        else do
          let _ ← ask .getBackup
  else
    pure ()

/-- `_mark_failed`. -/
def markFailed (code summary : String) : Execute Unit := do
  let current ← ask .getBackup
  if current.status.transitional then do
    markIntegrityFailed current
    let row ← ask (.transitionBackup .failed code summary)
    bindBackup row
  else
    bindBackup current

/-- The failure is recorded by a run that holds a lease. -/
def recordFailure (e : ExecutionFault) : Execute Unit := do
  let l ← get
  if l.lock.isSome then
    dropErrors (do
      markFailed (failureCode l.stage e) l.stage.failure.2
      activity .failed)

/-- The handlers of `execute`. -/
def settleFailure (e : ExecutionFault) : Execute Unit := do
  persistPending
  if e = .abort then
    throw .abort
  else do
    recordFailure e
    throw (safeError e)

/-- `_cleanup_transients`; it raises nothing but an abort. -/
def cleanupTransients : Execute Unit :=
  tryCatch (attempt .cleanupTransients) fun e =>
    if e = .abort then throw e else modify fun l => { l with cleanupIncomplete := true }

/-- After the clean-up: its activity, and the release of a lease that is the run's own. -/
def releaseLease (lease : Option (ℕ × ℕ)) : Execute Unit := do
  let l ← get
  match l.lock with
  | none => pure ()
  | some lock => do
    if l.cleanupIncomplete then
      dropErrors (activity .cleanupDeferred)
    if lease.isNone then
      let _ ← releaseLock lock

/-- `BackupExecutionCoordinator.execute`, with the operation and the lease of a restore where it
inherits one. -/
def execute (provider : StorageProvider) (lease : Option (ℕ × ℕ)) : Execute Unit := do
  attempt .clock
  resolveBackup
  ensure (tryCatch (executeBody provider lease) settleFailure)
    (ensure cleanupTransients (releaseLease lease))

/-! ## The worker -/

abbrev Task (α : Type) := Code Unit α

/-- `_mark_execution_blocked`; it looks at the record that it was given. -/
def markExecutionBlocked (backup : BackupRecord) (code : String) : Task Unit := do
  if backup.status = .queued then
    let _ ← ask (.transitionBackup .failed code
      "Backup execution was blocked; no artifact was created.")
  activity .executionBlocked

/-- `request_backup_execution`. -/
def requestBackupExecution (provider : StorageProvider) : Task Unit := do
  attempt .assertExecutionAllowed
  let _ ← ask .getBackup
  attempt .buildProviderStack
  withLocals (execute provider none) {}

/-- What a delivery does when its guards raise. -/
def handleBlocked (backup : BackupRecord) (e : ExecutionFault) : Task Unit :=
  if e = .disabled ∨ e = .misconfigured then do
    let code := if e = .disabled then "backup_engine_disabled" else "async_configuration_unsafe"
    markExecutionBlocked backup code
    attempt .recordOutcome
    throw e
  else
    throw e

/-- What a delivery does with a `RuntimeEngineError`; a retry is a delivery of its own. -/
def handleRuntimeError (lastRetry : Bool) (r : RuntimeError) : Task Unit := do
  let backup ← ask .getBackup
  if r.retryable ∧ backup.status = .queued ∧ lastRetry = false then
    throw (.runtime r)
  else do
    if r.retryable ∧ backup.status = .queued then
      markExecutionBlocked backup "task_retry_exhausted"
    attempt .recordOutcome
    throw (.runtime r)

/-- What a delivery does with the exception of an execution. -/
def handleFailure (lastRetry : Bool) (e : ExecutionFault) : Task Unit :=
  match e with
  | .runtime r => handleRuntimeError lastRetry r
  | e => throw e

/-- `execute_backup`. -/
def executeBackup (provider : StorageProvider) (lastRetry : Bool) : Task Unit := do
  let backup ← ask .getBackup
  tryCatch (attempt .assertExecutionAllowed) (handleBlocked backup)
  tryCatch (requestBackupExecution provider) (handleFailure lastRetry)
  let _ ← ask .getBackup
  attempt .recordOutcome

/-- What can be started on the site. -/
inductive Runner
  /-- A delivery of the message; on its last retry it says so. -/
  | delivery (lastRetry : Bool)
  /-- A call of the coordinator, under a lease of its own or that of a restore. -/
  | direct (lease : Option (ℕ × ℕ))
  deriving DecidableEq, Repr

/-- What a runner runs; its result is of no interest to the site. -/
def Runner.code (provider : StorageProvider) :
    Runner → Prog ExecutionCall ExecutionCall.Result ExecutionFault PUnit
  | .delivery lastRetry =>
    ((executeBackup provider lastRetry).prog ()).bind fun _ => .done ⟨⟩
  | .direct lease => ((execute provider lease).prog {}).bind fun _ => .done ⟨⟩

/-- What happens on the site beside its executions: time passes, and other operations take leases,
with a clock that was read before, renew them and give them back. -/
inductive Beside
  | tick (microseconds : ℕ)
  | acquire (business : ℕ) (kind : OperationKind) (operation leaseSeconds read : ℕ)
  | heartbeat (n leaseSeconds read : ℕ)
  | release (n : ℕ)
  deriving DecidableEq, Repr

/-- What happens beside the executions. -/
def Beside.apply (s : BackupSite) : Beside → BackupSite
  | .tick d => { s with now := s.now + d }
  | .acquire business kind operation leaseSeconds read =>
    match acquireTenantOperationLock s.locks business kind operation leaseSeconds
      (min read s.now) with
    | .ok (lock, locks) => { s with locks := locks, others := lock :: s.others }
    | .error _ => s
  | .heartbeat n leaseSeconds read =>
    match s.others[n]? with
    | some lock =>
      match heartbeatTenantOperationLock s.locks lock lock leaseSeconds (min read s.now) with
      | .ok (_, locks) => { s with locks := locks }
      | .error _ => s
    | none => s
  | .release n =>
    match s.others[n]? with
    | some lock => { s with locks := (releaseTenantOperationLock s.locks lock lock s.now).2 }
    | none => s

/-- Any number of executions of one backup. -/
def executionSystem (setup : ExecutionSetup) :
    System ℕ BackupSite ExecutionCall ExecutionCall.Result ExecutionFault Runner Beside where
  toMachine := executionMachine setup
  code := Runner.code setup.provider
  outside := fun x s => x.apply s

abbrev ExecutionPool := Pool ℕ BackupSite ExecutionCall ExecutionCall.Result ExecutionFault

abbrev ExecutionMove := Move ℕ ExecutionFault Runner Beside

/-- One move on the site. -/
def executionStep (setup : ExecutionSetup) (w : ExecutionPool) (m : ExecutionMove) :
    ExecutionPool :=
  (executionSystem setup).step w m

end NexaPos.Backups.BackupExecution
