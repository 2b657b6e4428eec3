import NexaPos.Backups.Leases
import NexaPos.Backups.States
import NexaPos.Lib.Process

/-!
# The site of a backup

What the executions of one backup share: its record, the leases, the durable storage and the
clock.  `ExecutionCall` lists what they call, each as one step; a service that reads the record,
validates a transition and updates the row where the status is still the one it read is one step
as well.

The active storage provider is the local one or an S3-compatible one.  The local provider stores
under a fresh UUID; the other stores under a key made of the tenant and the backup, and a bucket
may keep versions.  Both keep what they stored in a registry of the running process.

The services of a lease read the clock before they touch the table, so `readClock` is a call of
its own; what was read is never after the present.

`history`, `validated` and `leased` record what happened and are read by no program.
-/

namespace NexaPos.Backups

/-! ## Exceptions -/

/-- The subclasses of `RuntimeEngineError`. -/
inductive RuntimeError
  | request
  | state
  | alreadyCompleted
  | lockUnavailable
  | lockLost
  | providerStack
  | verification
  | persistence
  | execution
  | coordination
  deriving DecidableEq, Repr

/-- `engine_code`. -/
def RuntimeError.code : RuntimeError → String
  | .request => "runtime_request_invalid"
  | .state => "execution_state_invalid"
  | .alreadyCompleted => "backup_already_completed"
  | .lockUnavailable => "lock_unavailable"
  | .lockLost => "lock_lost"
  | .providerStack => "runtime_provider_stack_invalid"
  | .verification => "package_verification_failure"
  | .persistence => "durable_finalization_failure"
  | .execution => "runtime_execution_failure"
  | .coordination => "phase2i_coordination_failed"

def RuntimeError.retryable : RuntimeError → Bool
  | .lockUnavailable => true
  | .lockLost => true
  | .persistence => true
  | _ => false

/-- What a step can raise, as far as the handlers tell exceptions apart. -/
inductive ExecutionFault
  | runtime (e : RuntimeError)
  /-- `TenantOperationLocked`. -/
  | locked
  /-- `BackupEngineDisabled`. -/
  | disabled
  /-- `ImproperlyConfigured`. -/
  | misconfigured
  /-- `EncryptedArtifactCleanupError`. -/
  | cleanup
  /-- Any other `BackupEngineError`, with its `engine_code`. -/
  | engine (code : String)
  /-- Any other `Exception`. -/
  | error
  /-- `KeyboardInterrupt`, `SystemExit` or `GeneratorExit`. -/
  | abort
  deriving DecidableEq, Repr

/-! ## Durable objects -/

/-- `opaque_object_key`, when it is not blank. -/
inductive ObjectKey
  | uuid (n : ℕ)
  | path (name : String)
  deriving DecidableEq, Repr

/-- `StoredBackupObjectReference`; no version stands for the blank one. -/
@[ext] structure StoredReference where
  key : ObjectKey
  bucket : String := ""
  version : Option ℕ := none
  deriving DecidableEq, Repr

/-- An object in durable storage. -/
structure StoredObject where
  reference : StoredReference
  byteCount : ℕ
  sha256 : String
  deriving DecidableEq, Repr

/-- `EncryptedArtifactResult`. -/
structure EncryptedArtifact where
  byteCount : ℕ
  sha256 : String
  deriving DecidableEq, Repr

def localBackend : String := "local-private-filesystem"

def s3Backend : String := "s3-compatible"

/-- `StoredBackupObjectResult`. -/
structure StoredBackupObjectResult where
  backend : String
  object : StoredObject
  stagingCleanupIncomplete : Bool
  deriving DecidableEq, Repr

/-- `S3StorageConfiguration`, and what the service does with versions.  The key is that of the
backup, `<prefix>/<tenant>/<backup>/artifact.bin`. -/
structure S3Configuration where
  bucket : String
  objectKey : String
  multipartThresholdBytes : ℕ
  multipartPartBytes : ℕ
  /-- The bucket keeps versions. -/
  versioned : Bool
  /-- The answer to an upload names the version. -/
  announcesVersion : Bool
  bucket_valid : bucket ≠ "" ∧ bucket.length ≤ 255
  key_valid : objectKey ≠ "" ∧ objectKey.length ≤ 500

/-- The active provider. -/
inductive StorageProvider
  | localPrivate
  | s3 (configuration : S3Configuration)

/-! ## The record -/

/-- `BackupRecord`, as far as an execution changes it. -/
structure BackupRecord where
  status : BackupStatus := .queued
  integrityStatus : IntegrityStatus := .notChecked
  storageBackendIdentifier : String := ""
  opaqueObjectKey : Option ObjectKey := none
  storageBucketIdentifier : String := ""
  storageObjectVersion : Option ℕ := none
  wholeArtifactHash : String := ""
  backupSizeBytes : ℕ := 0
  failureCode : String := ""
  failureSummary : String := ""
  deriving DecidableEq, Repr

/-- `_TRANSITIONAL_STATUSES`. -/
def BackupStatus.transitional (status : BackupStatus) : Bool :=
  status ∈ [.queued, .preparing, .snapshotting, .packaging, .uploading, .verifying]

/-- The record has left `QUEUED`, and is still transitional. -/
def BackupStatus.working (status : BackupStatus) : Bool :=
  status ∈ [.preparing, .snapshotting, .packaging, .uploading, .verifying]

/-- The record names the object: its key, bucket and version, its hash and its size. -/
def BackupRecord.Names (b : BackupRecord) (o : StoredObject) : Prop :=
  b.opaqueObjectKey = some o.reference.key ∧ b.storageBucketIdentifier = o.reference.bucket ∧
    b.storageObjectVersion = o.reference.version ∧ b.wholeArtifactHash = o.sha256 ∧
    b.backupSizeBytes = o.byteCount

instance (b : BackupRecord) (o : StoredObject) : Decidable (b.Names o) :=
  inferInstanceAs (Decidable (_ ∧ _))

/-- The record names no object. -/
def BackupRecord.Blank (b : BackupRecord) : Prop :=
  b.opaqueObjectKey = none ∧ b.storageBucketIdentifier = "" ∧ b.storageObjectVersion = none

instance (b : BackupRecord) : Decidable b.Blank := inferInstanceAs (Decidable (_ ∧ _))

/-- A change of the record: who made it, and the record before and after. -/
structure RecordChange where
  who : ℕ
  before : BackupRecord
  after : BackupRecord
  deriving DecidableEq, Repr

/-- The change moves the record out of `QUEUED`. -/
def RecordChange.leavesQueue (c : RecordChange) : Bool :=
  c.before.status == .queued && c.after.status != .queued

structure BackupSite where
  now : ℕ := 0
  record : BackupRecord := {}
  locks : Locks := []
  /-- The leases that operations beside the executions were given. -/
  others : List ℕ := []
  /-- The durable storage, the latest first. -/
  objects : List StoredObject := []
  /-- How many references were given out. -/
  references : ℕ := 0
  /-- The `_stored` of the provider of each execution. -/
  registered : List (ℕ × StoredBackupObjectResult) := []
  /-- The changes of status, integrity and storage metadata, the last first. -/
  history : List RecordChange := []
  /-- What was revalidated in storage, by whom. -/
  validated : List (ℕ × StoredBackupObjectResult) := []
  /-- The executions that were given a lease, the last first. -/
  leased : List ℕ := []

/-- What does not change while executions run. -/
structure ExecutionSetup where
  business : ℕ := 0
  backup : ℕ := 0
  provider : StorageProvider
  /-- The encrypted artifact of each execution. -/
  artifact : ℕ → EncryptedArtifact
  leaseSeconds : ℕ := 21600

/-- The execution changed the record. -/
def BackupSite.changed (s : BackupSite) (who : ℕ) (row : BackupRecord) : BackupSite :=
  { s with record := row, history := ⟨who, s.record, row⟩ :: s.history }

/-! ## Services -/

/-- The row that a transition writes. -/
def BackupRecord.moved (b : BackupRecord) (target : BackupStatus) (code summary : String) :
    BackupRecord :=
  if target = .failed then
    { b with status := target, failureCode := code, failureSummary := summary }
  else
    { b with status := target }

/-- `transition_backup`. -/
def transitionBackup (who : ℕ) (s : BackupSite) (target : BackupStatus) (code summary : String) :
    Except ExecutionFault BackupRecord × BackupSite :=
  if target ∉ backupTransitions s.record.status then
    (.error .error, s)
  else if target = .succeeded ∧ s.record.integrityStatus ≠ .verified then
    (.error .error, s)
  else
    let row := s.record.moved target code summary
    (.ok row, s.changed who row)

@[simp] lemma BackupRecord.moved_status (b : BackupRecord) (target : BackupStatus)
    (code summary : String) : (b.moved target code summary).status = target := by
  unfold moved
  split <;> rfl

/-- A transition leaves the storage fields. -/
@[simp] lemma BackupRecord.moved_names {b : BackupRecord} {target : BackupStatus}
    {code summary : String} {o : StoredObject} :
    (b.moved target code summary).Names o ↔ b.Names o := by
  unfold moved
  split <;> exact Iff.rfl

@[simp] lemma BackupRecord.moved_blank {b : BackupRecord} {target : BackupStatus}
    {code summary : String} : (b.moved target code summary).Blank ↔ b.Blank := by
  unfold moved
  split <;> exact Iff.rfl

lemma transitionBackup_cases (who : ℕ) (s : BackupSite) (target : BackupStatus)
    (code summary : String) :
    transitionBackup who s target code summary = (.error .error, s) ∨
    (target ∈ backupTransitions s.record.status ∧
      transitionBackup who s target code summary =
        (.ok (s.record.moved target code summary),
          s.changed who (s.record.moved target code summary))) := by
  unfold transitionBackup
  split
  · exact .inl rfl
  case isFalse hmem =>
    split
    · exact .inl rfl
    · exact .inr ⟨not_not.mp hmem, rfl⟩

/-- `set_backup_integrity`. -/
def setBackupIntegrity (who : ℕ) (s : BackupSite) (target : IntegrityStatus) :
    Except ExecutionFault BackupRecord × BackupSite :=
  if target ∈ integrityTransitions s.record.integrityStatus then
    let row := { s.record with integrityStatus := target }
    (.ok row, s.changed who row)
  else
    (.error .error, s)

lemma setBackupIntegrity_cases (who : ℕ) (s : BackupSite) (target : IntegrityStatus) :
    setBackupIntegrity who s target = (.error .error, s) ∨
    (target ∈ integrityTransitions s.record.integrityStatus ∧
      setBackupIntegrity who s target =
        (.ok { s.record with integrityStatus := target },
          s.changed who { s.record with integrityStatus := target })) := by
  unfold setBackupIntegrity
  split
  case isTrue hmem => exact .inr ⟨hmem, rfl⟩
  case isFalse => exact .inl rfl

/-- The row that `_persist_durable_metadata` writes. -/
def BackupRecord.stored (b : BackupRecord) (r : StoredBackupObjectResult) : BackupRecord :=
  { b with
    storageBackendIdentifier := r.backend
    opaqueObjectKey := some r.object.reference.key
    storageBucketIdentifier := r.object.reference.bucket
    storageObjectVersion := r.object.reference.version
    wholeArtifactHash := r.object.sha256
    backupSizeBytes := r.object.byteCount
    failureCode := ""
    failureSummary := "" }

/-- The storage fields of the record are blank or those of the object. -/
def BackupRecord.admits (b : BackupRecord) (r : StoredReference) : Bool :=
  (b.opaqueObjectKey.isNone || b.opaqueObjectKey == some r.key) &&
    (b.storageBucketIdentifier == "" || b.storageBucketIdentifier == r.bucket) &&
    (b.storageObjectVersion.isNone || b.storageObjectVersion == r.version)

/-- The update of `_persist_durable_metadata`. -/
def updateStored (who : ℕ) (s : BackupSite) (r : StoredBackupObjectResult) :
    Except ExecutionFault BackupRecord × BackupSite :=
  if s.record.status.transitional && s.record.admits r.object.reference then
    let row := s.record.stored r
    (.ok row, s.changed who row)
  else
    (.error (.runtime .persistence), s)

lemma BackupRecord.stored_names (b : BackupRecord) (r : StoredBackupObjectResult) :
    (b.stored r).Names r.object := ⟨rfl, rfl, rfl, rfl, rfl⟩

lemma updateStored_cases (who : ℕ) (s : BackupSite) (r : StoredBackupObjectResult) :
    updateStored who s r = (.error (.runtime .persistence), s) ∨
    (s.record.status.transitional = true ∧
      updateStored who s r = (.ok (s.record.stored r), s.changed who (s.record.stored r))) := by
  unfold updateStored
  split
  case isTrue h => exact .inr ⟨(Bool.and_eq_true_iff.mp h).1, rfl⟩
  case isFalse => exact .inl rfl

/-! ## Storage -/

/-- The object that a reference without a version finds, or that of the version. -/
def findObject (objects : List StoredObject) (r : StoredReference) : Option StoredObject :=
  objects.find? fun o => o.reference.key == r.key && o.reference.bucket == r.bucket &&
    (r.version.isNone || o.reference.version == r.version)

/-- An upload: the object replaces the one under its key, unless the bucket keeps versions. -/
def putObject (c : S3Configuration) (s : BackupSite) (a : EncryptedArtifact) :
    Option ℕ × BackupSite :=
  let reference : StoredReference :=
    ⟨.path c.objectKey, c.bucket, if c.versioned then some s.references else none⟩
  let rest := if c.versioned then s.objects else s.objects.filter (·.reference != reference)
  (if c.announcesVersion then reference.version else none,
    { s with
      objects := ⟨reference, a.byteCount, a.sha256⟩ :: rest
      references := s.references + 1 })

/-- The object that the local provider publishes under its reference. -/
def localObject (n : ℕ) (a : EncryptedArtifact) : StoredObject :=
  ⟨{ key := .uuid n }, a.byteCount, a.sha256⟩

/-- `_verify_reference`: it returns the version that the service names. -/
def verifyReference (s : BackupSite) (r : StoredReference) (a : EncryptedArtifact) :
    Except ExecutionFault (Option ℕ) :=
  match findObject s.objects r with
  | some o =>
    if o.byteCount = a.byteCount ∧ o.sha256 = a.sha256 then
      .ok o.reference.version
    else
      .error (.engine "durable_object_validation_failed")
  | none => .error (.engine "durable_object_not_found")

/-- `validate_stored_object`: the object is there as the result has it; the local provider asks
its registry as well. -/
def validateStoredObject (setup : ExecutionSetup) (who : ℕ) (s : BackupSite)
    (r : StoredBackupObjectResult) : Except ExecutionFault Unit :=
  let known : Bool := match setup.provider with
    | .localPrivate => (s.registered.find? fun x => x.1 == who) == some (who, r)
    | .s3 _ => true
  if known ∧ findObject s.objects r.object.reference = some r.object then
    .ok ()
  else
    .error (.engine "durable_object_validation_failed")

/-! ## Calls -/

/-- The activities of an execution. -/
inductive BackupEvent
  | executionStarted
  | snapshotCompleted
  | exportCompleted
  | manifestCompleted
  | packageCompleted
  | verified
  | encrypted
  | durableStored
  | completed
  | failed
  | cleanupDeferred
  | retention
  | executionBlocked
  deriving DecidableEq, Repr

/-- A step of an execution that can raise and leaves the site alone. -/
inductive ExecutionStep
  | assertExecutionAllowed
  | buildProviderStack
  | clock
  | resolveScope
  | createWorkspace
  | createSnapshot
  | exportComponents
  | buildManifest
  | buildPackage
  | verifyPackage
  | retryPlaintextCleanup
  | validateEncryptedArtifact
  | retryStagingCleanup
  | activity (event : BackupEvent)
  | hook
  | updateDuration
  | findEarlierBackups
  | retention
  | cleanupTransients
  | recordOutcome
  deriving DecidableEq, Repr

/-- A step of a storage provider that can raise and leaves the objects alone. -/
inductive StoreStep
  /-- Everything before the object is published. -/
  | prepare
  | createUpload
  | uploadPart (number : ℕ)
  | checkParts
  | abortUpload
  /-- The checks of an object after it was published. -/
  | checkPublished
  | stagingHook
  | cleanupStaging
  deriving DecidableEq, Repr

/-- When a provider writes a result to its registry. -/
inductive Registration
  | stored
  | staged
  /-- In `retry_encrypted_staging_cleanup`. -/
  | retried
  deriving DecidableEq, Repr

/-- What executions call. -/
inductive ExecutionCall
  | getBackup
  | transitionBackup (target : BackupStatus) (code summary : String)
  | setBackupIntegrity (target : IntegrityStatus)
  | updateStored (stored : StoredBackupObjectResult)
  /-- `timezone.now()`. -/
  | readClock
  | acquireLock (read : ℕ)
  | inheritLock (operation lock read : ℕ)
  | heartbeatLock (lock read : ℕ)
  | releaseLock (lock read : ℕ)
  | attempt (step : ExecutionStep)
  | encrypt
  | store (step : StoreStep)
  | newReference
  | linkObject (n : ℕ)
  | removeOwned (n : ℕ)
  | headObject
  | putObject
  | completeUpload
  | verifyReference (reference : StoredReference)
  | register (occasion : Registration) (stored : StoredBackupObjectResult)
  | validateStored (stored : StoredBackupObjectResult)
  deriving DecidableEq, Repr

/-- What a call answers. -/
@[reducible] def ExecutionCall.Result : ExecutionCall → Type
  | .getBackup => BackupRecord
  | .transitionBackup _ _ _ => BackupRecord
  | .setBackupIntegrity _ => BackupRecord
  | .updateStored _ => BackupRecord
  | .readClock => ℕ
  | .acquireLock _ => ℕ
  | .inheritLock _ _ _ => ℕ
  | .heartbeatLock _ _ => Bool
  | .releaseLock _ _ => Bool
  | .encrypt => EncryptedArtifact
  | .newReference => ℕ
  | .headObject => Option (Option ℕ)
  | .putObject => Option ℕ
  | .completeUpload => Option ℕ
  | .verifyReference _ => Option ℕ
  | _ => Unit

/-- An upload to the bucket of the active provider. -/
def uploadObject (setup : ExecutionSetup) (who : ℕ) (s : BackupSite) :
    Except ExecutionFault (Option ℕ) × BackupSite :=
  match setup.provider with
  | .s3 c =>
    let put := NexaPos.Backups.putObject c s (setup.artifact who)
    (.ok put.1, put.2)
  | .localPrivate => (.error .error, s)

/-- `_resolve_inherited_lock`. -/
def inheritLock (setup : ExecutionSetup) (s : BackupSite) (operation lock now : ℕ) :
    Except ExecutionFault ℕ :=
  match s.locks[lock]? with
  | some l =>
    if l.business = setup.business ∧ l.operationKind = .restore ∧
        l.operationPublicId = operation ∧ l.active = true ∧ now < l.leaseExpiresAt then
      .ok lock
    else
      .error (.runtime .lockUnavailable)
  | none => .error (.runtime .lockUnavailable)

/-- What each call does. -/
def ExecutionCall.exec (setup : ExecutionSetup) (who : ℕ) (s : BackupSite) :
    (c : ExecutionCall) → Except ExecutionFault c.Result × BackupSite
  | .getBackup => (.ok s.record, s)
  | .transitionBackup target code summary =>
    NexaPos.Backups.transitionBackup who s target code summary
  | .setBackupIntegrity target => NexaPos.Backups.setBackupIntegrity who s target
  | .updateStored r => NexaPos.Backups.updateStored who s r
  | .readClock => (.ok s.now, s)
  | .acquireLock read =>
    match acquireTenantOperationLock s.locks setup.business .backup setup.backup
      setup.leaseSeconds (min read s.now) with
    | .ok (lock, locks) => (.ok lock, { s with locks := locks, leased := who :: s.leased })
    | .error .locked => (.error .locked, s)
    | .error .invalid => (.error .error, s)
  | .inheritLock operation lock read =>
    match NexaPos.Backups.inheritLock setup s operation lock (min read s.now) with
    | .ok lock => (.ok lock, { s with leased := who :: s.leased })
    | .error e => (.error e, s)
  | .heartbeatLock lock read =>
    match heartbeatTenantOperationLock s.locks lock lock setup.leaseSeconds (min read s.now) with
    | .ok (renewed, locks) => (.ok renewed, { s with locks := locks })
    | .error _ => (.error .error, s)
  | .releaseLock lock read =>
    let r := releaseTenantOperationLock s.locks lock lock (min read s.now)
    (.ok r.1, { s with locks := r.2 })
  | .attempt _ => (.ok (), s)
  | .encrypt => (.ok (setup.artifact who), s)
  | .store _ => (.ok (), s)
  | .newReference => (.ok s.references, { s with references := s.references + 1 })
  | .linkObject n =>
    (.ok (), { s with objects := localObject n (setup.artifact who) :: s.objects })
  | .removeOwned n =>
    (.ok (), { s with objects := s.objects.filter fun o => o.reference.key != .uuid n })
  | .headObject =>
    match setup.provider with
    | .s3 c =>
      (.ok ((findObject s.objects ⟨.path c.objectKey, c.bucket, none⟩).map (·.reference.version)),
        s)
    | .localPrivate => (.error .error, s)
  | .putObject => uploadObject setup who s
  | .completeUpload => uploadObject setup who s
  | .verifyReference r => (NexaPos.Backups.verifyReference s r (setup.artifact who), s)
  | .register _ r => (.ok (), { s with registered := (who, r) :: s.registered })
  | .validateStored r =>
    match validateStoredObject setup who s r with
    | .ok _ => (.ok (), { s with validated := (who, r) :: s.validated })
    | .error e => (.error e, s)

/-- The calls with their meaning.  An exception from outside, such as that of a time limit or a
signal, can come after a call has taken effect. -/
def executionMachine (setup : ExecutionSetup) :
    Machine ℕ BackupSite ExecutionCall ExecutionCall.Result ExecutionFault where
  exec who c s := c.exec setup who s
  torn _ := true

end NexaPos.Backups
