import NexaPos.Backups.Leases
import NexaPos.Backups.Logical
import NexaPos.Backups.States
import NexaPos.Lib.Process

/-!
# The site of a restore

What the workers of one restore operation share: its row, the tenant's rows and media files, the
safety backups taken for it, the leases and the clock.  `RestoreCall` lists what they call, each
as one step.  A service that validates a transition and then updates the row where the status is
still the one it read is one step as well: between the two nothing else can have changed the
status, or the update finds no row and the call raises.

The writes of a database transaction are not seen before it commits.  The statements inside the
mutation transaction therefore leave the site alone, and `commitMutation` makes them all at once;
the update of the row inside it locks the row, so that its status is still the one it found.

The services of a lease read the clock before they touch the table, so `readClock` is a call of
its own; what was read is never after the present.

`mutations` and `Site.saved` record what happened and are read by no program.
-/

namespace NexaPos.Backups

/-- What a step can raise, as far as the handlers tell exceptions apart. -/
inductive Fault
  /-- `RestoreLockUnavailable`. -/
  | lockUnavailable
  /-- Any other `RestoreEngineError`. -/
  | engine
  /-- Any other `Exception`. -/
  | error
  /-- `KeyboardInterrupt`, `SystemExit` or `GeneratorExit`. -/
  | abort
  deriving DecidableEq, Repr

/-- `failure_code`. -/
inductive FailureCode
  | blank
  /-- `pre_mutation_` and the code of the error. -/
  | preMutation (cause : Fault)
  | preMutationRetryExhausted
  | recoveryRequired
  deriving DecidableEq, Repr

/-- `failure_code.startswith("pre_mutation_")`. -/
def FailureCode.isPreMutation : FailureCode → Bool
  | .preMutation _ => true
  | .preMutationRetryExhausted => true
  | _ => false

/-- `RestoreOperation`. -/
structure RestoreOperation where
  status : RestoreStatus := .queued
  failureCode : FailureCode := .blank
  rollbackAttempted : Bool := false
  safetyBackup : Option ℕ := none
  deriving DecidableEq, Repr

/-- A safety backup of this restore; `parent_restore_operation` is the restore itself. -/
structure SafetyBackup where
  status : BackupStatus := .queued
  integrityStatus : IntegrityStatus := .notChecked
  isProtected : Bool := true
  retentionEligible : Bool := false
  componentKeys : List ComponentKey := []
  contents : Rows := []
  /-- When its snapshot was taken, counted in saved rows. -/
  takenAt : ℕ := 0
  deriving DecidableEq, Repr

/-- What `_create_safety_backup` and `set_restore_safety_backup` ask of a safety backup. -/
def SafetyBackup.acceptable (b : SafetyBackup) : Bool :=
  b.isProtected && !b.retentionEligible && b.status == .succeeded && b.integrityStatus == .verified

/-- A media file; the identity is that of its inode. -/
structure MediaFile where
  identity : ℕ
  sha256 : String
  deriving DecidableEq, Repr

/-- `_StagedObject`. -/
structure StagedObject where
  target : String
  sha256 : String
  reuseExisting : Bool
  deriving DecidableEq, Repr

/-- A committed mutation. -/
structure Mutation where
  lock : ℕ
  /-- The lease of the worker stood when the mutation committed. -/
  leaseStood : Bool
  deleted : Rows
  safety : Option SafetyBackup
  deriving DecidableEq, Repr

structure Site where
  now : ℕ := 0
  restore : RestoreOperation := {}
  locks : Locks := []
  rows : Rows := []
  products : List ProductOwner := [.pos]
  media : String → Option MediaFile := fun _ => none
  nextFile : ℕ := 0
  /-- The leases that operations beside the workers were given. -/
  others : List ℕ := []
  safeties : List SafetyBackup := []
  mutations : List Mutation := []
  /-- The keys of the rows saved so far, the last first. -/
  saved : List (ModelLabel × ℕ) := []

/-- What does not change while the restore runs: the models of the program, the tenant, the
source package with its media files, and the settings. -/
structure RestoreSetup where
  specs : Specs
  models : ModelLayer
  dir : Directory
  source : PreparedLogicalRestore
  sourceMedia : List (String × String) := []
  operation : ℕ := 0
  /-- `BACKUP_EXECUTION_LOCK_LEASE_SECONDS`. -/
  leaseSeconds : ℕ := 21600

/-- `RestoreClaimState`. -/
inductive RestoreClaimState
  | claimed
  | alreadySucceeded
  | activeOrAmbiguous
  | recoveryRequired
  | retryForbidden
  deriving DecidableEq, Repr

/-- The activities of a restore. -/
inductive RestoreEvent
  | workerStarted
  | started
  | preflightValidated
  | safetyBackupStarted
  | safetyBackupCompleted
  | mutationStarted
  | mediaCompleted
  | postVerificationCompleted
  | completed
  | failed
  | recoveryRequired
  deriving DecidableEq, Repr

/-- A step that can raise and leaves the site alone. -/
inductive RestoreStep
  | assertWorkerContext
  | buildRuntime
  /-- The work of a preflight between two looks at its lease. -/
  | preflight
  | resolveRequest
  | readResultEvidence
  | activity (event : RestoreEvent)
  | hook
  | revalidate
  /-- The checks of a published file after its link was made, and the removal of its first name. -/
  | checkPublished
  | removeCreatedDirectories
  | cleanupMedia
  | cleanupPreflight
  deriving DecidableEq, Repr

/-- What the workers call. -/
inductive RestoreCall
  | getRestore
  | claimRestoreOperation
  | restartFailedRestoreBeforeMutation
  | transitionRestore (target : RestoreStatus) (code : FailureCode)
  | markRetryExhausted
  | getSafetyBackup (safety : ℕ)
  | setRestoreSafetyBackup (safety : ℕ)
  | createSafetyRequest
  | takeSafetySnapshot (safety : ℕ)
  | finishSafetyBackup (safety : ℕ)
  /-- `timezone.now()`. -/
  | readClock
  | acquireLock (read : ℕ)
  | heartbeatLock (lock read : ℕ)
  | releaseLock (lock read : ℕ)
  | attempt (step : RestoreStep)
  | prepare
  | validateDependencies
  | stageMedia
  | mutate
  | publishOne (item : StagedObject)
  | enterVerifying
  | verifyRestored (rows : Rows)
  | verifyMedia (items : List StagedObject)
  | commitMutation (lock : ℕ)
  | unlinkCreated (target : String) (identity : ℕ)
  deriving DecidableEq, Repr

/-- The token that a call gives back. -/
def RestoreCall.token : RestoreCall → Option ℕ
  | .releaseLock lock _ => some lock
  | _ => none

/-- The time that a call on the leases was given. -/
def RestoreCall.read : RestoreCall → ℕ
  | .acquireLock read => read
  | .heartbeatLock _ read => read
  | .releaseLock _ read => read
  | _ => 0

/-- The lease that a call renews. -/
def RestoreCall.renewal : RestoreCall → Option ℕ
  | .heartbeatLock lock _ => some lock
  | _ => none

/-- What a call answers. -/
@[reducible] def RestoreCall.Result : RestoreCall → Type
  | .getRestore => RestoreOperation
  | .claimRestoreOperation => RestoreClaimState × RestoreOperation
  | .restartFailedRestoreBeforeMutation => RestoreOperation
  | .transitionRestore _ _ => RestoreOperation
  | .getSafetyBackup _ => Option SafetyBackup
  | .createSafetyRequest => ℕ
  | .readClock => ℕ
  | .acquireLock _ => ℕ
  | .heartbeatLock _ _ => Bool
  | .releaseLock _ _ => Bool
  | .prepare => PreparedLogicalRestore
  | .stageMedia => List StagedObject
  | .mutate => Rows
  | .publishOne _ => Option ℕ
  | _ => Unit

/-! ## The row of the restore -/

/-- The row that a transition writes. -/
def RestoreOperation.moved (r : RestoreOperation) (target : RestoreStatus) (code : FailureCode) :
    RestoreOperation :=
  { r with
    status := target
    failureCode := if target = .failed ∨ target = .indeterminate then code else r.failureCode
    rollbackAttempted :=
      r.rollbackAttempted || target == .rollingBack || target == .rolledBack }

/-- The safety backup that the restore names. -/
def Site.safety (s : Site) : Option SafetyBackup := s.restore.safetyBackup.bind (s.safeties[·]?)

/-- `transition_restore`. -/
def transitionRestore (s : Site) (target : RestoreStatus) (code : FailureCode) :
    Except Fault RestoreOperation × Site :=
  if target ∉ restoreTransitions s.restore.status then
    (.error .error, s)
  else if s.restore.status = .safetyBackup ∧ target = .validating ∧
      ¬ s.safety.any (fun b => b.isProtected && b.status == .succeeded &&
        b.integrityStatus == .verified) then
    (.error .error, s)
  else
    let row := s.restore.moved target code
    (.ok row, { s with restore := row })

lemma transitionRestore_cases (s : Site) (target : RestoreStatus) (code : FailureCode) :
    transitionRestore s target code = (.error .error, s) ∨
    (target ∈ restoreTransitions s.restore.status ∧
      (s.restore.status = .safetyBackup → target = .validating → s.safety.isSome = true) ∧
      transitionRestore s target code = (.ok (s.restore.moved target code),
        { s with restore := s.restore.moved target code })) := by
  unfold transitionRestore
  split
  · exact .inl rfl
  case isFalse hmem =>
    split
    · exact .inl rfl
    case isFalse hsafe =>
      refine .inr ⟨not_not.mp hmem, fun hs ht => ?_, rfl⟩
      have hany := not_not.mp fun h => hsafe ⟨hs, ht, h⟩
      rw [Option.any_eq_true] at hany
      exact Option.isSome_iff_exists.mpr (hany.imp fun _ h => h.1)

/-- A failure before the mutation, which the restore can be started again from. -/
def RestoreOperation.retryable (r : RestoreOperation) : Bool :=
  r.status == .failed && r.failureCode.isPreMutation && !r.rollbackAttempted

/-- The row as a claim or a restart leaves it. -/
def RestoreOperation.authorized (r : RestoreOperation) : RestoreOperation :=
  { r with
    status := .authorizing
    failureCode := if r.status = .failed then .blank else r.failureCode }

/-- `claim_restore_operation`: the row is locked while it is read and written. -/
def claimRestoreOperation (s : Site) : RestoreClaimState × Site :=
  match s.restore.status with
  | .succeeded => (.alreadySucceeded, s)
  | .indeterminate => (.recoveryRequired, s)
  | .rolledBack => (.retryForbidden, s)
  | .queued => (.claimed, { s with restore := s.restore.authorized })
  | .failed =>
    if s.restore.retryable then
      (.claimed, { s with restore := s.restore.authorized })
    else
      (.retryForbidden, s)
  | _ => (.activeOrAmbiguous, s)

lemma claimRestoreOperation_cases (s : Site) :
    ((claimRestoreOperation s).1 ≠ .claimed ∧ (claimRestoreOperation s).2 = s) ∨
    ((s.restore.status = .queued ∨ s.restore.retryable = true) ∧
      claimRestoreOperation s = (.claimed, { s with restore := s.restore.authorized })) := by
  unfold claimRestoreOperation
  cases hstatus : s.restore.status
  case queued => exact .inr ⟨.inl rfl, rfl⟩
  case failed =>
    by_cases hr : s.restore.retryable = true
    · exact .inr ⟨.inr hr, by simp [hr]⟩
    · exact .inl (by simp [hr])
  all_goals exact .inl ⟨by simp, rfl⟩

/-- `restart_failed_restore_before_mutation`. -/
def restartFailedRestore (s : Site) : Except Fault RestoreOperation × Site :=
  if s.restore.retryable then
    (.ok s.restore.authorized, { s with restore := s.restore.authorized })
  else
    (.error .error, s)

lemma restartFailedRestore_cases (s : Site) :
    restartFailedRestore s = (.error .error, s) ∨
    (s.restore.retryable = true ∧ restartFailedRestore s =
      (.ok s.restore.authorized, { s with restore := s.restore.authorized })) := by
  unfold restartFailedRestore
  split
  case isTrue hr => exact .inr ⟨hr, rfl⟩
  case isFalse => exact .inl rfl

lemma RestoreOperation.failed_of_retryable {r : RestoreOperation} (h : r.retryable = true) :
    r.status = .failed := by
  simp only [retryable, Bool.and_eq_true, beq_iff_eq] at h
  exact h.1.1

/-- The update of `_mark_restore_retry_exhausted`. -/
def markRetryExhausted (s : Site) : Site :=
  if s.restore.status = .failed ∧ s.restore.rollbackAttempted = false then
    { s with restore := { s.restore with failureCode := .preMutationRetryExhausted } }
  else
    s

/-! ## Safety backups -/

/-- `set_restore_safety_backup`. -/
def setRestoreSafetyBackup (s : Site) (safety : ℕ) : Except Fault Unit × Site :=
  match s.safeties[safety]? with
  | some b =>
    if b.isProtected && b.status == .succeeded && b.integrityStatus == .verified then
      (.ok (), { s with restore := { s.restore with safetyBackup := some safety } })
    else
      (.error .error, s)
  | none => (.error .error, s)

/-- The safety backup after its snapshot. -/
def SafetyBackup.taken (b : SafetyBackup) (s : Site) (keys : List ComponentKey) : SafetyBackup :=
  { b with
    status := .snapshotting
    componentKeys := keys
    contents := exportComponents s.rows keys
    takenAt := s.saved.length }

/-- The snapshot of a safety backup that is `QUEUED`: the rows of the components of the enabled
products. -/
def takeSafetySnapshot (s : Site) (safety : ℕ) : Except Fault Unit × Site :=
  match s.safeties[safety]?, resolveComponents .allEnabled s.products with
  | some b, .ok components =>
    if b.status = .queued then
      (.ok (), { s with safeties := s.safeties.set safety (b.taken s (components.map (·.key))) })
    else
      (.error .error, s)
  | _, _ => (.error .error, s)

/-- The safety backup after it was stored and verified. -/
def SafetyBackup.finished (b : SafetyBackup) : SafetyBackup :=
  { b with status := .succeeded, integrityStatus := .verified }

/-- The end of a safety backup: stored, verified and recorded. -/
def finishSafetyBackup (s : Site) (safety : ℕ) : Except Fault Unit × Site :=
  match s.safeties[safety]? with
  | some b =>
    if b.status = .snapshotting then
      (.ok (), { s with safeties := s.safeties.set safety b.finished })
    else
      (.error .error, s)
  | none => (.error .error, s)

/-! ## Media files -/

/-- `LocalFilesystemMediaRestoreProvider.stage`: a target that is there must be the same file. -/
def stageMedia (setup : RestoreSetup) (s : Site) : Except Fault (List StagedObject) :=
  setup.sourceMedia.mapM fun (target, sha256) =>
    match s.media target with
    | some f => if f.sha256 = sha256 then .ok ⟨target, sha256, true⟩ else .error .engine
    | none => .ok ⟨target, sha256, false⟩

/-- `_publish_one`: the identity of the file it linked, if it linked one. -/
def publishOne (s : Site) (item : StagedObject) : Except Fault (Option ℕ) × Site :=
  match s.media item.target with
  | some f =>
    if item.reuseExisting && f.sha256 == item.sha256 then (.ok none, s) else (.error .engine, s)
  | none =>
    if item.reuseExisting then
      (.error .engine, s)
    else
      (.ok (some s.nextFile),
        { s with
          media := Function.update s.media item.target (some ⟨s.nextFile, item.sha256⟩)
          nextFile := s.nextFile + 1 })

/-- `verify` of the media provider. -/
def verifyMedia (s : Site) (items : List StagedObject) : Except Fault Unit :=
  if items.all fun x => (s.media x.target).any fun f => f.sha256 == x.sha256 then
    .ok ()
  else
    .error .engine

/-- One file of a rollback: only the file with the identity that was created is removed. -/
def unlinkCreated (s : Site) (target : String) (identity : ℕ) : Except Fault Unit × Site :=
  match s.media target with
  | some f =>
    if f.identity = identity then
      (.ok (), { s with media := Function.update s.media target none })
    else
      (.error .engine, s)
  | none => (.error .engine, s)

/-! ## The mutation -/

/-- What `mutate` makes of the rows. -/
def mutated (setup : RestoreSetup) (rows : Rows) : Except RestoreIssue Rows :=
  mutate setup.specs setup.models setup.dir rows setup.source

/-- The site after a mutation that left the given rows; what it wrote counts as saved. -/
def Site.committed (s : Site) (setup : RestoreSetup) (lock : ℕ) (rows : Rows) : Site :=
  { s with
    restore := s.restore.moved .verifying .blank
    rows := rows
    saved := (rows.filter fun r => !s.rows.contains r).map (·.key) ++ s.saved
    mutations := { lock := lock
                   leaseStood := decide (Stands s.locks lock)
                   deleted := deletedRows setup.specs s.rows setup.source
                   safety := s.safety } :: s.mutations }

/-- The commit of the mutation transaction: the rows are replaced and the status becomes
`VERIFYING`, or nothing happens. -/
def commitMutation (setup : RestoreSetup) (s : Site) (lock : ℕ) : Except Fault Unit × Site :=
  if s.restore.status = .restoring then
    match mutated setup s.rows with
    | .ok rows => (.ok (), s.committed setup lock rows)
    | .error _ => (.error .engine, s)
  else
    (.error .error, s)

lemma commitMutation_cases (setup : RestoreSetup) (s : Site) (lock : ℕ) :
    (∃ e, commitMutation setup s lock = (.error e, s)) ∨
    ∃ rows, s.restore.status = .restoring ∧ mutated setup s.rows = .ok rows ∧
      commitMutation setup s lock = (.ok (), s.committed setup lock rows) := by
  unfold commitMutation
  split
  case isTrue hstatus =>
    cases hm : mutated setup s.rows with
    | ok rows => exact .inr ⟨rows, hstatus, rfl, rfl⟩
    | error e => exact .inl ⟨_, rfl⟩
  case isFalse => exact .inl ⟨_, rfl⟩

/-! ## The machine -/

/-- What each call does. -/
def RestoreCall.exec (setup : RestoreSetup) (s : Site) :
    (c : RestoreCall) → Except Fault c.Result × Site
  | .getRestore => (.ok s.restore, s)
  | .claimRestoreOperation =>
    let c := NexaPos.Backups.claimRestoreOperation s
    (.ok (c.1, c.2.restore), c.2)
  | .restartFailedRestoreBeforeMutation => restartFailedRestore s
  | .transitionRestore target code => NexaPos.Backups.transitionRestore s target code
  | .markRetryExhausted => (.ok (), NexaPos.Backups.markRetryExhausted s)
  | .getSafetyBackup safety => (.ok s.safeties[safety]?, s)
  | .setRestoreSafetyBackup safety => NexaPos.Backups.setRestoreSafetyBackup s safety
  | .createSafetyRequest => (.ok s.safeties.length, { s with safeties := s.safeties ++ [{}] })
  | .takeSafetySnapshot safety => NexaPos.Backups.takeSafetySnapshot s safety
  | .finishSafetyBackup safety => NexaPos.Backups.finishSafetyBackup s safety
  | .readClock => (.ok s.now, s)
  | .acquireLock read =>
    match acquireTenantOperationLock s.locks setup.dir.business .restore setup.operation
      setup.leaseSeconds (min read s.now) with
    | .ok (lock, locks) => (.ok lock, { s with locks := locks })
    | .error .locked => (.error .lockUnavailable, s)
    | .error .invalid => (.error .error, s)
  | .heartbeatLock lock read =>
    match heartbeatTenantOperationLock s.locks lock lock setup.leaseSeconds
      (min read s.now) with
    | .ok (renewed, locks) => (.ok renewed, { s with locks := locks })
    | .error _ => (.error .error, s)
  | .releaseLock lock read =>
    let r := releaseTenantOperationLock s.locks lock lock (min read s.now)
    (.ok r.1, { s with locks := r.2 })
  | .attempt _ => (.ok (), s)
  | .prepare => (.ok setup.source, s)
  | .validateDependencies =>
    match validateNonMutatingDependencies s.rows setup.source with
    | .ok _ => (.ok (), s)
    | .error _ => (.error .engine, s)
  | .stageMedia => (NexaPos.Backups.stageMedia setup s, s)
  | .mutate =>
    match mutated setup s.rows with
    | .ok rows => (.ok rows, s)
    | .error _ => (.error .engine, s)
  | .publishOne item => NexaPos.Backups.publishOne s item
  | .enterVerifying =>
    if s.restore.status = .restoring then (.ok (), s) else (.error .error, s)
  | .verifyRestored rows =>
    match NexaPos.Backups.verifyRestored rows setup.source with
    | .ok _ => (.ok (), s)
    | .error _ => (.error .engine, s)
  | .verifyMedia items => (NexaPos.Backups.verifyMedia s items, s)
  | .commitMutation lock => NexaPos.Backups.commitMutation setup s lock
  | .unlinkCreated target identity => NexaPos.Backups.unlinkCreated s target identity

/-- A call to the file system can raise after it has taken effect; a transaction cannot. -/
def RestoreCall.torn : RestoreCall → Bool
  | .publishOne _ => true
  | .unlinkCreated _ _ => true
  | _ => false

/-- The calls with their meaning; they do not depend on who makes them. -/
def restoreMachine (setup : RestoreSetup) :
    Machine ℕ Site RestoreCall RestoreCall.Result Fault where
  exec _ c s := c.exec setup s
  torn := RestoreCall.torn

/-! ## What a call does to the site -/

/-- What a call can do to the site. -/
inductive SiteMove (setup : RestoreSetup) (s : Site) (c : RestoreCall) : Site → Prop
  | unchanged : SiteMove setup s c s
  | moved (target : RestoreStatus) (code : FailureCode) (hc : c = .transitionRestore target code)
      (hmem : target ∈ restoreTransitions s.restore.status)
      (hsafe : s.restore.status = .safetyBackup → target = .validating → s.safety.isSome = true) :
      SiteMove setup s c { s with restore := s.restore.moved target code }
  | authorized (hs : s.restore.status = .queued ∨ s.restore.retryable = true) :
      SiteMove setup s c { s with restore := s.restore.authorized }
  | exhausted (hs : s.restore.status = .failed) :
      SiteMove setup s c
        { s with restore := { s.restore with failureCode := .preMutationRetryExhausted } }
  | recorded (safety : ℕ) (b : SafetyBackup) (hb : s.safeties[safety]? = some b)
      (hverified : b.isProtected = true ∧ b.status = .succeeded ∧ b.integrityStatus = .verified) :
      SiteMove setup s c { s with restore := { s.restore with safetyBackup := some safety } }
  | requested : SiteMove setup s c { s with safeties := s.safeties ++ [{}] }
  | taken (safety : ℕ) (b : SafetyBackup) (keys : List ComponentKey)
      (hb : s.safeties[safety]? = some b) (hstatus : b.status = .queued) :
      SiteMove setup s c { s with safeties := s.safeties.set safety (b.taken s keys) }
  | finished (safety : ℕ) (b : SafetyBackup) (hb : s.safeties[safety]? = some b)
      (hstatus : b.status = .snapshotting) :
      SiteMove setup s c { s with safeties := s.safeties.set safety b.finished }
  | leased (locks : Locks) (h : LeaseMove (min c.read s.now) s.locks c.token c.renewal locks) :
      SiteMove setup s c { s with locks := locks }
  | published (item : StagedObject) (hc : c = .publishOne item)
      (hfree : s.media item.target = none) :
      SiteMove setup s c
        { s with
          media := Function.update s.media item.target (some ⟨s.nextFile, item.sha256⟩)
          nextFile := s.nextFile + 1 }
  | unlinked (target : String) (f : MediaFile) (hf : s.media target = some f)
      (hc : c = .unlinkCreated target f.identity) :
      SiteMove setup s c { s with media := Function.update s.media target none }
  | committed (lock : ℕ) (rows : Rows) (hc : c = .commitMutation lock)
      (hstatus : s.restore.status = .restoring) (hm : mutated setup s.rows = .ok rows) :
      SiteMove setup s c (s.committed setup lock rows)

lemma siteMove_exec (setup : RestoreSetup) (s : Site) (c : RestoreCall) :
    SiteMove setup s c (c.exec setup s).2 := by
  cases c
  case claimRestoreOperation =>
    rcases claimRestoreOperation_cases s with ⟨-, h⟩ | ⟨hs, h⟩
    · simp only [RestoreCall.exec, h]
      exact .unchanged
    · simp only [RestoreCall.exec, h]
      exact .authorized hs
  case restartFailedRestoreBeforeMutation =>
    rcases restartFailedRestore_cases s with h | ⟨hs, h⟩
    · simp only [RestoreCall.exec, h]
      exact .unchanged
    · simp only [RestoreCall.exec, h]
      exact .authorized (.inr hs)
  case transitionRestore target code =>
    rcases transitionRestore_cases s target code with h | ⟨hmem, hsafe, h⟩
    · simp only [RestoreCall.exec, h]
      exact .unchanged
    · simp only [RestoreCall.exec, h]
      exact .moved target code rfl hmem hsafe
  case markRetryExhausted =>
    simp only [RestoreCall.exec, markRetryExhausted]
    split
    case isTrue hs => exact .exhausted hs.1
    case isFalse => exact .unchanged
  case setRestoreSafetyBackup safety =>
    simp only [RestoreCall.exec, setRestoreSafetyBackup]
    split
    case h_1 b hb =>
      split
      case isTrue hv =>
        simp only [Bool.and_eq_true, beq_iff_eq] at hv
        exact .recorded safety b hb ⟨hv.1.1, hv.1.2, hv.2⟩
      case isFalse => exact .unchanged
    case h_2 => exact .unchanged
  case createSafetyRequest => exact .requested
  case takeSafetySnapshot safety =>
    simp only [RestoreCall.exec, takeSafetySnapshot]
    split
    case h_1 b components hb _ =>
      split
      case isTrue hs => exact .taken safety b _ hb hs
      case isFalse => exact .unchanged
    case h_2 => exact .unchanged
  case finishSafetyBackup safety =>
    simp only [RestoreCall.exec, finishSafetyBackup]
    split
    case h_1 b hb =>
      split
      case isTrue hs => exact .finished safety b hb hs
      case isFalse => exact .unchanged
    case h_2 => exact .unchanged
  case acquireLock read =>
    simp only [RestoreCall.exec]
    split
    case h_1 lock locks h => exact .leased locks (leaseMove_acquire h).1
    all_goals exact .unchanged
  case heartbeatLock lock read =>
    simp only [RestoreCall.exec]
    split
    case h_1 renewed locks h => exact .leased locks (leaseMove_heartbeat h)
    case h_2 => exact .unchanged
  case releaseLock lock read =>
    exact .leased _ (leaseMove_release s.locks lock lock (min read s.now))
  case publishOne item =>
    simp only [RestoreCall.exec, publishOne]
    split
    · split <;> exact .unchanged
    case h_2 hfree =>
      split
      · exact .unchanged
      · exact .published item rfl hfree
  case unlinkCreated target identity =>
    simp only [RestoreCall.exec, unlinkCreated]
    split
    case h_1 f hf =>
      split
      case isTrue hid => exact .unlinked target f hf (by rw [hid])
      case isFalse => exact .unchanged
    case h_2 => exact .unchanged
  case commitMutation lock =>
    rcases commitMutation_cases setup s lock with ⟨e, h⟩ | ⟨rows, hs, hm, h⟩
    · simp only [RestoreCall.exec, h]
      exact .unchanged
    · simp only [RestoreCall.exec, h]
      exact .committed lock rows rfl hs hm
  all_goals
    simp only [RestoreCall.exec]
    repeat' split
    all_goals exact .unchanged

/-- However a call is answered, it does to the site what it can do. -/
lemma siteMove_answer (setup : RestoreSetup) (s : Site) (who : ℕ) (c : RestoreCall)
    (a : Answer Fault) : SiteMove setup s c ((restoreMachine setup).answer who c s a).2 :=
  Machine.answer_related (R := fun s t => SiteMove setup s c t) (fun _ => .unchanged)
    (siteMove_exec setup s c) a

end NexaPos.Backups
