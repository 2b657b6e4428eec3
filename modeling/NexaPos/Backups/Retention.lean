import NexaPos.Lib.Process
import Mathlib.Data.List.Sort

/-!
# Retention of daily full backups

The retention engine plans which backups may go and executes a plan against a later list of
candidates.  It keeps its plans, their progress and their results between the calls.  What a
storage provider may answer is its contract: a check succeeds only for an object that is there,
a deletion touches no other object, and every call may fail, a deletion also after its effect.
-/

namespace NexaPos.Backups.Retention

/-! ## Candidates -/

/-- `BackupRetentionClass`. -/
inductive BackupRetentionClass
  | dailyFull
  | manual
  | weekly
  | monthly
  | pinned
  deriving DecidableEq, Repr

/-- `BackupExecutionContext`: the identities the engine compares. -/
structure BackupExecutionContext where
  backupPublicId : ℕ
  businessPublicId : ℕ
  workspaceReference : ℕ
  operationCorrelationId : ℕ
  deriving DecidableEq, Repr

/-- `StoredBackupObjectResult`. -/
structure StoredBackupObjectResult where
  reference : ℕ
  byteCount : ℕ
  sha256 : String
  backupPublicId : ℕ
  tenantPublicId : ℕ
  storedAt : ℤ
  /-- `durability_state is STORED`. -/
  isStored : Bool
  /-- `verification_state is STORED_AND_VERIFIED`. -/
  isVerified : Bool
  encryptedStagingCleanupIncomplete : Bool
  deriving DecidableEq, Repr

/-- `RetentionCandidate`. -/
structure RetentionCandidate where
  context : BackupExecutionContext
  storedObject : StoredBackupObjectResult
  retentionClass : BackupRetentionClass
  packageVerified : Bool
  encryptedArtifactValid : Bool
  durableVerified : Bool
  failed : Bool
  incomplete : Bool
  cleanupIncomplete : Bool
  corrupted : Bool
  deleting : Bool
  deleted : Bool
  pinned : Bool
  isProtected : Bool
  activeOperation : Bool
  deriving DecidableEq, Repr

namespace RetentionCandidate

variable (c : RetentionCandidate)

def backupId : ℕ := c.context.backupPublicId

def reference : ℕ := c.storedObject.reference

end RetentionCandidate

/-- `RetentionSkipReason`. -/
inductive RetentionSkipReason
  | nonDailyClass
  | protectedBackup
  | failed
  | incomplete
  | cleanupIncomplete
  | corruptedOrUnverified
  | deleting
  | deleted
  | activeOperation
  deriving DecidableEq, Repr

/-- The exceptions of the engine, and those of a provider. -/
inductive RetentionFault
  | planError
  | eligibilityError
  | coordinationError
  | concurrencyError
  | deleteValidationError
  | deleteError
  | durableObjectValidationError
  | durableObjectCleanupError
  | other
  deriving DecidableEq, Repr

/-! ## The storage provider -/

/-- A call of `delete_stored_object`: the candidate it was made for, whether its object was there,
and whether the call removed it. -/
structure Deletion where
  candidate : RetentionCandidate
  wasPresent : Bool
  removed : Bool
  deriving DecidableEq, Repr

/-- The references of the objects that are there; the deletions asked for so far; and the
references of the objects that a check has refused. -/
structure Store where
  present : List ℕ
  deletions : List Deletion
  refusals : List ℕ
  deriving DecidableEq, Repr

/-- The references of the objects that deletions have removed. -/
def Store.removed (g : Store) : List ℕ :=
  (g.deletions.filter Deletion.removed).map fun d => d.candidate.reference

/-- The calls of the engine. -/
inductive ProviderCall
  /-- `owns_stored_object_result`. -/
  | owns (c : RetentionCandidate)
  /-- `validate_stored_object`. -/
  | validate (c : RetentionCandidate)
  /-- `delete_stored_object`. -/
  | delete (c : RetentionCandidate)
  /-- `confirm_stored_object_absent`. -/
  | confirmAbsent (c : RetentionCandidate)
  /-- A look at the clock for a deadline; it fails when the deadline has passed. -/
  | deadline

/-- What a call answers with. -/
@[reducible] def ProviderCall.Result : ProviderCall → Type
  | owns _ | confirmAbsent _ => Bool
  | validate _ | delete _ | deadline => Unit

/-- The store after a deletion was asked for. -/
def Store.delete (g : Store) (c : RetentionCandidate) (removed : Bool) : Store :=
  { g with
    present := if removed then g.present.filter (· ≠ c.reference) else g.present
    deletions := g.deletions ++ [⟨c, decide (c.reference ∈ g.present), removed⟩] }

/-- The store after a check of an object, which notes that the object was refused. -/
def Store.check (g : Store) (c : RetentionCandidate) (r : Except RetentionFault Unit) : Store :=
  match r with
  | .error .durableObjectValidationError => { g with refusals := g.refusals ++ [c.reference] }
  | _ => g

/-- The contract of a provider. -/
def provider : Protocol Store ProviderCall ProviderCall.Result RetentionFault where
  may _ _ := True
  next g call r g' :=
    match call with
    | .validate c => g' = g.check c r ∧ (r = .ok () → c.reference ∈ g.present)
    | .delete c => ∃ removed : Bool, (removed = true → c.reference ∈ g.present) ∧
        g' = g.delete c removed
    | .owns _ | .confirmAbsent _ | .deadline => g' = g

/-! ## Plans and their progress -/

/-- `RetentionPolicy`, validated. -/
structure RetentionPolicy where
  dailyFullKeepCount : ℕ
  maximumDeleteBatch : ℕ
  keep_range : 1 ≤ dailyFullKeepCount ∧ dailyFullKeepCount ≤ 3650
  batch_range : 1 ≤ maximumDeleteBatch ∧ maximumDeleteBatch ≤ 1000

/-- `RetentionAuditEventType`. -/
inductive RetentionAuditEventType
  | planCreated
  | deleteStarted
  | objectDeleted
  | deleteFailed
  | completed
  | partiallyCompleted
  deriving DecidableEq, Repr

/-- `RetentionAuditEvent`, without its time. -/
structure RetentionAuditEvent where
  eventType : RetentionAuditEventType
  backupPublicId : Option ℕ
  outcomeCode : String
  deriving DecidableEq, Repr

/-- `RetentionPlan`, without its time. -/
structure RetentionPlan where
  reference : ℕ
  tenantPublicId : ℕ
  keepCount : ℕ
  successfulEligibleCount : ℕ
  retainedBackupPublicIds : List ℕ
  deleteCandidateBackupPublicIds : List ℕ
  protectedBackupPublicIds : List ℕ
  skippedBackupPublicIds : List ℕ
  evidenceSha256 : ℕ
  auditEvents : List RetentionAuditEvent
  deriving DecidableEq, Repr

/-- `_PlanEvidence`. -/
structure PlanEvidence where
  plan : RetentionPlan
  candidates : List RetentionCandidate
  deriving DecidableEq, Repr

/-- `_ExecutionProgress`. -/
structure ExecutionProgress where
  deleted : List ℕ
  pendingDeletions : List ℕ
  runtimeSkipped : List ℕ
  failedDeletionCount : ℕ
  auditEvents : List RetentionAuditEvent
  deriving DecidableEq, Repr

/-- `RetentionExecutionState`. -/
inductive RetentionExecutionState
  | noActionRequired
  | completed
  | partiallyCompleted
  | failedSafe
  deriving DecidableEq, Repr

/-- `RetentionExecutionResult`, without its time. -/
structure RetentionExecutionResult where
  tenantPublicId : ℕ
  keepCount : ℕ
  eligibleSuccessfulCount : ℕ
  retainedBackupPublicIds : List ℕ
  deletedBackupPublicIds : List ℕ
  skippedBackupPublicIds : List ℕ
  failedDeletionCount : ℕ
  executionState : RetentionExecutionState
  auditEvents : List RetentionAuditEvent
  deriving DecidableEq, Repr

/-- The dictionaries of `RetentionEngine`. -/
structure RetentionEngine where
  plans : ℕ → Option PlanEvidence
  plansByFingerprint : ℕ → Option ℕ
  completedExecutions : ℕ → Option RetentionExecutionResult
  progress : ℕ → Option ExecutionProgress
  activeTenants : ℕ → Bool

/-- A new engine. -/
def RetentionEngine.new : RetentionEngine where
  plans _ := none
  plansByFingerprint _ := none
  completedExecutions _ := none
  progress _ := none
  activeTenants _ := false

/-- A policy, and the names of plans: the fingerprint of the candidates of a tenant
(`_fingerprint`), and the identifier that is derived from it. -/
structure RetentionSetup where
  policy : RetentionPolicy
  fingerprint : ℕ → List RetentionCandidate → ℕ
  planIdentifier : ℕ → ℕ

/-- Code of the engine. -/
abbrev EngineCode (α : Type) :=
  Routine RetentionEngine ProviderCall ProviderCall.Result RetentionFault α

def ownsStoredObjectResult (c : RetentionCandidate) : EngineCode Bool :=
  Routine.perform (ProviderCall.owns c)

def validateStoredObject (c : RetentionCandidate) : EngineCode Unit :=
  Routine.perform (ProviderCall.validate c)

def deleteStoredObject (c : RetentionCandidate) : EngineCode Unit :=
  Routine.perform (ProviderCall.delete c)

def confirmStoredObjectAbsent (c : RetentionCandidate) : EngineCode Bool :=
  Routine.perform (ProviderCall.confirmAbsent c)

/-- `_check_deadline`. -/
def checkDeadline (error : RetentionFault) : EngineCode Unit :=
  tryCatch (Routine.perform ProviderCall.deadline) fun _ => throw error

/-! ## Assessing candidates -/

/-- `_validate_candidate_binding`, as far as it is not about types. -/
def RetentionCandidate.bound (tenant : ℕ) (c : RetentionCandidate) : Bool :=
  c.context.businessPublicId = tenant ∧ c.storedObject.tenantPublicId = tenant ∧
    c.storedObject.backupPublicId = c.context.backupPublicId

/-- What the flags of a candidate alone decide. -/
inductive Verdict
  | skip (reason : RetentionSkipReason)
  | keep (reason : RetentionSkipReason)
  | check
  deriving DecidableEq, Repr

/-- The branches of `_assess_candidates` before the provider is asked. -/
def RetentionCandidate.verdict (alreadyDeleted : List ℕ) (c : RetentionCandidate) : Verdict :=
  if c.backupId ∈ alreadyDeleted ∨ c.deleted then .skip .deleted
  else if c.retentionClass ≠ .dailyFull then .keep .nonDailyClass
  else if c.pinned ∨ c.isProtected then .keep .protectedBackup
  else if c.activeOperation then .keep .activeOperation
  else if c.failed then .skip .failed
  else if c.incomplete then .skip .incomplete
  else if c.cleanupIncomplete ∨ c.storedObject.encryptedStagingCleanupIncomplete then
    .skip .cleanupIncomplete
  else if c.deleting then .skip .deleting
  else if c.corrupted ∨ ¬ c.packageVerified ∨ ¬ c.encryptedArtifactValid ∨ ¬ c.durableVerified ∨
      ¬ c.storedObject.isStored ∨ ¬ c.storedObject.isVerified then
    .skip .corruptedOrUnverified
  else .check

/-- What `_assess_candidates` has found so far. -/
structure Assessment where
  eligible : List RetentionCandidate
  kept : List RetentionCandidate
  skipped : List RetentionCandidate
  reasons : List (ℕ × RetentionSkipReason)
  deriving DecidableEq, Repr

namespace Assessment

def skip (a : Assessment) (c : RetentionCandidate) (reason : RetentionSkipReason) : Assessment :=
  { a with skipped := a.skipped ++ [c], reasons := a.reasons ++ [(c.backupId, reason)] }

def keep (a : Assessment) (c : RetentionCandidate) (reason : RetentionSkipReason) : Assessment :=
  { a with kept := a.kept ++ [c], reasons := a.reasons ++ [(c.backupId, reason)] }

def accept (a : Assessment) (c : RetentionCandidate) : Assessment :=
  { a with eligible := a.eligible ++ [c] }

end Assessment

/-- The provider is asked about a candidate that may be eligible. -/
def checkCandidate (c : RetentionCandidate) (a : Assessment) : EngineCode Assessment := do
  let owned ← tryCatch (ownsStoredObjectResult c) fun _ => throw .eligibilityError
  if owned then
    tryCatch (do
      validateStoredObject c
      pure (a.accept c))
      fun e => if e = .durableObjectValidationError then pure (a.skip c .corruptedOrUnverified)
        else throw .eligibilityError
  else throw .eligibilityError

/-- One round of the loop of `_assess_candidates`. -/
def assessCandidate (alreadyDeleted : List ℕ) (c : RetentionCandidate) (a : Assessment) :
    EngineCode Assessment :=
  match c.verdict alreadyDeleted with
  | .skip reason => pure (a.skip c reason)
  | .keep reason => pure (a.keep c reason)
  | .check => checkCandidate c a

/-- The loop of `_assess_candidates`; `seen` holds the candidates before. -/
def assessEach (tenant : ℕ) (alreadyDeleted : List ℕ) (seen : List RetentionCandidate) :
    List RetentionCandidate → Assessment → EngineCode Assessment
  | [], a => pure a
  | c :: candidates, a => do
    if ¬ c.bound tenant ∨ c.backupId ∈ seen.map RetentionCandidate.backupId ∨
        c.reference ∈ seen.map RetentionCandidate.reference then
      throw .eligibilityError
    else do
      let a ← assessCandidate alreadyDeleted c a
      assessEach tenant alreadyDeleted (seen ++ [c]) candidates a

/-- The order of the eligible candidates: by time and identifier, the newest first. -/
def RetentionCandidate.notOlder (c d : RetentionCandidate) : Prop :=
  d.storedObject.storedAt < c.storedObject.storedAt ∨
    d.storedObject.storedAt = c.storedObject.storedAt ∧ d.backupId ≤ c.backupId

instance decidableNotOlder (c d : RetentionCandidate) : Decidable (c.notOlder d) :=
  inferInstanceAs (Decidable (_ ∨ _))

/-- The order of the other candidates, by identifier. -/
def RetentionCandidate.notBelow (c d : RetentionCandidate) : Prop := d.backupId ≤ c.backupId

instance decidableNotBelow (c d : RetentionCandidate) : Decidable (c.notBelow d) :=
  inferInstanceAs (Decidable (_ ≤ _))

/-- `_assess_candidates`. -/
def assessCandidates (tenant : ℕ) (candidates : List RetentionCandidate)
    (alreadyDeleted : List ℕ) : EngineCode Assessment := do
  if 100000 < candidates.length then throw .planError
  else do
    let a ← assessEach tenant alreadyDeleted [] candidates ⟨[], [], [], []⟩
    pure { a with
      eligible := a.eligible.insertionSort RetentionCandidate.notOlder
      kept := a.kept.insertionSort RetentionCandidate.notBelow
      skipped := a.skipped.insertionSort RetentionCandidate.notBelow }

/-! ## Planning -/

/-- The identifiers of candidates. -/
def ids (candidates : List RetentionCandidate) : List ℕ :=
  candidates.map RetentionCandidate.backupId

/-- The plan of an assessment: the oldest of those outside the kept ones, up to a batch. -/
def RetentionSetup.planOf (setup : RetentionSetup) (tenant fingerprint : ℕ) (a : Assessment) :
    RetentionPlan :=
  let keepCount := setup.policy.dailyFullKeepCount
  let outsideKeep := a.eligible.drop keepCount
  let deleteCandidates :=
    if setup.policy.maximumDeleteBatch < outsideKeep.length then
      outsideKeep.drop (outsideKeep.length - setup.policy.maximumDeleteBatch)
    else outsideKeep
  { reference := setup.planIdentifier fingerprint
    tenantPublicId := tenant
    keepCount := keepCount
    successfulEligibleCount := a.eligible.length
    retainedBackupPublicIds := ids (a.eligible.take keepCount)
    deleteCandidateBackupPublicIds := ids deleteCandidates
    protectedBackupPublicIds := ids a.kept
    skippedBackupPublicIds := ids a.skipped
    evidenceSha256 := fingerprint
    auditEvents := [⟨.planCreated, none, "plan_created"⟩] }

/-- The plan that is known under a fingerprint. -/
def RetentionEngine.planOfFingerprint (l : RetentionEngine) (fingerprint : ℕ) :
    Option PlanEvidence :=
  (l.plansByFingerprint fingerprint).bind l.plans

/-- A plan is entered into the dictionaries. -/
def RetentionEngine.enter (l : RetentionEngine) (fingerprint : ℕ) (evidence : PlanEvidence) :
    RetentionEngine :=
  { l with
    plans := Function.update l.plans evidence.plan.reference (some evidence)
    plansByFingerprint :=
      Function.update l.plansByFingerprint fingerprint (some evidence.plan.reference) }

/-- The plan is kept, unless another one has its identifier. -/
def keepPlan (fingerprint : ℕ) (evidence : PlanEvidence) : EngineCode RetentionPlan := do
  let l ← get
  match l.plans evidence.plan.reference with
  | some current =>
    if current ≠ evidence then throw .planError
    else do
      modify fun l => l.enter fingerprint evidence
      pure evidence.plan
  | none => do
    modify fun l => l.enter fingerprint evidence
    pure evidence.plan

/-- `build_retention_plan`. -/
def buildRetentionPlan (setup : RetentionSetup) (tenant : ℕ)
    (candidates : List RetentionCandidate) : EngineCode RetentionPlan := do
  checkDeadline .planError
  let fingerprint := setup.fingerprint tenant candidates
  let l ← get
  match l.planOfFingerprint fingerprint with
  | some existing => pure existing.plan
  | none => do
    let a ← assessCandidates tenant candidates []
    checkDeadline .planError
    keepPlan fingerprint ⟨setup.planOf tenant fingerprint a, candidates⟩

/-! ## Executing a plan -/

/-- The progress of a plan. -/
def RetentionEngine.progressOf (l : RetentionEngine) (reference : ℕ) : ExecutionProgress :=
  (l.progress reference).getD ⟨[], [], [], 0, []⟩

/-- The progress of a plan is changed. -/
def RetentionEngine.modifyProgress (l : RetentionEngine) (reference : ℕ)
    (f : ExecutionProgress → ExecutionProgress) : RetentionEngine :=
  { l with progress := Function.update l.progress reference (some (f (l.progressOf reference))) }

def modifyProgress (reference : ℕ) (f : ExecutionProgress → ExecutionProgress) :
    EngineCode Unit :=
  modify fun l => l.modifyProgress reference f

namespace ExecutionProgress

def note (p : ExecutionProgress) (eventType : RetentionAuditEventType) (backup : Option ℕ)
    (outcome : String) : ExecutionProgress :=
  { p with auditEvents := p.auditEvents ++ [⟨eventType, backup, outcome⟩] }

/-- A deletion failed. -/
def fail (p : ExecutionProgress) (backup : ℕ) (outcome : String) : ExecutionProgress :=
  { p with failedDeletionCount := p.failedDeletionCount + 1 }.note .deleteFailed (some backup)
    outcome

/-- The backup is no longer pending. -/
def settle (p : ExecutionProgress) (backup : ℕ) : ExecutionProgress :=
  { p with pendingDeletions := p.pendingDeletions.filter (· ≠ backup) }

/-- The backup was deleted. -/
def delete (p : ExecutionProgress) (backup : ℕ) (outcome : String) : ExecutionProgress :=
  { p.settle backup with deleted := p.deleted.insert backup }.note .objectDeleted (some backup)
    outcome

end ExecutionProgress

/-- The candidate of a backup. -/
def find (candidates : List RetentionCandidate) (backup : ℕ) : Option RetentionCandidate :=
  candidates.find? fun c => c.backupId = backup

/-- The candidate is still the one the plan was made for. -/
def RetentionCandidate.sameAs (c original : RetentionCandidate) : Prop :=
  c.context = original.context ∧ c.storedObject = original.storedObject ∧
    c.retentionClass = original.retentionClass

instance decidableSameAs (c d : RetentionCandidate) : Decidable (c.sameAs d) :=
  inferInstanceAs (Decidable (_ ∧ _))

/-- The current candidates are bound to the tenant, with no backup or reference twice. -/
def checkCurrent (tenant : ℕ) (seen : List RetentionCandidate) :
    List RetentionCandidate → EngineCode Unit
  | [] => pure ()
  | c :: candidates =>
    if ¬ c.bound tenant ∨ c.backupId ∈ seen.map RetentionCandidate.backupId ∨
        c.reference ∈ seen.map RetentionCandidate.reference then
      throw .eligibilityError
    else checkCurrent tenant (seen ++ [c]) candidates

/-- The failed step is noted, and the loop ends. -/
def failStep (reference backup : ℕ) (outcome : String) : EngineCode Bool := do
  modifyProgress reference fun p => p.fail backup outcome
  pure true

/-- What is executed: a plan, the candidates it was made from, and the current ones. -/
structure Execution where
  plan : RetentionPlan
  original : List RetentionCandidate
  current : List RetentionCandidate

/-- The loop over the pending deletions; it returns whether a step failed. -/
def confirmPending (x : Execution) : List ℕ → EngineCode Bool
  | [] => pure false
  | backup :: pending =>
    match find x.current backup, find x.original backup with
    | some candidate, some original =>
      if ¬ candidate.sameAs original then
        failStep x.plan.reference backup "pending_deletion_evidence_changed"
      else do
        let (confirmedAbsent, owned) ← tryCatch (do
            let confirmedAbsent ← confirmStoredObjectAbsent candidate
            let owned ← ownsStoredObjectResult candidate
            pure (confirmedAbsent, owned))
          fun _ => pure (false, false)
        if confirmedAbsent then do
          modifyProgress x.plan.reference fun p => p.delete backup "deleted_and_absent_on_retry"
          confirmPending x pending
        else if ¬ owned then
          failStep x.plan.reference backup "pending_deletion_state_ambiguous"
        else confirmPending x pending
    | _, _ => failStep x.plan.reference backup "pending_deletion_evidence_changed"

/-- One deletion, with the checks of the provider around it. -/
def deleteCandidate (reference : ℕ) (candidate : RetentionCandidate) : EngineCode Unit := do
  let owned ← ownsStoredObjectResult candidate
  if ¬ owned then throw .deleteValidationError
  else do
    validateStoredObject candidate
    modifyProgress reference fun p =>
      { p.note .deleteStarted (some candidate.backupId) "delete_started" with
        pendingDeletions := p.pendingDeletions.insert candidate.backupId }
    deleteStoredObject candidate
    let absent ← confirmStoredObjectAbsent candidate
    if ¬ absent then throw .deleteError
    else modifyProgress reference fun p => p.delete candidate.backupId "deleted_and_absent"

/-- A backup of the plan that is not in the current set is skipped, unless a deletion of it may
have taken effect. -/
def skipBackup (x : Execution) (a : Assessment) (backup : ℕ) : EngineCode Bool := do
  let l ← get
  if backup ∈ (l.progressOf x.plan.reference).pendingDeletions ∧
      ((backup, .corruptedOrUnverified) ∈ a.reasons ∨ (backup, .deleted) ∈ a.reasons) then
    failStep x.plan.reference backup "pending_deletion_state_ambiguous"
  else do
    modifyProgress x.plan.reference fun p =>
      { p.settle backup with runtimeSkipped := p.runtimeSkipped.insert backup }
    pure false

/-- One round of the loop over the backups of the plan; it returns whether it failed. -/
def deleteBackup (setup : RetentionSetup) (x : Execution) (a : Assessment) (backup : ℕ) :
    EngineCode Bool := do
  checkDeadline .deleteValidationError
  match find x.current backup, find x.original backup with
  | some candidate, some original =>
    if backup ∉ ids (a.eligible.drop setup.policy.dailyFullKeepCount) then skipBackup x a backup
    else if ¬ candidate.sameAs original then
      failStep x.plan.reference backup "candidate_changed"
    else
      tryCatch (do
        deleteCandidate x.plan.reference candidate
        pure false)
        fun _ => failStep x.plan.reference backup "delete_failed_safe"
  | _, _ => failStep x.plan.reference backup "candidate_missing"

/-- The loop over the backups of the plan. -/
def deleteBackups (setup : RetentionSetup) (x : Execution) (a : Assessment) :
    List ℕ → EngineCode Bool
  | [] => pure false
  | backup :: backups => do
    let l ← get
    let progress := l.progressOf x.plan.reference
    if backup ∈ progress.deleted ∨ backup ∈ progress.runtimeSkipped then
      deleteBackups setup x a backups
    else do
      let failure ← deleteBackup setup x a backup
      if failure then pure true else deleteBackups setup x a backups

/-- `_execution_result`. -/
def executionResult (plan : RetentionPlan) (progress : ExecutionProgress)
    (state : RetentionExecutionState) (currentKeep : List ℕ) : RetentionExecutionResult where
  tenantPublicId := plan.tenantPublicId
  keepCount := plan.keepCount
  eligibleSuccessfulCount := plan.successfulEligibleCount
  retainedBackupPublicIds := (currentKeep ++ plan.retainedBackupPublicIds).eraseDups
  deletedBackupPublicIds :=
    plan.deleteCandidateBackupPublicIds.filter (· ∈ progress.deleted)
  skippedBackupPublicIds :=
    (plan.protectedBackupPublicIds ++ plan.skippedBackupPublicIds ++
      plan.deleteCandidateBackupPublicIds.filter (· ∈ progress.runtimeSkipped)).eraseDups
  failedDeletionCount := progress.failedDeletionCount
  executionState := state
  auditEvents := plan.auditEvents ++ progress.auditEvents

/-- The state of an execution, and the event that closes it. -/
def finalState (plan : RetentionPlan) (progress : ExecutionProgress) (failure : Bool) :
    RetentionExecutionState × RetentionAuditEventType × String :=
  if failure then
    if progress.deleted.isEmpty then (.failedSafe, .partiallyCompleted, "failed_safe")
    else (.partiallyCompleted, .partiallyCompleted, "partially_completed")
  else if plan.deleteCandidateBackupPublicIds.isEmpty then
    (.noActionRequired, .completed, "no_action_required")
  else (.completed, .completed, "completed")

/-- The result is made, and kept when nothing failed. -/
def conclude (plan : RetentionPlan) (currentKeep : List ℕ) (failure : Bool) :
    EngineCode RetentionExecutionResult := do
  let l ← get
  let (state, event, outcome) := finalState plan (l.progressOf plan.reference) failure
  modifyProgress plan.reference fun p => p.note event none outcome
  let l ← get
  let result := executionResult plan (l.progressOf plan.reference) state currentKeep
  if failure then pure result
  else do
    modify fun l => { l with
      completedExecutions := Function.update l.completedExecutions plan.reference (some result) }
    pure result

/-- The part of `execute_retention_plan` under the `try`. -/
def executeLocked (setup : RetentionSetup) (x : Execution) :
    EngineCode RetentionExecutionResult := do
  checkCurrent x.plan.tenantPublicId [] x.current
  let l ← get
  let failure ← confirmPending x (l.progressOf x.plan.reference).pendingDeletions
  if failure then conclude x.plan [] true
  else do
    let l ← get
    let a ← assessCandidates x.plan.tenantPublicId x.current
      (l.progressOf x.plan.reference).deleted
    let failure ← deleteBackups setup x a x.plan.deleteCandidateBackupPublicIds
    conclude x.plan (ids (a.eligible.take setup.policy.dailyFullKeepCount)) failure

/-- The tenant is locked for an execution, and the progress of the plan is set up. -/
def RetentionEngine.lock (l : RetentionEngine) (plan : RetentionPlan) : RetentionEngine :=
  { l.modifyProgress plan.reference id with
    activeTenants := Function.update l.activeTenants plan.tenantPublicId true }

/-- `execute_retention_plan`. -/
def executeRetentionPlan (setup : RetentionSetup) (plan : RetentionPlan)
    (currentCandidates : List RetentionCandidate) : EngineCode RetentionExecutionResult := do
  let l ← get
  match l.plans plan.reference with
  | none => throw .coordinationError
  | some evidence =>
    if evidence.plan ≠ plan then throw .coordinationError
    else
      match l.completedExecutions plan.reference with
      | some completed => pure completed
      | none =>
        if l.activeTenants plan.tenantPublicId then throw .concurrencyError
        else do
          modify fun l => l.lock plan
          (executeLocked setup ⟨plan, evidence.candidates, currentCandidates⟩).ensure
            (modify fun l => { l with
              activeTenants := Function.update l.activeTenants plan.tenantPublicId false })

end NexaPos.Backups.Retention
