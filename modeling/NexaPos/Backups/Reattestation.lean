import NexaPos.Backups.DurableStorage

/-!
# Stored objects that are asked about again

The other operations of `LocalPrivateDurableStorageProvider`: validating and confirming, the retry
of the staging clean-up, and the re-attestation of an object from what the database kept of it,
which is how a provider of a later process comes to own the object.  `_reattested` is passed to the
operations that read it, and those that change it answer the new one.
-/

namespace NexaPos.Backups.DurableStorage

open FileTree Routine

/-! ## Data -/

/-- `PersistedStoredObjectDescriptor`. -/
structure PersistedStoredObjectDescriptor where
  reference : String
  byteCount : ℕ
  sha256 : String
  backupPublicId : String
  tenantPublicId : String
  /-- The types, the backend and the form of the digest. -/
  wellFormed : Bool := true
  deriving DecidableEq

/-- `ReattestedStoredObjectResult`. -/
structure ReattestedStoredObjectResult where
  reference : String
  byteCount : ℕ
  sha256 : String
  backupPublicId : String
  tenantPublicId : String
  attestedAt : ℕ
  deriving DecidableEq

/-- `_ReattestedEvidence`. -/
structure ReattestedEvidence where
  context : Context
  descriptor : PersistedStoredObjectDescriptor
  result : ReattestedStoredObjectResult
  rootIdentity : ℕ
  objectsIdentity : ℕ
  tenantIdentity : ℕ
  backupIdentity : ℕ
  directoryIdentity : ℕ
  fileIdentity : ℕ
  deriving DecidableEq

/-- `_reattested`. -/
abbrev Attested := ℕ × String → Option ReattestedEvidence

/-! ## Questions about a stored object -/

/-- `validate_stored_object`. -/
def validateStoredObject (setup : Setup) (c : Context) (result : StoredResult) : Code Unit := do
  let l ← get
  match l.registry.stored (stateKey c result.reference) with
  | none => fail .validation
  | some evidence => do
    refuseIf (evidence.context ≠ c ∨ evidence.result ≠ result) .validation
    validatePath setup evidence .validation

/-- `_object_paths`, with what `_contained` makes of any exception. -/
def containedPaths (setup : Setup) (c : Context) (reference : String) (e : StorageError) :
    Code Unit :=
  tryCatch (objectPaths setup c reference e) fun f => if f = .error then fail e else throw f

/-- `confirm_stored_object_absent`. -/
def confirmStoredObjectAbsent (setup : Setup) (c : Context) (reference : String) : Code Bool := do
  let l ← get
  match l.registry.deleted (stateKey c reference) with
  | none => pure false
  | some evidence =>
    if evidence.context ≠ c then
      pure false
    else
      tryCatch
        (do
          containedPaths setup c reference .validation
          let there ← lexists (setup.directory c reference)
          pure !there)
        fun f => if f = .engine .validation then pure false else throw f

/-- `retry_encrypted_staging_cleanup`. -/
def retryEncryptedStagingCleanup (setup : Setup) (r : Request) (result : StoredResult) :
    Code StoredResult := do
  refuseIf (result.encryptedStagingCleanupIncomplete = false) .stagingCleanup
  let key := stateKey r.context result.reference
  let l ← get
  match l.registry.stored key with
  | none => fail .stagingCleanup
  | some evidence => do
    refuseIf (evidence.context ≠ r.context ∨ evidence.source ≠ r.encryptedArtifact ∨
      evidence.result ≠ result) .stagingCleanup
    validatePath setup evidence .stagingCleanup
    tryCatch (ask (.cleanupArtifact r.encryptedArtifact.reference)) fun f =>
      if f = .artifactCleanup then fail .stagingCleanup else throw f
    let l ← get
    refuseIf (l.registry.stored key ≠ some evidence) .stagingCleanup
    modify fun l =>
      { l with registry := { l.registry with
          stored := Function.update l.registry.stored key (some evidence.completed) } }
    pure evidence.completed.result

/-! ## Re-attestation -/

/-- `_assert_private_mode` of the directories above an object. -/
def assertDirectoryModes (setup : Setup) (c : Context) (reference : String) (e : StorageError) :
    Code Unit := onOs e (do
  ask (.assertMode setup.root)
  ask (.assertMode setup.objects)
  ask (.assertMode (setup.tenant c))
  ask (.assertMode (setup.backup c))
  ask (.assertMode (setup.directory c reference)))

/-- `_validate_reattested_path`. -/
def validateReattestedPath (setup : Setup) (evidence : ReattestedEvidence) (e : StorageError) :
    Code Unit := do
  let c := evidence.context
  let reference := evidence.result.reference
  let path := setup.final c reference
  containedPaths setup c reference e
  let rootState ← directoryState setup.root e
  let objectsState ← directoryState setup.objects e
  let tenantState ← directoryState (setup.tenant c) e
  let backupState ← directoryState (setup.backup c) e
  let objectState ← directoryState (setup.directory c reference) e
  refuseIf (rootState.identity ≠ evidence.rootIdentity ∨
    objectsState.identity ≠ evidence.objectsIdentity ∨
    tenantState.identity ≠ evidence.tenantIdentity ∨
    backupState.identity ≠ evidence.backupIdentity ∨
    objectState.identity ≠ evidence.directoryIdentity) e
  assertDirectoryModes setup c reference e
  let names ← onOs e (ask (.scandir (setup.directory c reference)))
  refuseIf (names.dedup ≠ [storedObjectFileName]) e
  let current ← regularFileState path e
  refuseIf (current.identity ≠ evidence.fileIdentity ∨
    current.size ≠ evidence.result.byteCount) e
  onOs e (ask (.assertMode path))
  let (byteCount, sha256) ← hashPath setup path evidence.fileIdentity e
  refuseIf (byteCount ≠ evidence.result.byteCount ∨ sha256 ≠ evidence.result.sha256) e

/-- The identities of the directories above an object. -/
structure Identities extends Hierarchy where
  directory : ℕ

/-- The states that `reattest_stored_object` reads. -/
def lookAtDirectories (setup : Setup) (c : Context) (reference : String) (e : StorageError) :
    Code Identities := do
  let root ← directoryState setup.root e
  let objects ← directoryState setup.objects e
  let tenant ← directoryState (setup.tenant c) e
  let backup ← directoryState (setup.backup c) e
  let directory ← directoryState (setup.directory c reference) e
  pure ⟨⟨root.identity, objects.identity, tenant.identity, backup.identity⟩, directory.identity⟩

/-- `result`. -/
def PersistedStoredObjectDescriptor.attest (descriptor : PersistedStoredObjectDescriptor)
    (c : Context) (attestedAt : ℕ) : ReattestedStoredObjectResult where
  reference := descriptor.reference
  byteCount := descriptor.byteCount
  sha256 := descriptor.sha256
  backupPublicId := c.backupPublicId
  tenantPublicId := c.businessPublicId
  attestedAt

/-- `evidence`. -/
def PersistedStoredObjectDescriptor.evidence (descriptor : PersistedStoredObjectDescriptor)
    (c : Context) (attestedAt : ℕ) (i : Identities) (fileIdentity : ℕ) : ReattestedEvidence where
  context := c
  descriptor
  result := descriptor.attest c attestedAt
  rootIdentity := i.root
  objectsIdentity := i.objects
  tenantIdentity := i.tenant
  backupIdentity := i.backup
  directoryIdentity := i.directory
  fileIdentity

/-- The part of `reattest_stored_object` that looks at the object. -/
def attestObject (setup : Setup) (c : Context) (descriptor : PersistedStoredObjectDescriptor) :
    Code ReattestedEvidence := do
  let path := setup.final c descriptor.reference
  ask .validateRoot
  containedPaths setup c descriptor.reference .notFound
  let identities ← lookAtDirectories setup c descriptor.reference .notFound
  let fileState ← regularFileState path .notFound
  refuseIf (fileState.size ≠ descriptor.byteCount) .validation
  assertDirectoryModes setup c descriptor.reference .validation
  onOs .validation (ask (.assertMode path))
  let names ← onOs .validation (ask (.scandir (setup.directory c descriptor.reference)))
  refuseIf (names.dedup ≠ [storedObjectFileName]) .validation
  let (byteCount, sha256) ← hashPath setup path fileState.identity .validation
  refuseIf (byteCount ≠ descriptor.byteCount ∨ sha256 ≠ descriptor.sha256) .validation
  let attestedAt ← ask .clock
  let evidence := descriptor.evidence c attestedAt identities fileState.identity
  validateReattestedPath setup evidence .validation
  pure evidence

/-- `reattest_stored_object`. -/
def reattestStoredObject (setup : Setup) (attested : Attested) (c : Context)
    (descriptor : PersistedStoredObjectDescriptor) :
    Code (ReattestedStoredObjectResult × Attested) := do
  refuseIf (descriptor.wellFormed = false ∨ descriptor.backupPublicId ≠ c.backupPublicId ∨
    descriptor.tenantPublicId ≠ c.businessPublicId ∨ descriptor.byteCount < 1 ∨
    setup.maximumObjectBytes < descriptor.byteCount) .validation
  match attested (stateKey c descriptor.reference) with
  | some existing => do
    refuseIf (existing.context ≠ c ∨ existing.descriptor ≠ descriptor) .validation
    validateReattestedPath setup existing .validation
    pure (existing.result, attested)
  | none => do
    let evidence ← attestObject setup c descriptor
    pure (evidence.result,
      Function.update attested (stateKey c descriptor.reference) (some evidence))

/-- The evidence of a result, if it is the one that was given. -/
def attestedEvidence (attested : Attested) (c : Context) (result : ReattestedStoredObjectResult) :
    Code ReattestedEvidence :=
  match attested (stateKey c result.reference) with
  | none => fail .validation
  | some evidence => do
    refuseIf (evidence.context ≠ c ∨ evidence.result ≠ result) .validation
    pure evidence

/-- `validate_reattested_object`. -/
def validateReattestedObject (setup : Setup) (attested : Attested) (c : Context)
    (result : ReattestedStoredObjectResult) : Code Unit := do
  let evidence ← attestedEvidence attested c result
  validateReattestedPath setup evidence .validation

/-- `release_reattested_object`. -/
def releaseReattestedObject (attested : Attested) (c : Context)
    (result : ReattestedStoredObjectResult) : Code Attested := do
  let _ ← attestedEvidence attested c result
  pure (Function.update attested (stateKey c result.reference) none)

/-- What code comes to, with what it raises. -/
def outcome {α : Type} (x : Code α) : Code (Except Fault α) :=
  tryCatch
    (do
      let a ← x
      pure (.ok a))
    fun f => pure (.error f)

/-- `open_reattested_object`, around the code that is given the reader. -/
def openReattestedObject {α : Type} (setup : Setup) (attested : Attested) (c : Context)
    (result : ReattestedStoredObjectResult) (body : Bytes → Code α) : Code α := do
  validateReattestedObject setup attested c result
  match attested (stateKey c result.reference) with
  | none => fail .notFound
  | some evidence => do
    validateReattestedPath setup evidence .notFound
    let given ← outcome (onOs .notFound (do
      let (opened, bytes) ← ask (.readFile (setup.final c result.reference))
      refuseIf (opened.identity ≠ evidence.fileIdentity ∨ opened.links ≠ 1 ∨
        opened.size ≠ result.byteCount) .notFound
      body bytes))
    -- the `finally`: what it raises counts only if nothing was raised before
    let closed ← outcome (ask .close)
    let checked ← outcome (do
      let state ← directoryState (setup.directory c result.reference) .notFound
      refuseIf (state.identity ≠ evidence.directoryIdentity) .notFound
      validateReattestedPath setup evidence .notFound)
    match given, checked, closed with
    | .error f, _, _ => throw f
    | .ok _, .error f, _ => if f = .abort then throw .abort else fail .notFound
    | .ok _, .ok _, .error f => if f = .abort then throw .abort else fail .notFound
    | .ok a, .ok _, .ok _ => pure a

end NexaPos.Backups.DurableStorage
