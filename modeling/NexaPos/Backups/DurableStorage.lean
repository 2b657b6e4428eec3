import NexaPos.Lib.FileTree
import NexaPos.Lib.Process

/-!
# Durable objects on a local disk

`store_encrypted_artifact` and `delete_stored_object` of `LocalPrivateDurableStorageProvider`,
statement by statement.  `StorageCall` lists what they call, each as one step on the disk; a call
can raise without an effect at any time, and all but the making of the object's directory can
raise after their effect.  What the provider remembers are local variables that outlive a call.

Everything lies on one device, so an identity is an inode, and the modes of files are not kept.
-/

namespace NexaPos.Backups.DurableStorage

open FileTree Routine

abbrev Bytes := List UInt8

/-! ## Data -/

/-- `BackupExecutionContext`. -/
structure Context where
  workspaceReference : ℕ
  businessPublicId : String
  backupPublicId : String
  deriving DecidableEq

/-- `EncryptedArtifactResult`. -/
structure Source where
  reference : ℕ
  encryptedByteCount : ℕ
  ciphertextSha256 : String
  /-- The fields that `_validate_request` compares with constants. -/
  wellFormed : Bool
  deriving DecidableEq

structure Request where
  context : Context
  encryptedArtifact : Source
  deriving DecidableEq

/-- `StoredBackupObjectResult`. -/
structure StoredResult where
  reference : String
  byteCount : ℕ
  sha256 : String
  backupPublicId : String
  tenantPublicId : String
  storedAt : ℕ
  encryptedStagingCleanupIncomplete : Bool
  deriving DecidableEq

/-- `_StoredEvidence`. -/
structure Evidence where
  context : Context
  source : Source
  result : StoredResult
  rootIdentity : ℕ
  objectsIdentity : ℕ
  tenantIdentity : ℕ
  backupIdentity : ℕ
  directoryIdentity : ℕ
  fileIdentity : Option ℕ
  deriving DecidableEq

/-- `_state_key`. -/
def stateKey (context : Context) (reference : String) : ℕ × String :=
  (context.workspaceReference, reference)

/-- `_source_key`. -/
def sourceKey (context : Context) (source : Source) : ℕ × ℕ :=
  (context.workspaceReference, source.reference)

/-- `_stored`, `_deleted` and `_by_source`. -/
structure Registry where
  stored : ℕ × String → Option Evidence := fun _ => none
  deleted : ℕ × String → Option Evidence := fun _ => none
  bySource : ℕ × ℕ → Option (ℕ × String) := fun _ => none

/-- The policy and the surroundings of a provider. -/
structure Setup where
  root : Path
  chunkBytes : ℕ
  maximumObjectBytes : ℕ
  /-- What a new object needs on the disk. -/
  required : ℕ → ℕ
  free : ℕ
  now : ℕ
  sha256 : Bytes → String
  /-- What successive reads of an artifact return. -/
  artifact : ℕ → Option (List Bytes)
  /-- `validate_external_encrypted_artifact_stream`. -/
  validStream : Context → Source → Bytes → Bool
  /-- The references that the factory makes. -/
  references : ℕ → String

structure Disk where
  tree : Tree
  nextInode : ℕ
  nextName : ℕ := 0
  nextReference : ℕ := 0

/-! ## Paths -/

/-- `STORED_OBJECT_FILE_NAME`. -/
def storedObjectFileName : Name := .named "artifact.nxb"

def Setup.objects (setup : Setup) : Path := setup.root ++ [.named "objects"]

def Setup.tenant (setup : Setup) (c : Context) : Path :=
  setup.objects ++ [.named c.businessPublicId]

def Setup.backup (setup : Setup) (c : Context) : Path :=
  setup.tenant c ++ [.named c.backupPublicId]

def Setup.directory (setup : Setup) (c : Context) (reference : String) : Path :=
  setup.backup c ++ [.named reference]

def Setup.final (setup : Setup) (c : Context) (reference : String) : Path :=
  setup.directory c reference ++ [storedObjectFileName]

/-- The names in a directory. -/
def childNames (t : Tree) (p : Path) : List Name :=
  t.filterMap fun x => if x.1 ≠ [] ∧ x.1.dropLast = p then x.1.getLast? else none

/-! ## Calls -/

inductive FileKind
  | regular
  | directory
  | other
  deriving DecidableEq, Repr

/-- What `stat` tells of a file. -/
structure FileState where
  kind : FileKind
  identity : ℕ
  links : ℕ
  size : ℕ := 0
  deriving DecidableEq, Repr

def fileState (t : Tree) : Node → FileState
  | .file i bytes => ⟨.regular, i, links t i, bytes.length⟩
  | .directory i => ⟨.directory, i, 1, 0⟩
  | .other => ⟨.other, 0, 1, 0⟩

/-- The errors of the engine. -/
inductive StorageError
  | policy
  | unsafeRoot
  | capacity
  | timeout
  | coordination
  | creation
  | validation
  | notFound
  | cleanup
  | stagingCleanup
  deriving DecidableEq, Repr

/-- What a step can raise, as far as the handlers tell exceptions apart. -/
inductive Fault
  | engine (e : StorageError)
  /-- `EncryptedArtifactNotFound` or `EncryptedArtifactValidationError`. -/
  | artifact
  /-- `EncryptedArtifactCleanupError`. -/
  | artifactCleanup
  /-- `OSError`. -/
  | os
  /-- Any other `Exception`. -/
  | error
  /-- `KeyboardInterrupt`, `SystemExit` or `GeneratorExit`. -/
  | abort
  deriving DecidableEq, Repr

inductive StorageCall
  /-- `validate_owned_encrypted_artifact`. -/
  | validateOwned
  | newReference
  | clock
  /-- `validate_durable_storage_root`. -/
  | validateRoot
  /-- `filesystem_inspector.assess`. -/
  | assess
  /-- `_contained`. -/
  | contained (p : Path)
  /-- The `os.lstat` of `os.path.lexists`. -/
  | lstat (p : Path)
  /-- `os.stat(path, follow_symlinks=False)`. -/
  | stat (p : Path)
  /-- The first `os.stat` of the directory that was just made. -/
  | statMade (p : Path)
  /-- `mkdir(exist_ok=True)`. -/
  | ensureDirectory (p : Path)
  /-- `mkdir(exist_ok=False)`. -/
  | mkdir (p : Path)
  /-- `os.chmod` and the look at the mode that follows it. -/
  | chmod (p : Path)
  /-- `_assert_private_mode`. -/
  | assertMode (p : Path)
  | diskUsage
  | hook (stage : String)
  | uuid4
  /-- `os.open` with `O_CREAT` and `O_EXCL`. -/
  | create (p : Path)
  /-- `os.fstat` of the file that is being written. -/
  | fstat (p : Path)
  /-- `open_encrypted_artifact`. -/
  | openArtifact (reference : ℕ)
  | closeArtifact
  | checkDeadline
  | read
  | write (p : Path) (chunk : Bytes)
  | fsync
  | close
  | link (source target : Path)
  | unlink (p : Path)
  | fsyncDirectory (p : Path)
  | scandir (p : Path)
  /-- Opening a file, `os.fstat` and reading it to its end. -/
  | readFile (p : Path)
  | validateStream (c : Context) (s : Source) (bytes : Bytes)
  | rmdir (p : Path)
  | cleanupArtifact (reference : ℕ)
  deriving DecidableEq

abbrev StorageCall.Result : StorageCall → Type
  | .newReference => String
  | .clock => ℕ
  | .stat _ => FileState
  | .statMade _ => FileState
  | .diskUsage => ℕ
  | .uuid4 => Name
  | .fstat _ => FileState
  | .openArtifact _ => List Bytes
  | .scandir _ => List Name
  | .readFile _ => FileState × Bytes
  | _ => Unit

namespace Disk

/-- A prefix of the path is a link. -/
def passesLink (d : Disk) (p : Path) : Bool :=
  d.tree.any fun x => x.2 == .other && x.1.isPrefixOf p

/-- The result of an operation on the tree that may be refused. -/
def onTree (d : Disk) (t : Option Tree) : Except Fault Unit × Disk :=
  match t with
  | some tree => (.ok ⟨⟩, { d with tree })
  | none => (.error .os, d)

/-- The same for one that uses a new inode. -/
def onNew (d : Disk) (t : Option Tree) : Except Fault Unit × Disk :=
  match t with
  | some tree => (.ok ⟨⟩, { d with tree, nextInode := d.nextInode + 1 })
  | none => (.error .os, d)

/-- What a look at a path tells. -/
def look (d : Disk) (p : Path) : Except Fault FileState × Disk :=
  match find d.tree p with
  | some n => (.ok (fileState d.tree n), d)
  | none => (.error .os, d)

end Disk

def exec (setup : Setup) : (i : StorageCall) → Disk → Except Fault i.Result × Disk
  | .newReference, d =>
    (.ok (setup.references d.nextReference), { d with nextReference := d.nextReference + 1 })
  | .clock, d => (.ok setup.now, d)
  | .contained p, d => if d.passesLink p then (.error .error, d) else (.ok ⟨⟩, d)
  | .lstat p, d => if (find d.tree p).isSome then (.ok ⟨⟩, d) else (.error .os, d)
  | .stat p, d => d.look p
  | .statMade p, d => d.look p
  | .fstat p, d => d.look p
  | .ensureDirectory p, d =>
    match find d.tree p with
    | some (.directory _) => (.ok ⟨⟩, d)
    | _ => d.onNew (makeDirectory d.tree d.nextInode p)
  | .mkdir p, d => d.onNew (makeDirectory d.tree d.nextInode p)
  | .diskUsage, d => (.ok setup.free, d)
  | .uuid4, d => (.ok (.temporary d.nextName), { d with nextName := d.nextName + 1 })
  | .create p, d => d.onNew (createFile d.tree d.nextInode p)
  | .openArtifact reference, d =>
    match setup.artifact reference with
    | some chunks => (.ok chunks, d)
    | none => (.error .artifact, d)
  | .write p chunk, d =>
    match find d.tree p with
    | some (.file i _) => (.ok ⟨⟩, { d with tree := append d.tree i chunk })
    | _ => (.error .os, d)
  | .link source target, d => d.onTree (FileTree.link d.tree source target)
  | .unlink p, d => d.onTree (FileTree.unlink d.tree p)
  | .scandir p, d => (.ok (childNames d.tree p), d)
  | .readFile p, d =>
    match find d.tree p with
    | some (.file i bytes) => (.ok (fileState d.tree (.file i bytes), bytes), d)
    | _ => (.error .os, d)
  | .validateStream c s bytes, d =>
    if setup.validStream c s bytes then (.ok ⟨⟩, d) else (.error .artifact, d)
  | .rmdir p, d => d.onTree (removeDirectory d.tree p)
  | .validateOwned, d => (.ok ⟨⟩, d)
  | .validateRoot, d => (.ok ⟨⟩, d)
  | .assess, d => (.ok ⟨⟩, d)
  | .chmod _, d => (.ok ⟨⟩, d)
  | .assertMode _, d => (.ok ⟨⟩, d)
  | .hook _, d => (.ok ⟨⟩, d)
  | .closeArtifact, d => (.ok ⟨⟩, d)
  | .checkDeadline, d => (.ok ⟨⟩, d)
  | .read, d => (.ok ⟨⟩, d)
  | .fsync, d => (.ok ⟨⟩, d)
  | .close, d => (.ok ⟨⟩, d)
  | .fsyncDirectory _, d => (.ok ⟨⟩, d)
  | .cleanupArtifact _, d => (.ok ⟨⟩, d)

def machine (setup : Setup) : Machine Unit Disk StorageCall StorageCall.Result Fault where
  exec _ := exec setup
  torn
    | .mkdir _ => false
    | _ => true

/-! ## Small steps -/

/-- What the provider remembers, and the variables of a call. -/
structure Locals where
  registry : Registry
  directory : Option Path := none
  directoryIdentity : Option ℕ := none
  partPath : Option Path := none
  finalPath : Option Path := none
  fileIdentity : Option ℕ := none
  descriptor : Bool := false
  publishedEvidence : Option Evidence := none
  result : Option StoredResult := none
  cleanupIncomplete : Bool := false

abbrev Code (α : Type) := Routine Locals StorageCall StorageCall.Result Fault α

abbrev ask (i : StorageCall) : Code i.Result := perform i

/-- `raise error_type()`. -/
def fail {α : Type} (e : StorageError) : Code α := throw (.engine e)

/-- A check that raises. -/
def refuseIf (p : Prop) [Decidable p] (e : StorageError) : Code Unit :=
  if p then fail e else pure ()

/-- An `OSError` is raised as an error of the engine. -/
def onOs {α : Type} (e : StorageError) (x : Code α) : Code α :=
  tryCatch x fun f => if f = .os then fail e else throw f

/-- `os.path.lexists`. -/
def lexists (p : Path) : Code Bool :=
  tryCatch
    (do
      ask (.lstat p)
      pure true)
    fun f => if f = .os then pure false else throw f

/-- `_directory_state`. -/
def directoryState (p : Path) (e : StorageError) : Code FileState := do
  let current ← onOs e (ask (.stat p))
  refuseIf (current.kind ≠ .directory) e
  pure current

/-- `_regular_file_state`. -/
def regularFileState (p : Path) (e : StorageError) : Code FileState := do
  let current ← onOs e (ask (.stat p))
  refuseIf (current.kind ≠ .regular ∨ current.links ≠ 1) e
  pure current

/-- `_object_paths`. -/
def objectPaths (setup : Setup) (c : Context) (reference : String) (e : StorageError) :
    Code Unit := onOs e (do
  ask (.contained setup.objects)
  ask (.contained (setup.tenant c))
  ask (.contained (setup.backup c))
  ask (.contained (setup.directory c reference))
  ask (.contained (setup.final c reference)))

/-- `_hash_path`. -/
def hashPath (setup : Setup) (p : Path) (expectedIdentity : ℕ) (e : StorageError) :
    Code (ℕ × String) := onOs e (do
  let (opened, bytes) ← ask (.readFile p)
  refuseIf (opened.identity ≠ expectedIdentity ∨ opened.links ≠ 1 ∨ opened.kind ≠ .regular) e
  ask .checkDeadline
  refuseIf (setup.maximumObjectBytes < bytes.length) e
  pure (bytes.length, setup.sha256 bytes))

/-- `_validate_path`. -/
def validatePath (setup : Setup) (evidence : Evidence) (e : StorageError) : Code Unit := do
  let c := evidence.context
  let reference := evidence.result.reference
  let path := setup.final c reference
  objectPaths setup c reference e
  let rootState ← directoryState setup.root e
  let objectsState ← directoryState setup.objects e
  let tenantState ← directoryState (setup.tenant c) e
  let backupState ← directoryState (setup.backup c) e
  let objectState ← directoryState (setup.directory c reference) e
  refuseIf (rootState.identity ≠ evidence.rootIdentity ∨
    objectsState.identity ≠ evidence.objectsIdentity ∨
    tenantState.identity ≠ evidence.tenantIdentity ∨
    backupState.identity ≠ evidence.backupIdentity ∨
    objectState.identity ≠ evidence.directoryIdentity ∨ evidence.fileIdentity = none) e
  onOs e (do
    ask (.assertMode setup.root)
    ask (.assertMode setup.objects)
    ask (.assertMode (setup.tenant c))
    ask (.assertMode (setup.backup c))
    ask (.assertMode (setup.directory c reference)))
  let names ← ask (.scandir (setup.directory c reference))
  refuseIf (names.dedup ≠ [storedObjectFileName]) e
  let current ← regularFileState path e
  refuseIf (evidence.fileIdentity ≠ some current.identity ∨
    current.size ≠ evidence.result.byteCount) e
  onOs e (ask (.assertMode path))
  let (byteCount, sha256) ← hashPath setup path current.identity e
  refuseIf (byteCount ≠ evidence.result.byteCount ∨ sha256 ≠ evidence.result.sha256 ∨
    byteCount ≠ evidence.source.encryptedByteCount ∨
    sha256 ≠ evidence.source.ciphertextSha256) e
  tryCatch
    (do
      let (opened, bytes) ← ask (.readFile path)
      refuseIf (evidence.fileIdentity ≠ some opened.identity ∨ opened.links ≠ 1 ∨
        opened.size ≠ evidence.result.byteCount) e
      ask (.validateStream c evidence.source bytes)
      ask .close)
    fun f => if f = .os ∨ f = .artifact then fail e else throw f

/-! ## The directories above an object -/

/-- `_ensure_directory`. -/
def ensureDirectory (p : Path) : Code FileState := do
  let existed ← lexists p
  onOs .unsafeRoot (ask (.ensureDirectory p))
  let current ← directoryState p .unsafeRoot
  onOs .unsafeRoot (ask (.chmod p))
  if existed then do
    let again ← directoryState p .unsafeRoot
    refuseIf (again.identity ≠ current.identity) .unsafeRoot
    directoryState p .unsafeRoot
  else
    directoryState p .unsafeRoot

/-- `root.mkdir(parents=True, exist_ok=False)`, the highest first. -/
def makeParents : List Path → Code Unit
  | [] => pure ()
  | p :: ps => do
    onOs .unsafeRoot (ask (.ensureDirectory p))
    makeParents ps

/-- The path and the paths above it, the highest first. -/
def prefixes (p : Path) : List Path := (List.range p.length).map fun n => p.take (n + 1)

/-- The root is made, unless it is there. -/
def makeRoot (setup : Setup) : Code Unit := do
  let there ← lexists setup.root
  if there then pure () else makeParents (prefixes setup.root)

/-- The identities that `_prepare_hierarchy` returns. -/
structure Hierarchy where
  root : ℕ
  objects : ℕ
  tenant : ℕ
  backup : ℕ

/-- `_prepare_hierarchy`. -/
def prepareHierarchy (setup : Setup) (c : Context) : Code Hierarchy := do
  ask .validateRoot
  makeRoot setup
  let root ← ensureDirectory setup.root
  ask .assess
  ask (.contained setup.objects)
  let objects ← ensureDirectory setup.objects
  ask (.contained (setup.tenant c))
  let tenant ← ensureDirectory (setup.tenant c)
  ask (.contained (setup.backup c))
  let backup ← ensureDirectory (setup.backup c)
  pure ⟨root.identity, objects.identity, tenant.identity, backup.identity⟩

/-! ## Storing -/

/-- What the checks before the object's directory is made settle. -/
structure Plan where
  reference : String
  storedAt : ℕ
  hierarchy : Hierarchy

/-- `store_encrypted_artifact`, up to the look for the object's directory. -/
def admitArtifact (setup : Setup) (r : Request) : Code Plan := do
  let source := r.encryptedArtifact
  refuseIf (source.wellFormed = false ∨ source.encryptedByteCount < 1 ∨
    setup.maximumObjectBytes < source.encryptedByteCount) .coordination
  tryCatch (ask .validateOwned) fun f => if f = .abort then throw f else fail .coordination
  let reference ← ask .newReference
  let l ← get
  refuseIf ((l.registry.stored (stateKey r.context reference)).isSome ∨
    (l.registry.deleted (stateKey r.context reference)).isSome ∨
    (l.registry.bySource (sourceKey r.context source)).isSome) .creation
  let storedAt ← ask .clock
  let hierarchy ← prepareHierarchy setup r.context
  let free ← ask .diskUsage
  refuseIf (free < setup.required source.encryptedByteCount) .capacity
  objectPaths setup r.context reference .creation
  modify fun l =>
    { l with
      directory := some (setup.directory r.context reference)
      finalPath := some (setup.final r.context reference) }
  let there ← lexists (setup.directory r.context reference)
  refuseIf (there = true) .creation
  pure ⟨reference, storedAt, hierarchy⟩

/-- The loop over what the reader returns. -/
def copyChunks (setup : Setup) (part : Path) : List Bytes → Bytes → Code Bytes
  | [], copied => do
    ask .checkDeadline
    ask .read
    pure copied
  | chunk :: chunks, copied => do
    ask .checkDeadline
    ask .read
    refuseIf (setup.chunkBytes < chunk.length) .creation
    if chunk = [] then
      pure copied
    else do
      refuseIf (setup.maximumObjectBytes < copied.length + chunk.length) .policy
      onOs .creation (ask (.write part chunk))
      copyChunks setup part chunks (copied ++ chunk)

/-- The object's directory is made, and its identity is kept. -/
def createDirectory (directory : Path) : Code ℕ := do
  ask (.mkdir directory)
  let state ← onOs .creation (ask (.statMade directory))
  refuseIf (state.kind ≠ .directory) .creation
  modify fun l => { l with directoryIdentity := some state.identity }
  onOs .creation (ask (.chmod directory))
  ask (.hook "after_durable_directory_creation")
  pure state.identity

/-- The artifact is copied into the part file. -/
def writePart (setup : Setup) (r : Request) (part : Path) : Code ℕ := do
  onOs .creation (ask (.contained part))
  modify fun l => { l with partPath := some part }
  ask (.create part)
  modify fun l => { l with descriptor := true }
  let opened ← ask (.fstat part)
  refuseIf (opened.kind ≠ .regular ∨ opened.links ≠ 1) .creation
  modify fun l => { l with fileIdentity := some opened.identity }
  onOs .creation (ask (.chmod part))
  let copied ← tryCatch
    (do
      let chunks ← ask (.openArtifact r.encryptedArtifact.reference)
      Routine.ensure (copyChunks setup part chunks []) (ask .closeArtifact))
    fun f => if f = .artifact then fail .validation else throw f
  refuseIf (copied.length ≠ r.encryptedArtifact.encryptedByteCount ∨
    setup.sha256 copied ≠ r.encryptedArtifact.ciphertextSha256) .validation
  ask .fsync
  ask .close
  modify fun l => { l with descriptor := false }
  let current ← regularFileState part .creation
  refuseIf (current.identity ≠ opened.identity ∨
    current.size ≠ r.encryptedArtifact.encryptedByteCount) .creation
  pure opened.identity

/-- The two links of a file that was just linked. -/
def checkLinked (identity : ℕ) : List Path → Code Unit
  | [] => pure ()
  | p :: ps => do
    let linked ← ask (.stat p)
    refuseIf (linked.identity ≠ identity ∨ linked.links ≠ 2 ∨ linked.kind ≠ .regular) .creation
    checkLinked identity ps

/-- The part file becomes the object. -/
def publishPart (setup : Setup) (r : Request) (plan : Plan) (part : Path) (identity : ℕ) :
    Code Unit := do
  let directory := setup.directory r.context plan.reference
  let final := setup.final r.context plan.reference
  ask (.hook "before_durable_publication")
  ask (.link part final)
  checkLinked identity [part, final]
  ask (.hook "after_durable_publication_link")
  ask (.unlink part)
  modify fun l => { l with partPath := none }
  let state ← regularFileState final .creation
  refuseIf (state.identity ≠ identity ∨ state.size ≠ r.encryptedArtifact.encryptedByteCount)
    .creation
  onOs .creation (ask (.fsyncDirectory directory))
  ask (.hook "after_durable_publication")

/-- `candidate`. -/
def Plan.result (plan : Plan) (r : Request) : StoredResult where
  reference := plan.reference
  byteCount := r.encryptedArtifact.encryptedByteCount
  sha256 := r.encryptedArtifact.ciphertextSha256
  backupPublicId := r.context.backupPublicId
  tenantPublicId := r.context.businessPublicId
  storedAt := plan.storedAt
  encryptedStagingCleanupIncomplete := true

/-- `evidence`. -/
def Plan.evidence (plan : Plan) (r : Request) (directoryIdentity fileIdentity : ℕ) : Evidence where
  context := r.context
  source := r.encryptedArtifact
  result := plan.result r
  rootIdentity := plan.hierarchy.root
  objectsIdentity := plan.hierarchy.objects
  tenantIdentity := plan.hierarchy.tenant
  backupIdentity := plan.hierarchy.backup
  directoryIdentity
  fileIdentity := some fileIdentity

/-- The object is entered into the registry. -/
def Registry.enter (g : Registry) (e : Evidence) : Registry :=
  { g with
    stored := Function.update g.stored (stateKey e.context e.result.reference) (some e)
    bySource := Function.update g.bySource (sourceKey e.context e.source)
      (some (stateKey e.context e.result.reference)) }

def register (e : Evidence) : Code Unit := do
  let l ← get
  refuseIf ((l.registry.stored (stateKey e.context e.result.reference)).isSome ∨
    (l.registry.deleted (stateKey e.context e.result.reference)).isSome ∨
    (l.registry.bySource (sourceKey e.context e.source)).isSome) .creation
  modify fun l =>
    { l with
      registry := l.registry.enter e
      publishedEvidence := some e
      result := some e.result }

/-- `completed`. -/
def Evidence.completed (e : Evidence) : Evidence :=
  { e with result := { e.result with encryptedStagingCleanupIncomplete := false } }

/-- The staged artifact is removed. -/
def cleanStaging (e : Evidence) : Code Unit := do
  ask (.hook "before_encrypted_staging_cleanup")
  let cleaned ← tryCatch
    (do
      ask (.cleanupArtifact e.source.reference)
      pure true)
    fun f => if f = .artifactCleanup then pure false else throw f
  if cleaned then do
    let l ← get
    refuseIf (l.registry.stored (stateKey e.context e.result.reference) ≠ some e) .stagingCleanup
    modify fun l =>
      { l with
        registry := { l.registry with
          stored := Function.update l.registry.stored (stateKey e.context e.result.reference)
            (some e.completed) }
        publishedEvidence := some e.completed
        result := some e.completed.result }
  else
    pure ()

/-- The `try` of `store_encrypted_artifact`. -/
def storeBody (setup : Setup) (r : Request) : Code Unit := do
  let plan ← admitArtifact setup r
  let directory := setup.directory r.context plan.reference
  let directoryIdentity ← createDirectory directory
  let name ← ask .uuid4
  let identity ← writePart setup r (directory ++ [name])
  publishPart setup r plan (directory ++ [name]) identity
  let evidence := plan.evidence r directoryIdentity identity
  validatePath setup evidence .validation
  register evidence
  cleanStaging evidence

/-! ## Cleaning up -/

/-- The paths of `_cleanup_owned_files` that are there. -/
def ownedPaths : List (Option Path) → Code (List Path)
  | [] => pure []
  | none :: ps => ownedPaths ps
  | some p :: ps => do
    let there ← lexists p
    let owned ← ownedPaths ps
    pure (if there then p :: owned else owned)

def removeOwned (expectedIdentity : ℕ) : List Path → Code Unit
  | [] => pure ()
  | p :: ps => do
    let current ← onOs .cleanup (ask (.stat p))
    refuseIf (current.kind ≠ .regular ∨ current.identity ≠ expectedIdentity ∨
      current.links ≠ (p :: ps).length) .cleanup
    ask (.unlink p)
    let there ← lexists p
    refuseIf (there = true) .cleanup
    removeOwned expectedIdentity ps

/-- `_cleanup_owned_files`. -/
def cleanupOwnedFiles (paths : List (Option Path)) (expectedIdentity : ℕ) : Code Unit := do
  let owned ← ownedPaths paths
  removeOwned expectedIdentity owned

/-- `_remove_empty_directory`. -/
def removeEmptyDirectory (directory : Path) (expectedIdentity : ℕ) : Code Bool := do
  let there ← lexists directory
  if there then do
    let current ← directoryState directory .cleanup
    refuseIf (current.identity ≠ expectedIdentity) .cleanup
    let names ← ask (.scandir directory)
    if names ≠ [] then
      pure false
    else do
      ask (.rmdir directory)
      let there ← lexists directory
      refuseIf (there = true) .cleanup
      pure true
  else
    pure false

/-- `except BaseException: cleanup_incomplete = True`. -/
def orIncomplete (x : Code Unit) : Code Unit :=
  tryCatch x fun _ => modify fun l => { l with cleanupIncomplete := true }

/-- The file that is being written is closed, if it is open. -/
def closeDescriptor (l : Locals) : Code Unit :=
  if l.descriptor then orIncomplete (ask .close) else pure ()

/-- The part of the `finally` that looks after the files. -/
def cleanFiles (l : Locals) : Code Unit :=
  match l.fileIdentity with
  | some identity => cleanupOwnedFiles [l.partPath, l.finalPath] identity
  | none => do
    let owned ← ownedPaths [l.partPath, l.finalPath]
    refuseIf (owned ≠ []) .cleanup

/-- The part of the `finally` that looks after the directory. -/
def cleanDirectory (l : Locals) : Code Unit :=
  match l.directory, l.directoryIdentity with
  | some directory, some identity => do
    let removed ← removeEmptyDirectory directory identity
    if removed then
      pure ()
    else do
      let there ← lexists directory
      if there then modify fun l => { l with cleanupIncomplete := true } else pure ()
  | _, _ => pure ()

/-- The `finally` of `store_encrypted_artifact`. -/
def cleanUp : Code Unit := do
  let l ← get
  if l.publishedEvidence.isSome then
    pure ()
  else do
    closeDescriptor l
    orIncomplete (cleanFiles l)
    orIncomplete (cleanDirectory l)

/-- `_safe_error`. -/
def safeError : Fault → Fault
  | .engine .policy => .engine .policy
  | .engine .unsafeRoot => .engine .unsafeRoot
  | .engine .capacity => .engine .capacity
  | .engine .timeout => .engine .timeout
  | .engine .creation => .engine .creation
  | .engine .validation => .engine .validation
  | .engine .coordination => .engine .coordination
  | .abort => .abort
  | _ => .engine .creation

/-- What a call of `store_encrypted_artifact` comes to. -/
inductive Answer
  | returned (result : StoredResult)
  /-- An exception, with its `cleanup_incomplete`. -/
  | raised (f : Fault) (cleanupIncomplete : Bool)
  deriving DecidableEq

/-- What was stored for a source before. -/
def existingEvidence (g : Registry) (r : Request) : Option Evidence :=
  (g.bySource (sourceKey r.context r.encryptedArtifact)).bind g.stored

/-- `store_encrypted_artifact`. -/
def storeEncryptedArtifact (setup : Setup) (r : Request) : Code Answer := do
  let l ← get
  match existingEvidence l.registry r with
  | some existing =>
    tryCatch
      (do
        refuseIf (existing.context ≠ r.context ∨ existing.source ≠ r.encryptedArtifact)
          .coordination
        validatePath setup existing .validation
        pure (.returned existing.result))
      fun f => pure (.raised f false)
  | none => do
    let raised ← tryCatch
      (do
        storeBody setup r
        pure none)
      fun f => pure (some f)
    cleanUp
    let l ← get
    match raised, l.result with
    | some f, _ => pure (.raised (safeError f) l.cleanupIncomplete)
    | none, some result => pure (.returned result)
    | none, none => pure (.raised (.engine .creation) l.cleanupIncomplete)

/-! ## Deleting -/

/-- The evidence of a key is replaced, if it is still the one that was read. -/
def replaceEvidence (e updated : Evidence) : Code Unit := do
  let key := stateKey e.context e.result.reference
  let l ← get
  refuseIf (l.registry.stored key ≠ some e) .cleanup
  modify fun l =>
    { l with registry := { l.registry with
        stored := Function.update l.registry.stored key (some updated) } }

/-- The object leaves the registry. -/
def Registry.forget (g : Registry) (e : Evidence) : Registry :=
  let key := stateKey e.context e.result.reference
  { stored := Function.update g.stored key none
    deleted := Function.update g.deleted key (some e)
    bySource :=
      if g.bySource (sourceKey e.context e.source) = some key then
        Function.update g.bySource (sourceKey e.context e.source) none
      else g.bySource }

def forgetEvidence (e : Evidence) : Code Unit := do
  let l ← get
  refuseIf (l.registry.stored (stateKey e.context e.result.reference) ≠ some e) .cleanup
  modify fun l => { l with registry := l.registry.forget e }

/-- `os.unlink`, with what it raised after the file was gone. -/
def unlinkFile (p : Path) : Code (Option Fault) :=
  tryCatch
    (do
      ask (.unlink p)
      pure none)
    fun f => do
      let there ← lexists p
      if there then throw f else pure (if f = .abort then some f else none)

/-- The end of `delete_stored_object`. -/
def deleteDirectory (e : Evidence) (directory : Path) : Code Bool := do
  let state ← directoryState directory .cleanup
  refuseIf (state.identity ≠ e.directoryIdentity) .cleanup
  let names ← ask (.scandir directory)
  refuseIf (names ≠ []) .cleanup
  ask (.hook "before_durable_delete_directory")
  ask (.rmdir directory)
  let there ← lexists directory
  refuseIf (there = true) .cleanup
  forgetEvidence e
  pure true

/-- The `try` of `delete_stored_object`. -/
def deleteBody (setup : Setup) (e : Evidence) : Code Bool := do
  let directory := setup.directory e.context e.result.reference
  let path := setup.final e.context e.result.reference
  match e.fileIdentity with
  | some _ => do
    validatePath setup e .cleanup
    ask (.hook "before_durable_delete_unlink")
    let abort ← unlinkFile path
    let there ← lexists path
    refuseIf (there = true) .cleanup
    let updated := { e with fileIdentity := none }
    replaceEvidence e updated
    match abort with
    | some f => throw f
    | none => deleteDirectory updated directory
  | none => do
    objectPaths setup e.context e.result.reference .cleanup
    let there ← lexists directory
    if there then do
      let left ← lexists path
      refuseIf (left = true) .cleanup
      deleteDirectory e directory
    else do
      forgetEvidence e
      pure true

/-- `delete_stored_object`. -/
def deleteStoredObject (setup : Setup) (c : Context) (reference : String) : Code Bool := do
  let l ← get
  match l.registry.deleted (stateKey c reference) with
  | some deleted => do
    refuseIf (deleted.context ≠ c) .cleanup
    pure true
  | none =>
    match l.registry.stored (stateKey c reference) with
    | none => fail .cleanup
    | some e => do
      refuseIf (e.context ≠ c) .cleanup
      tryCatch (deleteBody setup e) fun f =>
        if f = .os ∨ f = .error then fail .cleanup else throw f

/-! ## Reading -/

/-- `owns_stored_object_reference`. -/
def ownsStoredObjectReference (g : Registry) (c : Context) (reference : String) : Bool :=
  (g.stored (stateKey c reference)).any fun e => e.context = c

/-- `open_stored_object`, up to what the reader is given. -/
def openStoredObject (setup : Setup) (c : Context) (reference : String) : Code Bytes := do
  let l ← get
  match l.registry.stored (stateKey c reference) with
  | none => fail .notFound
  | some e => do
    refuseIf (e.fileIdentity = none) .notFound
    validatePath setup e .notFound
    let (opened, bytes) ← onOs .notFound (ask (.readFile (setup.final c reference)))
    refuseIf (e.fileIdentity ≠ some opened.identity ∨ opened.links ≠ 1 ∨
      opened.size ≠ e.result.byteCount) .notFound
    pure bytes

end NexaPos.Backups.DurableStorage
