import NexaPos.Lib.FileTree
import NexaPos.Lib.Process
import Mathlib.Data.List.Sort

/-!
# The restore of media files

`stage`, `publish` and `rollback` of `LocalFilesystemMediaRestoreProvider`, statement by
statement.  `MediaCall` lists what they call, each as one step on the disk: the tree under
`MEDIA_ROOT`, the private staging area, and the generator of temporary names.  A call can raise
without an effect at any time.

The content of a staged file and of an entry of the package is the list of what successive reads
return, and an identity is an inode, since everything lies on one device.
-/

namespace NexaPos.Backups.MediaRestore

open FileTree Routine

abbrev Bytes := List UInt8

/-! ## Data -/

/-- A name that `validate_media_storage_name` accepts, by its segments. -/
structure StorageName where
  segments : List String
  nonempty : segments ≠ []
  safe : ∀ s ∈ segments, s ≠ "" ∧ s ≠ "." ∧ s ≠ ".."
  deriving DecidableEq

def StorageName.text (s : StorageName) : String := "/".intercalate s.segments

/-- `Path(*storage_name.split("/"))`, below the root. -/
def StorageName.path (s : StorageName) : Path := s.segments.map .named

/-- An item of the manifest. -/
structure ManifestMedia where
  storageName : StorageName
  byteCount : ℕ
  sha256 : String
  packagePath : String
  deriving DecidableEq

structure StagedObject where
  storageName : StorageName
  byteCount : ℕ
  sha256 : String
  /-- `staging_path`, by its ordinal. -/
  ordinal : ℕ
  stagingIdentity : ℕ
  targetPath : Path
  reuseExisting : Bool
  deriving DecidableEq

/-- A file of the staging area. -/
structure StagedFile where
  ordinal : ℕ
  identity : ℕ
  chunks : List Bytes
  deriving DecidableEq

/-- What the program calls outside the disk: the digest and the entries of the package. -/
structure MediaSetup where
  sha256 : Bytes → String
  entry : String → Option (List Bytes)

structure Disk where
  tree : Tree
  nextInode : ℕ
  nextName : ℕ := 0
  workspace : Bool := false
  area : Bool := false
  staged : List StagedFile := []

inductive FileKind
  | regular
  | directory
  | other
  deriving DecidableEq, Repr

/-- What `stat` tells of a file. -/
structure FileState where
  kind : FileKind
  identity : ℕ
  links : ℕ
  deriving DecidableEq, Repr

def fileState (t : Tree) : Node → FileState
  | .file i _ => ⟨.regular, i, links t i⟩
  | .directory i => ⟨.directory, i, 1⟩
  | .other => ⟨.other, 0, 1⟩

/-! ## Calls -/

/-- What a step can raise, as far as the handlers tell exceptions apart. -/
inductive MediaFault
  /-- `RestoreMediaPublicationError`, with its `issue_code`. -/
  | media (issue : String)
  /-- `OSError`. -/
  | os
  /-- Any other `Exception`, such as `UnsafeWorkspacePath`. -/
  | error
  /-- `KeyboardInterrupt`, `SystemExit` or `GeneratorExit`. -/
  | abort
  deriving DecidableEq, Repr

inductive MediaCall
  /-- The checks of `_media_root`. -/
  | mediaRoot
  | containedPath (p : Path)
  /-- `os.stat(path, follow_symlinks=False)`. -/
  | stat (p : Path)
  /-- The `os.lstat` of `os.path.lexists`. -/
  | lstat (p : Path)
  | exists (p : Path)
  /-- `_hash_file`, from opening the file to reading its end. -/
  | readFile (p : Path)
  | mkdir (p : Path)
  | uuid4
  /-- Opening a file of the staging area, for what successive reads return. -/
  | openStaged (ordinal : ℕ)
  | createFile (p : Path)
  | read
  | write (p : Path) (chunk : Bytes)
  | fsync
  | close
  | link (source target : Path)
  | unlink (p : Path)
  | scandir (p : Path)
  | rmdir (p : Path)
  | createWorkspace
  | makeArea
  | createStaged (ordinal : ℕ)
  | openEntry (packagePath : String)
  | closeEntry
  | writeStaged (ordinal : ℕ) (chunk : Bytes)
  | statStaged (ordinal : ℕ)
  | unlinkStaged (ordinal : ℕ)
  | lstatArea
  | scanArea
  | removeArea
  | cleanupWorkspace
  deriving DecidableEq

abbrev MediaCall.Result : MediaCall → Type
  | .containedPath _ => Path
  | .stat _ => FileState
  | .exists _ => Bool
  | .readFile _ => FileState × Bytes
  | .uuid4 => Name
  | .openStaged _ => FileState × List Bytes
  | .scandir _ => Bool
  | .createStaged _ => ℕ
  | .openEntry _ => List Bytes
  | .statStaged _ => FileState
  | .scanArea => Bool
  | _ => Unit

namespace Disk

/-- A prefix of the path is a link. -/
def passesLink (d : Disk) (p : Path) : Bool :=
  d.tree.any fun x => x.2 == .other && x.1.isPrefixOf p

def stagedFile (d : Disk) (ordinal : ℕ) : Option StagedFile :=
  d.staged.find? (·.ordinal == ordinal)

/-- The result of an operation on the tree that may be refused. -/
def onTree (d : Disk) (t : Option Tree) : Except MediaFault Unit × Disk :=
  match t with
  | some tree => (.ok ⟨⟩, { d with tree })
  | none => (.error .os, d)

/-- The same for one that uses a new inode. -/
def onNew (d : Disk) (t : Option Tree) : Except MediaFault Unit × Disk :=
  match t with
  | some tree => (.ok ⟨⟩, { d with tree, nextInode := d.nextInode + 1 })
  | none => (.error .os, d)

end Disk

def exec (setup : MediaSetup) : (i : MediaCall) → Disk → Except MediaFault i.Result × Disk
  | .mediaRoot, d => (.ok ⟨⟩, d)
  | .containedPath p, d => if d.passesLink p then (.error .error, d) else (.ok p, d)
  | .stat p, d =>
    match find d.tree p with
    | some n => (.ok (fileState d.tree n), d)
    | none => (.error .os, d)
  | .lstat p, d => if (find d.tree p).isSome then (.ok ⟨⟩, d) else (.error .os, d)
  | .exists p, d => (.ok (find d.tree p).isSome, d)
  | .readFile p, d =>
    match find d.tree p with
    | some (.file i bytes) => (.ok (fileState d.tree (.file i bytes), bytes), d)
    | _ => (.error .os, d)
  | .mkdir p, d => d.onNew (makeDirectory d.tree d.nextInode p)
  | .uuid4, d => (.ok (.temporary d.nextName), { d with nextName := d.nextName + 1 })
  | .openStaged ordinal, d =>
    match d.stagedFile ordinal with
    | some f => (.ok (⟨.regular, f.identity, 1⟩, f.chunks), d)
    | none => (.error .os, d)
  | .createFile p, d => d.onNew (FileTree.createFile d.tree d.nextInode p)
  | .read, d => (.ok ⟨⟩, d)
  | .write p chunk, d =>
    match find d.tree p with
    | some (.file i _) => (.ok ⟨⟩, { d with tree := append d.tree i chunk })
    | _ => (.error .os, d)
  | .fsync, d => (.ok ⟨⟩, d)
  | .close, d => (.ok ⟨⟩, d)
  | .link source target, d => d.onTree (FileTree.link d.tree source target)
  | .unlink p, d => d.onTree (FileTree.unlink d.tree p)
  | .scandir p, d => (.ok (isEmpty d.tree p), d)
  | .rmdir p, d => d.onTree (removeDirectory d.tree p)
  | .createWorkspace, d =>
    if d.workspace then (.error .error, d) else (.ok ⟨⟩, { d with workspace := true })
  | .makeArea, d => if d.area then (.error .os, d) else (.ok ⟨⟩, { d with area := true })
  | .createStaged ordinal, d =>
    if (d.stagedFile ordinal).isSome then
      (.error .os, d)
    else
      (.ok d.nextInode,
        { d with
          staged := d.staged ++ [⟨ordinal, d.nextInode, []⟩]
          nextInode := d.nextInode + 1 })
  | .openEntry packagePath, d =>
    match setup.entry packagePath with
    | some chunks => (.ok chunks, d)
    | none => (.error .error, d)
  | .closeEntry, d => (.ok ⟨⟩, d)
  | .writeStaged ordinal chunk, d =>
    (.ok ⟨⟩,
      { d with
        staged := d.staged.map fun f =>
          if f.ordinal = ordinal then { f with chunks := f.chunks ++ [chunk] } else f })
  | .statStaged ordinal, d =>
    match d.stagedFile ordinal with
    | some f => (.ok ⟨.regular, f.identity, 1⟩, d)
    | none => (.error .os, d)
  | .unlinkStaged ordinal, d =>
    (.ok ⟨⟩, { d with staged := d.staged.filter (·.ordinal != ordinal) })
  | .lstatArea, d => if d.area then (.ok ⟨⟩, d) else (.error .os, d)
  | .scanArea, d => (.ok d.staged.isEmpty, d)
  | .removeArea, d => (.ok ⟨⟩, { d with area := false })
  | .cleanupWorkspace, d => (.ok ⟨⟩, { d with workspace := false })

def machine (setup : MediaSetup) :
    Machine Unit Disk MediaCall MediaCall.Result MediaFault where
  exec _ := exec setup
  torn _ := false

/-! ## Small steps -/

/-- The evidence that publishing and its rollback change, the objects that staging has finished,
and the descriptors that are open. -/
structure Locals where
  createdTargets : List (Path × ℕ) := []
  createdDirectories : List (Path × ℕ) := []
  published : Bool := false
  objects : List StagedObject := []
  source : Bool := false
  target : Bool := false
  deriving DecidableEq

abbrev Code (α : Type) := Routine Locals MediaCall MediaCall.Result MediaFault α

abbrev ask (i : MediaCall) : Code i.Result := perform i

/-- `raise RestoreMediaPublicationError`. -/
def fail {α : Type} (issue : String) : Code α := throw (.media issue)

/-- An `OSError` is raised as a publication error. -/
def onOs {α : Type} (issue : String) (x : Code α) : Code α :=
  tryCatch x fun e => if e = .os then fail issue else throw e

/-- `except OSError: pass`. -/
def dropOs (x : Code Unit) : Code Unit :=
  tryCatch x fun e => if e = .os then pure () else throw e

/-- `except Exception: pass`. -/
def dropErrors (x : Code Unit) : Code Unit :=
  tryCatch x fun e => if e = .abort then throw e else pure ()

/-- `os.path.lexists`. -/
def lexists (x : Code Unit) : Code Bool :=
  tryCatch
    (do
      x
      pure true)
    fun e => if e = .os then pure false else throw e

/-- `_file_state`. -/
def checkFile (p : Path) : Code FileState := do
  let state ← onOs "restore_media_unavailable" (ask (.stat p))
  if state.kind ≠ .regular ∨ state.links ≠ 1 then
    fail "restore_media_unsafe"
  else
    pure state

/-- `_directory_state`. -/
def checkDirectory (p : Path) : Code FileState := do
  let state ← onOs "restore_media_root_invalid" (ask (.stat p))
  if state.kind ≠ .directory then
    fail "restore_media_root_invalid"
  else
    pure state

/-- `_hash_file`. -/
def hashFile (setup : MediaSetup) (p : Path) (expectedIdentity maximum : ℕ) :
    Code (ℕ × String) := do
  let (opened, bytes) ← onOs "restore_media_unavailable" (ask (.readFile p))
  if opened.kind ≠ .regular ∨ opened.links ≠ 1 ∨ opened.identity ≠ expectedIdentity then
    fail "restore_media_unsafe"
  else if maximum < bytes.length then
    fail "restore_media_size_mismatch"
  else
    pure (bytes.length, setup.sha256 bytes)

/-- The file is there and holds what the manifest says. -/
def checkContent (setup : MediaSetup) (p : Path) (byteCount : ℕ) (sha256 issue : String) :
    Code FileState := do
  let state ← checkFile p
  let (count, digest) ← hashFile setup p state.identity byteCount
  if count ≠ byteCount ∨ digest ≠ sha256 then
    fail issue
  else
    pure state

/-! ## Staging -/

/-- `_manifest_media`, as far as it compares items. -/
def manifestMedia (media : List ManifestMedia) : Code Unit :=
  if (media.map (·.storageName)).Nodup ∧ ∀ item ∈ media, item.sha256.length = 64 then
    pure ()
  else
    fail "restore_media_manifest_invalid"

/-- The loop of `_write_staged` over what the reader returns. -/
def writeChunks (ordinal expectedBytes : ℕ) : List Bytes → Bytes → Code Bytes
  | [], written => do
    ask .read
    pure written
  | chunk :: chunks, written => do
    ask .read
    if expectedBytes < written.length + chunk.length then
      fail "restore_media_size_mismatch"
    else do
      ask (.writeStaged ordinal chunk)
      writeChunks ordinal expectedBytes chunks (written ++ chunk)

/-- `_write_staged`. -/
def writeStaged (setup : MediaSetup) (reader : List Bytes) (ordinal expectedBytes : ℕ)
    (expectedSha256 : String) : Code ℕ :=
  onOs "restore_media_stage_failed" (do
    let identity ← ask (.createStaged ordinal)
    Routine.ensure
      (do
        let written ← writeChunks ordinal expectedBytes reader []
        ask .fsync
        if written.length ≠ expectedBytes ∨ setup.sha256 written ≠ expectedSha256 then
          fail "restore_media_hash_mismatch"
        else
          pure identity)
      (dropOs (ask .close)))

/-- One round of the loop of `stage`. -/
def stageOne (setup : MediaSetup) (ordinal : ℕ) (item : ManifestMedia) : Code Unit := do
  let target ← ask (.containedPath item.storageName.path)
  let there ← lexists (ask (.lstat target))
  let reuse ←
    if there then do
      let _ ← checkContent setup target item.byteCount item.sha256 "restore_media_collision"
      pure true
    else
      pure false
  let reader ← ask (.openEntry item.packagePath)
  let identity ← Routine.ensure
    (writeStaged setup reader ordinal item.byteCount item.sha256) (ask .closeEntry)
  modify fun l =>
    { l with
      objects := l.objects ++
        [⟨item.storageName, item.byteCount, item.sha256, ordinal, identity, target, reuse⟩] }

def stageAll (setup : MediaSetup) : ℕ → List ManifestMedia → Code Unit
  | _, [] => pure ()
  | ordinal, item :: items => do
    stageOne setup ordinal item
    stageAll setup (ordinal + 1) items

/-- A staged file is removed, if it is still the one that was written. -/
def discard (item : StagedObject) : Code Unit := dropErrors (do
  let current ← onOs "restore_media_unavailable" (ask (.statStaged item.ordinal))
  if current.identity = item.stagingIdentity then
    ask (.unlinkStaged item.ordinal)
  else
    pure ())

def discardAll : List StagedObject → Code Unit
  | [] => pure ()
  | item :: items => do
    discard item
    discardAll items

/-- What `stage` does after a failure. -/
def abandon : Code Unit := do
  discardAll (← get).objects.reverse
  dropErrors (do
    let there ← lexists (ask .lstatArea)
    if there then do
      let empty ← ask .scanArea
      if empty then do
        ask .removeArea
        ask .cleanupWorkspace
      else
        ask .cleanupWorkspace
    else
      ask .cleanupWorkspace)

/-- The items in the order of their names. -/
def sortedManifest (media : List ManifestMedia) : List ManifestMedia :=
  media.insertionSort fun a b => a.storageName.text ≤ b.storageName.text

/-- `stage`; `known` says that the reference has been used. -/
def stage (setup : MediaSetup) (known : Bool) (media : List ManifestMedia)
    (mediaStorageNames : List StorageName) : Code (List StagedObject) := do
  manifestMedia media
  if ¬ ((∀ item ∈ media, item.storageName ∈ mediaStorageNames) ∧
      ∀ name ∈ mediaStorageNames, ∃ item ∈ media, item.storageName = name) then
    fail "restore_media_reference_mismatch"
  else if known then
    fail "restore_media_idempotency_conflict"
  else do
    ask .mediaRoot
    ask .createWorkspace
    tryCatch
      (do
        ask .makeArea
        stageAll setup 1 (sortedManifest media)
        pure (← get).objects)
      fun e => do
        abandon
        throw e

/-! ## Publication -/

/-- The parents that are missing, the lowest first, and the lowest one that is there. -/
def missingParents : (below : Path) → (depth : ℕ) → Code (List Path × Path)
  | current, 0 => pure ([], current)
  | current, depth + 1 => do
    let there ← ask (.exists current)
    if there then
      pure ([], current)
    else do
      let (missing, lowest) ← missingParents current.dropLast depth
      pure (current :: missing, lowest)

/-- The directories are made, the highest first. -/
def makeParents : List Path → Code Unit
  | [] => pure ()
  | directory :: directories => do
    onOs "restore_media_publish_failed" (ask (.mkdir directory))
    let state ← checkDirectory directory
    modify fun l =>
      { l with createdDirectories := l.createdDirectories ++ [(directory, state.identity)] }
    makeParents directories

/-- `_ensure_parents`. -/
def ensureParents (parent : Path) : Code Unit := do
  let (missing, lowest) ← missingParents parent parent.length
  let _ ← checkDirectory lowest
  makeParents missing.reverse

/-- The loop that copies a staged file. -/
def copyChunks (part : Path) : List Bytes → Code Unit
  | [] => ask .read
  | chunk :: chunks => do
    ask .read
    ask (.write part chunk)
    copyChunks part chunks

/-- The end of the `try` of `_publish_one`, after the target was linked and recorded. -/
def finishPart (part : Path) (item : StagedObject) (partIdentity : ℕ) : Code Bool := do
  let linkedState ← ask (.stat item.targetPath)
  if linkedState.kind ≠ .regular ∨ linkedState.identity ≠ partIdentity ∨ linkedState.links ≠ 2 then
    fail "restore_media_publish_failed"
  else do
    ask (.unlink part)
    let finalState ← checkFile item.targetPath
    if finalState.identity ≠ partIdentity then
      fail "restore_media_publish_failed"
    else
      pure true

/-- The `try` of `_publish_one`. -/
def publishPart (setup : MediaSetup) (item : StagedObject) (part : Path) : Code Bool := do
  let (sourceState, chunks) ← ask (.openStaged item.ordinal)
  modify fun l => { l with source := true }
  if sourceState.identity ≠ item.stagingIdentity ∨ sourceState.links ≠ 1 then
    fail "restore_media_stage_changed"
  else do
    ask (.createFile part)
    modify fun l => { l with target := true }
    copyChunks part chunks
    ask .fsync
    ask .close
    modify fun l => { l with target := false }
    let partState ← checkContent setup part item.byteCount item.sha256
      "restore_media_publish_failed"
    ask (.link part item.targetPath)
    modify fun l =>
      { l with createdTargets := l.createdTargets ++ [(item.targetPath, partState.identity)] }
    finishPart part item partState.identity

/-- A descriptor is closed, if it is open. -/
def closeIf (isOpen : Bool) : Code Unit := if isOpen then dropOs (ask .close) else pure ()

/-- The `finally` of `_publish_one`. -/
def cleanPart (part : Path) : Code Unit := do
  closeIf (← get).source
  closeIf (← get).target
  modify fun l => { l with source := false, target := false }
  let there ← lexists (ask (.lstat part))
  if there then dropOs (ask (.unlink part)) else pure ()

/-- `_publish_one`. -/
def publishOne (setup : MediaSetup) (item : StagedObject) : Code Bool :=
  if item.reuseExisting then do
    let _ ← checkContent setup item.targetPath item.byteCount item.sha256 "restore_media_collision"
    pure false
  else do
    let there ← lexists (ask (.lstat item.targetPath))
    if there then
      fail "restore_media_collision"
    else do
      ask .mediaRoot
      let contained ← ask (.containedPath item.targetPath)
      if contained ≠ item.targetPath then
        fail "restore_media_unsafe"
      else do
        ensureParents item.targetPath.dropLast
        let contained ← ask (.containedPath item.targetPath)
        if contained ≠ item.targetPath then
          fail "restore_media_unsafe"
        else do
          let name ← ask .uuid4
          let part := item.targetPath.dropLast ++ [name]
          Routine.ensure (onOs "restore_media_publish_failed" (publishPart setup item part))
            (cleanPart part)

def publishAll (setup : MediaSetup) : List StagedObject → ℕ → Code ℕ
  | [], created => pure created
  | item :: items, created => do
    let made ← publishOne setup item
    publishAll setup items (if made then created + 1 else created)

/-- `publish`, for the objects of the evidence. -/
def publish (setup : MediaSetup) (objects : List StagedObject) : Code ℕ := do
  if (← get).published then
    fail "restore_media_evidence_invalid"
  else do
    let created ← publishAll setup objects 0
    modify fun l => { l with published := true }
    pure created

/-! ## Rollback -/

def removeTargets : List (Path × ℕ) → Code Unit
  | [] => pure ()
  | (path, expectedIdentity) :: targets => do
    let current ← checkFile path
    if current.identity ≠ expectedIdentity then
      fail "restore_media_rollback_unsafe"
    else do
      ask (.unlink path)
      removeTargets targets

def removeDirectories : List (Path × ℕ) → Code Unit
  | [] => pure ()
  | (path, expectedIdentity) :: directories => do
    let current ← checkDirectory path
    if current.identity ≠ expectedIdentity then
      fail "restore_media_rollback_unsafe"
    else do
      let empty ← ask (.scandir path)
      if empty then do
        ask (.rmdir path)
        removeDirectories directories
      else
        fail "restore_media_rollback_unsafe"

/-- `rollback`. -/
def rollback : Code Bool := onOs "restore_media_rollback_failed" (do
  removeTargets (← get).createdTargets.reverse
  modify fun l => { l with createdTargets := [] }
  removeDirectories (← get).createdDirectories.reverse
  modify fun l => { l with createdDirectories := [], published := false }
  pure true)

end NexaPos.Backups.MediaRestore
