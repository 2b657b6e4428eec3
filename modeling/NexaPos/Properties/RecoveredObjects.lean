import NexaPos.Properties.ProviderRuns

/-!
# Objects that outlive the process

A restore is another operation, often of another process: it knows of an object what the database
kept of its result, and its context has a workspace of its own.  The re-attestation looks at the
disk alone, so an object that a store has returned is found again after any number of restarts, and
opens to the bytes of the artifact.  And whatever has become of the disk, nothing else is read.
-/

namespace NexaPos.Backups.DurableStorage

open FileTree Routine

variable {setup : Setup} {α β : Type} {l : Locals} {d d' : Disk} {p : Path} {e : StorageError}
  {c : Context} {reference : String} {r : Request} {evidence : Evidence} {a : ReattestedEvidence}
  {attested : Attested} {descriptor : PersistedStoredObjectDescriptor}
  {R : Locals → Disk → Prop}

/-! ## Re-attested objects -/

/-- The object of a re-attested evidence is there, and whole. -/
structure Attests (setup : Setup) (d : Disk) (a : ReattestedEvidence) (bytes : Bytes) : Prop where
  root : IsDirectory d setup.root a.rootIdentity
  objects : IsDirectory d setup.objects a.objectsIdentity
  tenant : IsDirectory d (setup.tenant a.context) a.tenantIdentity
  backup : IsDirectory d (setup.backup a.context) a.backupIdentity
  directory : IsDirectory d (setup.directory a.context a.result.reference) a.directoryIdentity
  links : ∀ p ∈ [setup.objects, setup.tenant a.context, setup.backup a.context,
    setup.directory a.context a.result.reference, setup.final a.context a.result.reference],
    d.passesLink p = false
  names : (childNames d.tree (setup.directory a.context a.result.reference)).dedup =
    [storedObjectFileName]
  file : HasFile (setup.final a.context a.result.reference) a.fileIdentity bytes d
  once : FileTree.links d.tree a.fileIdentity = 1
  count : bytes.length = a.result.byteCount
  sha256 : setup.sha256 bytes = a.result.sha256
  maximum : bytes.length ≤ setup.maximumObjectBytes

lemma serves_containedPaths {Q : Unit → Locals → Disk → Prop}
    (hlinks : ∀ p ∈ [setup.objects, setup.tenant c, setup.backup c, setup.directory c reference,
      setup.final c reference], d.passesLink p = false) (h : Q ⟨⟩ l d) :
    Serves setup (containedPaths setup c reference e) Q l d :=
  serves_tryCatch (serves_objectPaths hlinks h)

lemma serves_assertDirectoryModes {Q : Unit → Locals → Disk → Prop} (h : Q ⟨⟩ l d) :
    Serves setup (assertDirectoryModes setup c reference e) Q l d := by
  refine serves_onOs ?_
  rw [serves_bind]
  refine serves_ask rfl ?_
  rw [serves_bind]
  refine serves_ask rfl ?_
  rw [serves_bind]
  refine serves_ask rfl ?_
  rw [serves_bind]
  exact serves_ask rfl (serves_ask rfl h)

section File

variable {i : ℕ} {bytes : Bytes}

lemma exec_stat_file (hfile : HasFile p i bytes d) (honce : FileTree.links d.tree i = 1) :
    exec setup (.stat p) d = (.ok ⟨.regular, i, 1, bytes.length⟩, d) := by
  have hfind : find d.tree p = some (.file i bytes) := hfile
  simp only [exec, Disk.look, hfind, fileState, honce]

lemma exec_readFile (hfile : HasFile p i bytes d) (honce : FileTree.links d.tree i = 1) :
    exec setup (.readFile p) d = (.ok (⟨.regular, i, 1, bytes.length⟩, bytes), d) := by
  have hfind : find d.tree p = some (.file i bytes) := hfile
  simp only [exec, hfind, fileState, honce]

lemma serves_regularFileState {Q : FileState → Locals → Disk → Prop} (hfile : HasFile p i bytes d)
    (honce : FileTree.links d.tree i = 1) (h : Q ⟨.regular, i, 1, bytes.length⟩ l d) :
    Serves setup (regularFileState p e) Q l d := by
  rw [regularFileState, serves_bind]
  refine serves_onOs (serves_ask (exec_stat_file hfile honce) ?_)
  rw [serves_bind]
  exact serves_refuseIf (by simp) h

lemma serves_hashPath {Q : ℕ × String → Locals → Disk → Prop} (hfile : HasFile p i bytes d)
    (honce : FileTree.links d.tree i = 1) (hmaximum : bytes.length ≤ setup.maximumObjectBytes)
    (h : Q (bytes.length, setup.sha256 bytes) l d) :
    Serves setup (hashPath setup p i e) Q l d := by
  refine serves_onOs ?_
  rw [serves_bind]
  refine serves_ask (exec_readFile hfile honce) ?_
  rw [serves_bind]
  refine serves_refuseIf (by simp) ?_
  rw [serves_bind]
  refine serves_ask rfl ?_
  rw [serves_bind]
  exact serves_refuseIf (Nat.not_lt.mpr hmaximum) h

end File

variable {bytes : Bytes}

lemma serves_validateReattestedPath (h : Attests setup d a bytes) :
    Serves setup (validateReattestedPath setup a e) (fun _ l' d' => l' = l ∧ d' = d) l d := by
  rw [validateReattestedPath, serves_bind]
  refine serves_containedPaths h.links ?_
  rw [serves_bind]
  refine serves_directoryState h.root ?_
  rw [serves_bind]
  refine serves_directoryState h.objects ?_
  rw [serves_bind]
  refine serves_directoryState h.tenant ?_
  rw [serves_bind]
  refine serves_directoryState h.backup ?_
  rw [serves_bind]
  refine serves_directoryState h.directory ?_
  rw [serves_bind]
  refine serves_refuseIf (by simp) ?_
  rw [serves_bind]
  refine serves_assertDirectoryModes ?_
  rw [serves_bind]
  refine serves_onOs (serves_ask rfl ?_)
  rw [serves_bind]
  refine serves_refuseIf (not_not.mpr h.names) ?_
  rw [serves_bind]
  refine serves_regularFileState h.file h.once ?_
  rw [serves_bind]
  refine serves_refuseIf (by simp [h.count]) ?_
  rw [serves_bind]
  refine serves_onOs (serves_ask rfl ?_)
  rw [serves_bind]
  refine serves_hashPath h.file h.once h.maximum ?_
  exact serves_refuseIf (by simp [h.count, h.sha256]) ⟨rfl, rfl⟩

lemma does_containedPaths {Q : Unit → Locals → Disk → Prop} (hR : ∀ d', Same d d' → R l d')
    (hok : (∀ p ∈ [setup.objects, setup.tenant c, setup.backup c, setup.directory c reference,
      setup.final c reference], d.passesLink p = false) → Q ⟨⟩ l d) :
    Does setup (containedPaths setup c reference e) Q R l d := by
  refine does_tryCatch (does_objectPaths (fun d' hsame f => ?_) hok)
  split
  · exact hR d' hsame
  · exact hR d' hsame

/-- A validation that succeeds has seen the object. -/
lemma does_validateReattestedPath (hR : ∀ d', Same d d' → R l d') :
    Does setup (validateReattestedPath setup a e)
      (fun _ l' d' => l' = l ∧ d' = d ∧ ∃ bytes, Attests setup d a bytes) R l d := by
  have hstay := hR d (Same.refl d)
  rw [validateReattestedPath, does_bind]
  refine does_containedPaths hR fun hlinks => ?_
  rw [does_bind]
  refine does_directoryState hR fun i₁ h₁ => ?_
  rw [does_bind]
  refine does_directoryState hR fun i₂ h₂ => ?_
  rw [does_bind]
  refine does_directoryState hR fun i₃ h₃ => ?_
  rw [does_bind]
  refine does_directoryState hR fun i₄ h₄ => ?_
  rw [does_bind]
  refine does_directoryState hR fun i₅ h₅ => ?_
  rw [does_bind]
  refine does_refuseIf (fun _ => hstay) fun hidentities => ?_
  simp only [not_or, not_not] at hidentities
  obtain ⟨rfl, rfl, rfl, rfl, rfl⟩ := hidentities
  rw [does_bind, assertDirectoryModes]
  refine does_onOs ?_
  rw [does_bind]
  refine does_still rfl hstay ?_
  rw [does_bind]
  refine does_still rfl hstay ?_
  rw [does_bind]
  refine does_still rfl hstay ?_
  rw [does_bind]
  refine does_still rfl hstay (does_still rfl hstay ?_)
  rw [does_bind]
  refine does_onOs (does_still rfl hstay ?_)
  rw [does_bind]
  refine does_refuseIf (fun _ => hstay) fun hnames => ?_
  rw [does_bind]
  refine does_regularFileState hR fun i bytes hfile honce => ?_
  rw [does_bind]
  refine does_refuseIf (fun _ => hstay) fun hstate => ?_
  simp only [not_or, not_not] at hstate
  rw [does_bind]
  refine does_onOs (does_still rfl hstay ?_)
  rw [does_bind]
  refine does_hashPath hR fun bytes' hfile' hmaximum =>
    does_refuseIf (fun _ => hstay) fun hhash => ?_
  simp only [not_or, not_not] at hhash
  obtain ⟨rfl, hcount⟩ := hstate
  exact ⟨rfl, rfl, bytes', h₁, h₂, h₃, h₄, h₅, hlinks, not_not.mp hnames, hfile', honce, hhash.1,
    hhash.2, hmaximum⟩

/-! ## What a restore knows of an object -/

/-- The descriptor that a restore makes of what the database keeps of a result. -/
def StoredResult.persisted (result : StoredResult) (c : Context) :
    PersistedStoredObjectDescriptor where
  reference := result.reference
  byteCount := result.byteCount
  sha256 := result.sha256
  backupPublicId := c.backupPublicId
  tenantPublicId := c.businessPublicId

/-- The identities of the directories above the object of an evidence. -/
def Evidence.identities (evidence : Evidence) : Identities where
  root := evidence.rootIdentity
  objects := evidence.objectsIdentity
  tenant := evidence.tenantIdentity
  backup := evidence.backupIdentity
  directory := evidence.directoryIdentity

/-- The context of another operation on the same backup. -/
structure Context.SameBackup (c c' : Context) : Prop where
  business : c'.businessPublicId = c.businessPublicId
  backup : c'.backupPublicId = c.backupPublicId

section SameBackup

variable {c' : Context}

lemma Context.SameBackup.tenant_eq (h : c.SameBackup c') : setup.tenant c' = setup.tenant c := by
  rw [Setup.tenant, Setup.tenant, h.business]

lemma Context.SameBackup.backup_eq (h : c.SameBackup c') : setup.backup c' = setup.backup c := by
  rw [Setup.backup, Setup.backup, h.tenant_eq, h.backup]

lemma Context.SameBackup.directory_eq (h : c.SameBackup c') :
    setup.directory c' reference = setup.directory c reference := by
  rw [Setup.directory, Setup.directory, h.backup_eq]

lemma Context.SameBackup.final_eq (h : c.SameBackup c') :
    setup.final c' reference = setup.final c reference := by
  rw [Setup.final, Setup.final, h.directory_eq]

end SameBackup

/-- What the re-attestation of an intact object finds. -/
def Evidence.reattested (evidence : Evidence) (setup : Setup) (c : Context) (i : ℕ) :
    ReattestedEvidence :=
  (evidence.result.persisted c).evidence c setup.now evidence.identities i

lemma Intact.attests {i : ℕ} (h : Intact setup d evidence)
    (hfile : HasFile (evidence.final setup) i bytes d) (hsame : evidence.context.SameBackup c) :
    Attests setup d (evidence.reattested setup c i) bytes := by
  obtain ⟨j, bytes', hj, hfound, honce, hcount, -, hsha, -, hmaximum, -⟩ := h.file
  obtain ⟨rfl, rfl⟩ := Node.file.inj (Option.some.inj (hfile.symm.trans hfound))
  have hdirectory : setup.directory c evidence.result.reference =
    setup.directory evidence.context evidence.result.reference := hsame.directory_eq
  have hfinal : setup.final c evidence.result.reference =
    setup.final evidence.context evidence.result.reference := hsame.final_eq
  refine ⟨h.root, h.objects, ?_, ?_, ?_, ?_, ?_, ?_, honce, hcount, hsha, hmaximum⟩
  · show IsDirectory d (setup.tenant c) _
    rw [hsame.tenant_eq]
    exact h.tenant
  · show IsDirectory d (setup.backup c) _
    rw [hsame.backup_eq]
    exact h.backup
  · show IsDirectory d (setup.directory c evidence.result.reference) _
    rw [hdirectory]
    exact h.directory
  · show ∀ p ∈ [setup.objects, setup.tenant c, setup.backup c,
      setup.directory c evidence.result.reference, setup.final c evidence.result.reference], _
    rw [hsame.tenant_eq, hsame.backup_eq, hdirectory, hfinal]
    exact h.links
  · show (childNames d.tree (setup.directory c evidence.result.reference)).dedup = _
    rw [hdirectory]
    exact h.names
  · show HasFile (setup.final c evidence.result.reference) _ _ d
    rw [hfinal]
    exact hfile

/-! ## Re-attesting -/

lemma Attests.congr (h : Attests setup d a bytes) (htree : d'.tree = d.tree) :
    Attests setup d' a bytes := by
  obtain ⟨tree, _, _, _⟩ := d'
  obtain rfl : tree = d.tree := htree
  exact ⟨h.root, h.objects, h.tenant, h.backup, h.directory, h.links, h.names, h.file, h.once,
    h.count, h.sha256, h.maximum⟩

/-- A step that only looks, seen from an earlier disk. -/
lemma Looks.does_next {base : Disk} {x : Code α} {f : α → Code β} {Q : β → Locals → Disk → Prop}
    (hx : Looks setup x) (h : Same base d) (hR : ∀ d', Same base d' → R l d')
    (hf : ∀ a d', Same base d' → Does setup (f a) Q R l d') : Does setup (x >>= f) Q R l d :=
  hx.does_bind (fun d' h' => hR d' (h.trans h')) fun a d' h' => hf a d' (h.trans h')

lemma looks_lookAtDirectories : Looks setup (lookAtDirectories setup c reference e) :=
  looks_directoryState.bind fun _ => looks_directoryState.bind fun _ =>
    looks_directoryState.bind fun _ => looks_directoryState.bind fun _ =>
    looks_directoryState.bind fun _ => looks_pure

/-- What the attestation of an object says of the disk. -/
def Found (setup : Setup) (d : Disk) (c : Context) (descriptor : PersistedStoredObjectDescriptor)
    (a : ReattestedEvidence) : Prop :=
  (∃ identities i, a = descriptor.evidence c setup.now identities i) ∧
    ∃ bytes, Attests setup d a bytes

lemma does_attestObject (hR : ∀ d', Same d d' → R l d') :
    Does setup (attestObject setup c descriptor)
      (fun a l' d' => l' = l ∧ Same d d' ∧ Found setup d c descriptor a) R l d := by
  rw [attestObject]
  refine (looks_ask rfl).does_next (Same.refl d) hR fun _ d₁ h => ?_
  refine looks_containedPaths.does_next h hR fun _ d₂ h => ?_
  refine looks_lookAtDirectories.does_next h hR fun identities d₃ h => ?_
  refine looks_regularFileState.does_next h hR fun fileState d₄ h => ?_
  refine looks_refuseIf.does_next h hR fun _ d₅ h => ?_
  refine looks_assertDirectoryModes.does_next h hR fun _ d₆ h => ?_
  refine (looks_ask rfl).onOs.does_next h hR fun _ d₇ h => ?_
  refine (looks_ask rfl).onOs.does_next h hR fun _ d₈ h => ?_
  refine looks_refuseIf.does_next h hR fun _ d₉ h => ?_
  refine looks_hashPath.does_next h hR fun _ d₁₀ h => ?_
  refine looks_refuseIf.does_next h hR fun _ d₁₁ h => ?_
  rw [does_bind]
  refine does_still rfl (hR d₁₁ h) ?_
  rw [does_bind]
  refine (does_validateReattestedPath fun d' h' => hR d' (h.trans h')).mono
    (fun _ l' d' hdone => ?_) fun _ _ h' => h'
  obtain ⟨rfl, rfl, bytes, hattests⟩ := hdone
  exact ⟨rfl, h, ⟨identities, _, rfl⟩, bytes, hattests.congr h.1.symm⟩

section Attesting

variable {identities : Identities} {i : ℕ}

lemma serves_attestObject
    (h : Attests setup d (descriptor.evidence c setup.now identities i) bytes) :
    Serves setup (attestObject setup c descriptor)
      (fun a l' d' => a = descriptor.evidence c setup.now identities i ∧ l' = l ∧ d' = d) l d := by
  have hcount : bytes.length = descriptor.byteCount := h.count
  have hsha : setup.sha256 bytes = descriptor.sha256 := h.sha256
  rw [attestObject, serves_bind]
  refine serves_ask rfl ?_
  rw [serves_bind]
  refine serves_containedPaths h.links ?_
  rw [serves_bind, lookAtDirectories, serves_bind]
  refine serves_directoryState h.root ?_
  rw [serves_bind]
  refine serves_directoryState h.objects ?_
  rw [serves_bind]
  refine serves_directoryState h.tenant ?_
  rw [serves_bind]
  refine serves_directoryState h.backup ?_
  rw [serves_bind]
  refine serves_directoryState h.directory ?_
  rw [serves_pure, serves_bind]
  refine serves_regularFileState h.file h.once ?_
  rw [serves_bind]
  refine serves_refuseIf (not_not.mpr hcount) ?_
  rw [serves_bind]
  refine serves_assertDirectoryModes ?_
  rw [serves_bind]
  refine serves_onOs (serves_ask rfl ?_)
  rw [serves_bind]
  refine serves_onOs (serves_ask rfl ?_)
  rw [serves_bind]
  refine serves_refuseIf (not_not.mpr h.names) ?_
  rw [serves_bind]
  refine serves_hashPath h.file h.once h.maximum ?_
  rw [serves_bind]
  refine serves_refuseIf (by simp [hcount, hsha]) ?_
  rw [serves_bind]
  refine serves_ask rfl ?_
  rw [serves_bind]
  refine (serves_validateReattestedPath h).mono fun _ l' d' hdone => ?_
  obtain ⟨rfl, rfl⟩ := hdone
  exact ⟨rfl, rfl, rfl⟩

end Attesting

/-- The descriptor passes the checks that do not look at the disk. -/
structure PersistedStoredObjectDescriptor.Suits (descriptor : PersistedStoredObjectDescriptor)
    (setup : Setup) (c : Context) : Prop where
  wellFormed : descriptor.wellFormed = true
  backup : descriptor.backupPublicId = c.backupPublicId
  tenant : descriptor.tenantPublicId = c.businessPublicId
  pos : 1 ≤ descriptor.byteCount
  le : descriptor.byteCount ≤ setup.maximumObjectBytes

lemma PersistedStoredObjectDescriptor.suits_iff :
    descriptor.Suits setup c ↔ ¬(descriptor.wellFormed = false ∨
      descriptor.backupPublicId ≠ c.backupPublicId ∨
      descriptor.tenantPublicId ≠ c.businessPublicId ∨ descriptor.byteCount < 1 ∨
      setup.maximumObjectBytes < descriptor.byteCount) := by
  simp only [not_or, not_not, Bool.not_eq_false, Nat.not_lt]
  exact ⟨fun h => ⟨h.1, h.2, h.3, h.4, h.5⟩, fun ⟨h₁, h₂, h₃, h₄, h₅⟩ => ⟨h₁, h₂, h₃, h₄, h₅⟩⟩

/-- The registry of re-attested objects, with one more. -/
abbrev Attested.add (attested : Attested) (a : ReattestedEvidence) : Attested :=
  Function.update attested (stateKey a.context a.result.reference) (some a)

lemma does_reattestStoredObject (hnone : attested (stateKey c descriptor.reference) = none)
    (hR : ∀ d', Same d d' → R l d') :
    Does setup (reattestStoredObject setup attested c descriptor)
      (fun x l' d' => l' = l ∧ Same d d' ∧ descriptor.Suits setup c ∧
        ∃ a, Found setup d c descriptor a ∧ x = (a.result, attested.add a)) R l d := by
  rw [reattestStoredObject, does_bind]
  refine does_refuseIf (fun _ => hR d (Same.refl d)) fun hsuits => ?_
  rw [hnone, does_bind]
  refine (does_attestObject hR).mono (fun a l' d' h => ?_) fun _ _ h => h
  obtain ⟨rfl, hsame, hfound⟩ := h
  obtain ⟨⟨identities, i, rfl⟩, -⟩ := id hfound
  exact ⟨rfl, hsame, PersistedStoredObjectDescriptor.suits_iff.mpr hsuits, _, hfound, rfl⟩

lemma answered_reattestStoredObject {s : Site}
    (hnone : attested (stateKey c descriptor.reference) = none)
    (hsuits : descriptor.Suits setup c) (hfound : Found setup s.disk c descriptor a) :
    answered setup (reattestStoredObject setup attested c descriptor) s =
      (.ok (a.result, attested.add a), s) := by
  obtain ⟨⟨identities, i, rfl⟩, bytes, hattests⟩ := hfound
  have hserves : Serves setup (reattestStoredObject setup attested c descriptor)
      (fun x l' d' => x = ((descriptor.evidence c setup.now identities i).result,
        attested.add (descriptor.evidence c setup.now identities i)) ∧
        l'.registry = s.registry ∧ d' = s.disk) { registry := s.registry } s.disk := by
    rw [reattestStoredObject, serves_bind]
    refine serves_refuseIf (PersistedStoredObjectDescriptor.suits_iff.mp hsuits) ?_
    rw [hnone, serves_bind]
    refine (serves_attestObject hattests).mono fun a l' d' h => ?_
    obtain ⟨rfl, rfl, rfl⟩ := h
    exact ⟨rfl, rfl, rfl⟩
  obtain ⟨x, l, d, ⟨rfl, hregistry, rfl⟩, hanswered⟩ := hserves.answered
  rw [hanswered, hregistry]

/-! ## Opening -/

variable {result : ReattestedStoredObjectResult}

lemma does_outcome {x : Code α} {Q : α → Locals → Disk → Prop}
    {P : Except Fault α → Locals → Disk → Prop} (hx : Does setup x Q R l d)
    (hok : ∀ a l d, Q a l d → P (.ok a) l d) (herror : ∀ f l d, R l d → P (.error f) l d) :
    Does setup (outcome x) P (fun _ _ => False) l d := by
  refine does_tryCatch (does_bind.mpr ?_)
  exact hx.mono (fun a l d h => hok a l d h) fun l d h f => herror f l d h

lemma serves_outcome {x : Code α} {Q : Except Fault α → Locals → Disk → Prop}
    (hx : Serves setup x (fun a l d => Q (.ok a) l d) l d) :
    Serves setup (outcome x) Q l d :=
  serves_tryCatch (serves_bind.mpr hx)

lemma does_attestedEvidence {Q : ReattestedEvidence → Locals → Disk → Prop} (hR : R l d)
    (hok : ∀ a, attested (stateKey c result.reference) = some a → a.context = c →
      a.result = result → Q a l d) : Does setup (attestedEvidence attested c result) Q R l d := by
  rw [attestedEvidence]
  cases hattested : attested (stateKey c result.reference) with
  | none => exact hR
  | some a =>
    rw [does_bind]
    refine does_refuseIf (fun _ => hR) fun hsame => ?_
    simp only [not_or, not_not] at hsame
    exact hok a hattested hsame.1 hsame.2

/-- The bytes that are read are those of the file of the object, and have its length and digest. -/
structure Reads (setup : Setup) (d : Disk) (c : Context) (result : ReattestedStoredObjectResult)
    (bytes : Bytes) : Prop where
  file : ∃ i, HasFile (setup.final c result.reference) i bytes d
  count : bytes.length = result.byteCount
  sha256 : setup.sha256 bytes = result.sha256

lemma Attests.reads (h : Attests setup d a bytes) : Reads setup d a.context a.result bytes :=
  ⟨⟨a.fileIdentity, h.file⟩, h.count, h.sha256⟩

lemma does_openReattestedObject {raises : Bytes → Option Fault} (hR : ∀ l' d', R l' d') :
    Does setup (openReattestedObject setup attested c result (reading raises))
      (fun bytes _ _ => Reads setup d c result bytes) R l d := by
  rw [openReattestedObject, does_bind, validateReattestedObject, does_bind]
  refine does_attestedEvidence (hR l d) fun a hattested hcontext hresult => ?_
  refine (does_validateReattestedPath fun d' _ => hR l d').mono (fun _ l' d' h => ?_)
    fun _ _ h => h
  obtain ⟨rfl, rfl, -⟩ := h
  rw [hattested, does_bind]
  refine (does_validateReattestedPath fun d'' _ => hR l' d'').mono (fun _ l'' d'' h => ?_)
    fun _ _ h => h
  obtain ⟨rfl, rfl, bytes, hattests⟩ := h
  have hread : Does setup
      (onOs .notFound (do
        let read ← ask (.readFile (setup.final c result.reference))
        refuseIf (read.1.identity ≠ a.fileIdentity ∨ read.1.links ≠ 1 ∨
          read.1.size ≠ result.byteCount) .notFound
        reading raises read.2))
      (fun b _ _ => b = bytes) (fun _ _ => True) l'' d'' := by
    refine does_onOs (does_bind.mpr ?_)
    refine does_readFile (fun _ _ => trivial) fun i b hfile => ?_
    have hthere : HasFile (setup.final a.context a.result.reference) a.fileIdentity bytes d'' :=
      hattests.file
    rw [hcontext, hresult] at hthere
    obtain ⟨-, rfl⟩ := Node.file.inj (Option.some.inj (hfile.symm.trans hthere))
    rw [does_bind]
    refine does_refuseIf (fun _ => trivial) fun _ => ?_
    rw [reading]
    cases raises b with
    | none => rfl
    | some f => trivial
  rw [does_bind]
  refine (does_outcome (P := fun x _ _ => ∀ b, x = .ok b → b = bytes) hread
    (fun a l d h b hb => by cases hb; exact h) fun f l d _ b hb => by cases hb).mono
    (fun given l₁ d₁ hgiven => ?_) fun _ _ h => h.elim
  rw [does_bind]
  refine does_any.mono (fun closed l₂ d₂ _ => ?_) fun l' d' _ => hR l' d'
  rw [does_bind]
  refine does_any.mono (fun checked l₃ d₃ _ => ?_) fun l' d' _ => hR l' d'
  cases given with
  | error f => exact hR l₃ d₃
  | ok b =>
    obtain rfl := hgiven b rfl
    have hreads := hattests.reads
    rw [hcontext, hresult] at hreads
    cases checked with
    | error f =>
      dsimp only
      split
      · exact hR l₃ d₃
      · exact hR l₃ d₃
    | ok _ =>
      cases closed with
      | error f =>
        dsimp only
        split
        · exact hR l₃ d₃
        · exact hR l₃ d₃
      | ok _ => exact hreads

lemma serves_attestedEvidence
    (hattested : attested (stateKey c result.reference) = some a) (hcontext : a.context = c)
    (hresult : a.result = result) {Q : ReattestedEvidence → Locals → Disk → Prop} (h : Q a l d) :
    Serves setup (attestedEvidence attested c result) Q l d := by
  rw [attestedEvidence, hattested, serves_bind]
  exact serves_refuseIf (by simp [hcontext, hresult]) h

/-- A re-attested object is opened. -/
lemma answered_openReattestedObject {s : Site} (hattests : Attests setup s.disk a bytes)
    (hattested : attested (stateKey a.context a.result.reference) = some a) :
    answered setup (openReattestedObject setup attested a.context a.result pure) s =
      (.ok bytes, s) := by
  have hread : Serves setup
      (onOs .notFound (do
        let (opened, bytes) ← ask (.readFile (setup.final a.context a.result.reference))
        refuseIf (opened.identity ≠ a.fileIdentity ∨ opened.links ≠ 1 ∨
          opened.size ≠ a.result.byteCount) .notFound
        pure bytes))
      (fun b l' d' => b = bytes ∧ l' = { registry := s.registry } ∧ d' = s.disk)
      { registry := s.registry } s.disk := by
    refine serves_onOs (serves_bind.mpr (serves_ask (exec_readFile hattests.file hattests.once) ?_))
    rw [serves_bind]
    exact serves_refuseIf (by simp [hattests.count]) ⟨rfl, rfl, rfl⟩
  have hserves : Serves setup (openReattestedObject setup attested a.context a.result pure)
      (fun b l' d' => b = bytes ∧ l'.registry = s.registry ∧ d' = s.disk)
      { registry := s.registry } s.disk := by
    rw [openReattestedObject, serves_bind, validateReattestedObject, serves_bind]
    refine serves_attestedEvidence hattested rfl rfl ?_
    refine (serves_validateReattestedPath hattests).mono fun _ l' d' h => ?_
    obtain ⟨rfl, rfl⟩ := h
    rw [hattested, serves_bind]
    refine (serves_validateReattestedPath hattests).mono fun _ l' d' h => ?_
    obtain ⟨rfl, rfl⟩ := h
    rw [serves_bind]
    refine serves_outcome (hread.mono fun b l' d' h => ?_)
    obtain ⟨rfl, rfl, rfl⟩ := h
    rw [serves_bind]
    refine serves_outcome (serves_ask rfl ?_)
    rw [serves_bind]
    refine serves_outcome ?_
    rw [serves_bind]
    refine serves_directoryState hattests.directory ?_
    rw [serves_bind]
    refine serves_refuseIf (not_not.mpr rfl) ?_
    refine (serves_validateReattestedPath hattests).mono fun _ l' d' h => ?_
    obtain ⟨rfl, rfl⟩ := h
    exact ⟨rfl, rfl, rfl⟩
  obtain ⟨b, l, d, ⟨rfl, hregistry, rfl⟩, hanswered⟩ := hserves.answered
  rw [hanswered, hregistry]

/-! ## Restores -/

lemma Intact.suits (h : Intact setup d evidence) (hsized : 0 < evidence.source.encryptedByteCount) :
    (evidence.result.persisted c).Suits setup c := by
  obtain ⟨i, bytes, -, -, -, hcount, hsource, -, -, hmaximum, -⟩ := h.file
  refine ⟨rfl, rfl, rfl, ?_, ?_⟩
  · show 1 ≤ evidence.result.byteCount
    rw [← hcount, hsource]
    exact hsized
  · show evidence.result.byteCount ≤ _
    rw [← hcount]
    exact hmaximum

/-- A new re-attestation of the object and its opening give the bytes when all calls are answered,
and no other bytes however the calls fail. -/
structure Recovers (setup : Setup) (v : Provider) (c : Context) (result : StoredResult)
    (bytes : Bytes) : Prop where
  answers : ∃ answer attested,
    answered setup (reattestStoredObject setup v.attested c (result.persisted c)) v.site =
      (.ok (answer, attested), v.site) ∧
    answered setup (openReattestedObject setup attested c answer pure) v.site =
      (.ok bytes, v.site)
  only : ∀ answer attested w,
    Calls setup (reattestStoredObject setup v.attested c (result.persisted c)) v.site
      (.ok (answer, attested)) w →
    ∀ raises bytes' y,
      Calls setup (openReattestedObject setup attested c answer (reading raises)) w
        (.ok bytes') y → bytes' = bytes

lemma Present.recovers {v : Provider} {i : ℕ} (h : Present setup evidence v.site)
    (hsized : 0 < evidence.source.encryptedByteCount)
    (hfile : HasFile (evidence.final setup) i bytes v.site.disk)
    (hsame : evidence.context.SameBackup c)
    (hnone : v.attested (stateKey c evidence.result.reference) = none) :
    Recovers setup v c evidence.result bytes := by
  have hattests : Attests setup v.site.disk (evidence.reattested setup c i) bytes :=
    h.intact.attests hfile hsame
  have hfound : Found setup v.site.disk c (evidence.result.persisted c)
      (evidence.reattested setup c i) := ⟨⟨_, _, rfl⟩, _, hattests⟩
  have hadded : (v.attested.add (evidence.reattested setup c i))
      (stateKey (evidence.reattested setup c i).context
        (evidence.reattested setup c i).result.reference) =
      some (evidence.reattested setup c i) := Function.update_self ..
  have hreattested := answered_reattestStoredObject hnone (h.intact.suits hsized) hfound
  have hopened := answered_openReattestedObject hattests hadded
  refine ⟨⟨_, _, hreattested, hopened⟩, fun answer attested w hreattest raises bytes' y hopen => ?_⟩
  obtain ⟨l, -, -, hdisk, -, a, ⟨⟨identities, k, rfl⟩, -⟩, hanswer⟩ := hreattest.of_does
    (does_reattestStoredObject (R := fun _ _ => True) hnone fun _ _ => trivial)
  obtain ⟨rfl, rfl⟩ := Prod.mk.inj hanswer
  obtain ⟨l', -, hreads⟩ := hopen.of_does
    (does_openReattestedObject (R := fun _ _ => True) fun _ _ => trivial)
  obtain ⟨m, hread⟩ := hreads.file
  have hpath : setup.final c evidence.result.reference = evidence.final setup := hsame.final_eq
  have hread' : HasFile (setup.final c evidence.result.reference) m bytes' w.disk := hread
  rw [hpath, HasFile, hdisk.1] at hread'
  exact (Node.file.inj (Option.some.inj (hread'.symm.trans hfile))).2

/-- An object that a store has returned can be recovered until its deletion is called. -/
lemma Kept.survives {t : Provider} {x : Site} (h : Kept setup t.site) {result : StoredResult}
    (hstore : Calls setup (storeEncryptedArtifact setup r) t.site (.ok (.returned result)) x) :
    ∃ chunks, setup.artifact r.encryptedArtifact.reference = some chunks ∧
      ∀ later v c, Performs setup later ⟨x, t.attested⟩ v →
        (∀ op ∈ later, op.Spares (stateKey r.context result.reference)) →
        r.context.SameBackup c → v.attested (stateKey c result.reference) = none →
        Recovers setup v c result (readBytes chunks) := by
  obtain ⟨e, hcontext, hsource, rfl, hstored, hintact, -⟩ := h.returned hstore
  have hafter : Kept setup (Provider.site ⟨x, t.attested⟩) := h.store hstore
  obtain ⟨chunks, i, hartifact, hfile⟩ := hafter.content _ e hstored hintact.isSome
  refine ⟨chunks, hsource ▸ hartifact, fun later v c hlater hspares hsame hnone => ?_⟩
  rw [← hcontext] at hspares hsame
  obtain ⟨hpresent, hstays⟩ := Present.performs (hafter.present hstored hintact.isSome) hafter
    hlater hspares
  exact hpresent.recovers (hafter.sized _ e hstored) (hstays.file.trans hfile) hsame hnone

/-- An object that a store has returned outlives the process: until its deletion is called, any
later operation on the same backup re-attests it and is given the bytes of the artifact, and however
its calls fail it is given no others. -/
theorem stored_objects_survive {s t : Provider} {x : Site} (before : List Operation)
    (hempty : s.site.registry = {}) (hvalid : s.site.disk.Valid)
    (hbefore : Performs setup before s t) {result : StoredResult}
    (hstore : Calls setup (storeEncryptedArtifact setup r) t.site (.ok (.returned result)) x) :
    ∃ chunks, setup.artifact r.encryptedArtifact.reference = some chunks ∧
      ∀ later v c, Performs setup later ⟨x, t.attested⟩ v →
        (∀ op ∈ later, op.Spares (stateKey r.context result.reference)) →
        r.context.SameBackup c → v.attested (stateKey c result.reference) = none →
        Recovers setup v c result (readBytes chunks) :=
  ((kept_empty hempty hvalid).performs hbefore).survives hstore

/-- The shelf is started again, and its object is there for a restore. -/
theorem stored_objects_survive_shelf : ∃ chunks, shelf.artifact 1 = some chunks ∧
    Recovers shelf ⟨⟨{}, oneStored.disk⟩, fun _ => none⟩ ⟨9, "shop", "backup"⟩ firstResult
      (readBytes chunks) := by
  have hbefore : Performs shelf [] emptySite.fresh emptySite.fresh := rfl
  obtain ⟨chunks, hartifact, hlater⟩ :=
    stored_objects_survive [] rfl emptySite_valid hbefore calls_first
  have hrestart : Performs shelf [.restart] oneStored.fresh ⟨⟨{}, oneStored.disk⟩, fun _ => none⟩ :=
    ⟨_, rfl, rfl⟩
  have hspares : ∀ op ∈ [Operation.restart],
      op.Spares (stateKey vaultRequest.context firstResult.reference) := by
    simp only [List.forall_mem_cons]
    exact ⟨trivial, fun _ h => (List.not_mem_nil h).elim⟩
  have hrecovers := hlater _ _ ⟨9, "shop", "backup"⟩ hrestart hspares ⟨rfl, rfl⟩ rfl
  exact ⟨chunks, hartifact, hrecovers⟩

/-- Whatever has become of the disk: a new re-attestation can succeed exactly if the object of the
descriptor is there whole, and what is read of a re-attested object has its length and its digest,
however the calls fail. -/
theorem recovered_objects_are_whole {s : Site} :
    (attested (stateKey c descriptor.reference) = none →
      ((∃ x t, Calls setup (reattestStoredObject setup attested c descriptor) s (.ok x) t) ↔
        descriptor.Suits setup c ∧ ∃ a, Found setup s.disk c descriptor a)) ∧
      ∀ result raises bytes t,
        Calls setup (openReattestedObject setup attested c result (reading raises)) s (.ok bytes)
          t → Reads setup s.disk c result bytes := by
  refine ⟨fun hnone => ⟨?_, ?_⟩, fun result raises bytes t hopen => ?_⟩
  · rintro ⟨x, t, hcall⟩
    obtain ⟨l, -, -, -, hsuits, a, hfound, -⟩ := hcall.of_does
      (does_reattestStoredObject (R := fun _ _ => True) hnone fun _ _ => trivial)
    exact ⟨hsuits, a, hfound⟩
  · rintro ⟨hsuits, a, hfound⟩
    have hcall := calls_of_answered setup (reattestStoredObject setup attested c descriptor) s
    rw [answered_reattestStoredObject hnone hsuits hfound] at hcall
    exact ⟨_, _, hcall⟩
  · obtain ⟨l, -, hreads⟩ := hopen.of_does
      (does_openReattestedObject (R := fun _ _ => True) fun _ _ => trivial)
    exact hreads

/-- The object of the shelf is whole, and what is read of it is what was attested. -/
theorem recovered_objects_are_whole_shelf :
    ∃ a, Found shelf oneStored.disk vaultRequest.context (firstResult.persisted
      vaultRequest.context) a := by
  have hcall := calls_of_answered shelf (reattestStoredObject shelf (fun _ => none)
    vaultRequest.context (firstResult.persisted vaultRequest.context)) oneStored
  have hanswer : (answered shelf (reattestStoredObject shelf (fun _ => none)
      vaultRequest.context (firstResult.persisted vaultRequest.context)) oneStored).1.isOk =
      true := by decide +kernel
  revert hcall hanswer
  generalize answered shelf (reattestStoredObject shelf (fun _ => none) vaultRequest.context
    (firstResult.persisted vaultRequest.context)) oneStored = ended
  obtain ⟨x, t⟩ := ended
  intro hcall hanswer
  cases x with
  | error f => exact nomatch hanswer
  | ok x => exact ((recovered_objects_are_whole.1 rfl).mp ⟨x, t, hcall⟩).2

end NexaPos.Backups.DurableStorage
