import NexaPos.Properties.ObjectDeletion

/-!
# Objects beside the one that is stored

A call of the store, however it ends, works in the directories that objects share and in a directory
of its own.  Neither touches what an intact object consists of: its directories, its name and its
file.  So a call leaves the registry as it was, or enters one object in a directory that no other
has, and every object that was intact stays, with the bytes that it had.
-/

namespace NexaPos.Backups.DurableStorage

open FileTree Routine

variable {setup : Setup} {α β : Type} {l : Locals} {d d' : Disk} {p : Path} {e : StorageError}
  {Q : α → Locals → Disk → Prop} {R : Locals → Disk → Prop} {c : Context} {reference : String}
  {r : Request} {g : Registry} {evidence : Evidence} {t t' own : Tree}

/-! ## What leaves an object intact -/

/-- The paths from the root of the provider to the file of an object. -/
def Evidence.chain (evidence : Evidence) (setup : Setup) : List Path :=
  [setup.root, setup.objects, setup.tenant evidence.context, setup.backup evidence.context,
    evidence.directory setup, evidence.final setup]

/-- An object that is intact after a step, with the file that it had. -/
structure Stays (setup : Setup) (evidence : Evidence) (d d' : Disk) : Prop where
  intact : Intact setup d' evidence
  file : find d'.tree (evidence.final setup) = find d.tree (evidence.final setup)

lemma Stays.trans {d'' : Disk} (h : Stays setup evidence d d') (h' : Stays setup evidence d' d'') :
    Stays setup evidence d d'' :=
  ⟨h'.intact, h'.file.trans h.file⟩

lemma Intact.same (h : Intact setup d evidence) (htree : d'.tree = d.tree) :
    Stays setup evidence d d' :=
  ⟨h.congr htree, by rw [htree]⟩

/-- An object stays as long as its paths, its directory and its file are what they were. -/
lemma Intact.frame (h : Intact setup d evidence)
    (hfind : ∀ p ∈ evidence.chain setup, ∀ n, find d.tree p = some n → find d'.tree p = some n)
    (hother : ∀ x ∈ d'.tree, x.2 = .other → x.1 <+: evidence.final setup → x ∈ d.tree)
    (hnames : childNames d'.tree (evidence.directory setup) =
      childNames d.tree (evidence.directory setup))
    (hlinks : ∀ i, evidence.fileIdentity = some i →
      FileTree.links d'.tree i = FileTree.links d.tree i) : Stays setup evidence d d' := by
  simp only [Evidence.chain, List.forall_mem_cons] at hfind
  obtain ⟨h₁, h₂, h₃, h₄, h₅, h₆, -⟩ := hfind
  obtain ⟨i, bytes, hfile, hfound, honce, hrest⟩ := h.file
  refine ⟨⟨h₁ _ h.root, h₂ _ h.objects, h₃ _ h.tenant, h₄ _ h.backup, h₅ _ h.directory,
    fun p hp => ?_, hnames ▸ h.names, ?_⟩, (h₆ _ hfound).trans hfound.symm⟩
  · have hfinal : p <+: evidence.final setup := by
      have hbackup : setup.backup evidence.context <+: evidence.directory setup :=
        List.prefix_append _ _
      have htenant : setup.tenant evidence.context <+: setup.backup evidence.context :=
        List.prefix_append _ _
      have hobjects : setup.objects <+: setup.tenant evidence.context := List.prefix_append _ _
      have hdirectory : evidence.directory setup <+: evidence.final setup :=
        List.prefix_append _ _
      simp only [List.mem_cons, List.not_mem_nil, or_false] at hp
      rcases hp with rfl | rfl | rfl | rfl | rfl
      · exact hobjects.trans (htenant.trans (hbackup.trans hdirectory))
      · exact htenant.trans (hbackup.trans hdirectory)
      · exact hbackup.trans hdirectory
      · exact hdirectory
      · exact List.prefix_refl _
    have hlink := h.links p hp
    rw [Disk.passesLink, List.any_eq_false] at hlink ⊢
    intro x hx hpasses
    simp only [Bool.and_eq_true, beq_iff_eq, List.isPrefixOf_iff_prefix] at hpasses
    refine hlink x (hother x hx hpasses.1 (hpasses.2.trans hfinal)) ?_
    simpa using hpasses
  · exact ⟨i, bytes, hfile, h₆ _ hfound, (hlinks i hfile).trans honce, hrest⟩

/-- Entries that are added elsewhere. -/
lemma Intact.grown (h : Intact setup d evidence) (htree : d'.tree = d.tree ++ own)
    (hown : ∀ x ∈ own, x.1.dropLast ≠ evidence.directory setup ∧
      (x.2 = .other → ¬ x.1 <+: evidence.final setup) ∧
      ∀ i, evidence.fileIdentity = some i → x.2.isFile i = false) : Stays setup evidence d d' := by
  refine h.frame (fun p _ n hn => ?_) (fun x hx hother hpath => ?_) ?_ fun i hi => ?_
  · rw [htree]
    exact find_append_left hn
  · rw [htree] at hx
    exact (List.mem_append.mp hx).resolve_right fun hx => (hown x hx).2.1 hother hpath
  · have hnone : childNames own (evidence.directory setup) = [] :=
      List.filterMap_eq_nil_iff.mpr fun x hx => if_neg fun hparent => (hown x hx).1 hparent.2
    rw [childNames] at hnone ⊢
    rw [htree, List.filterMap_append, hnone, List.append_nil, childNames]
  · have hnone : FileTree.links own i = 0 :=
      List.countP_eq_zero.mpr fun x hx hfile => by
        rw [(hown x hx).2.2 i hi] at hfile
        cases hfile
    rw [FileTree.links] at hnone ⊢
    rw [htree, List.countP_append, hnone, Nat.add_zero, FileTree.links]

/-- The only path of the file of an object. -/
lemma Intact.path_eq (h : Intact setup d evidence) {i : ℕ} (hi : evidence.fileIdentity = some i)
    {x : Path × Node} (hx : x ∈ d.tree) (hfile : x.2.isFile i = true) :
    x.1 = evidence.final setup := by
  obtain ⟨j, bytes, hj, hfound, honce, -⟩ := h.file
  obtain rfl := Option.some.inj (hi.symm.trans hj)
  rw [FileTree.links, List.countP_eq_length_filter, List.length_eq_one_iff] at honce
  obtain ⟨y, hy⟩ := honce
  have hmine : x ∈ d.tree.filter fun x => x.2.isFile i := List.mem_filter.mpr ⟨hx, hfile⟩
  have hfinal : (evidence.final setup, Node.file i bytes) ∈ d.tree.filter fun x => x.2.isFile i :=
    List.mem_filter.mpr ⟨mem_of_find hfound, by simp [Node.isFile]⟩
  rw [hy, List.mem_singleton] at hmine hfinal
  rw [hmine, ← hfinal]

/-- An entry that is removed elsewhere. -/
lemma Intact.removed (h : Intact setup d evidence) (htree : d'.tree = remove d.tree p)
    (hp : p ∉ evidence.chain setup) (hmem : p ∈ paths d.tree) : Stays setup evidence d d' := by
  have hfinal : p ≠ evidence.final setup := fun heq => hp (by simp [heq, Evidence.chain])
  have hchild : p = [] ∨ p.dropLast ≠ evidence.directory setup := by
    refine or_iff_not_imp_left.mpr fun hne hparent => hfinal ?_
    obtain ⟨x, hx, rfl⟩ := List.mem_map.mp hmem
    have hname : x.1.getLast hne ∈ (childNames d.tree (evidence.directory setup)).dedup := by
      refine List.mem_dedup.mpr (mem_childNames.mpr ⟨x.2, ?_⟩)
      rw [← hparent, List.dropLast_append_getLast hne]
      exact hx
    rw [h.names, List.mem_singleton] at hname
    rw [← List.dropLast_append_getLast hne, hparent, hname]
    rfl
  refine h.frame (fun q hq n hn => ?_) (fun x hx _ _ => ?_) ?_ fun i hi => ?_
  · rw [htree, find_remove_of_ne fun heq : q = p => hp (heq ▸ hq)]
    exact hn
  · rw [htree] at hx
    exact (mem_remove.mp hx).1
  · rw [htree, childNames, remove, List.filterMap_filter, childNames]
    refine List.filterMap_congr fun x _ => ?_
    by_cases hx : x.1 = p
    · rcases hchild with hroot | hchild
      · simp [hx, hroot]
      · simp [hx, hchild]
    · simp [hx]
  · rw [htree, FileTree.links, remove, List.countP_filter, FileTree.links]
    refine List.countP_congr fun x hx => ?_
    simp only [bne_iff_ne, ne_eq, Bool.and_eq_true, and_iff_left_iff_imp]
    exact fun hfile heq => hfinal (heq ▸ h.path_eq hi hx hfile)

/-! ### The paths of other objects -/

lemma length_backup : (setup.backup c).length = setup.root.length + 3 := by
  simp [Setup.backup, Setup.tenant, Setup.objects]

lemma length_directory : (setup.directory c reference).length = setup.root.length + 4 := by
  simp [Setup.directory, length_backup]

lemma length_le_of_mem_chain (hp : p ∈ evidence.chain setup) :
    p = evidence.final setup ∨ p = evidence.directory setup ∨
      p.length ≤ setup.root.length + 3 := by
  simp only [Evidence.chain, List.mem_cons, List.not_mem_nil, or_false] at hp
  rcases hp with rfl | rfl | rfl | rfl | h | h
  · exact .inr (.inr (by omega))
  · exact .inr (.inr (by simp [Setup.objects]))
  · exact .inr (.inr (by simp [Setup.tenant, Setup.objects]))
  · exact .inr (.inr (Nat.le_of_eq length_backup))
  · exact .inr (.inl h)
  · exact .inl h

/-- Directories that lead to the objects of a backup. -/
lemma Intact.shared (h : Intact setup d evidence) (hshared : Shared setup c d.tree d'.tree) :
    Stays setup evidence d d' := by
  obtain ⟨made, htree, hmade⟩ := hshared
  refine h.grown htree fun x hx => ?_
  obtain ⟨hpath, hdirectory⟩ := hmade x hx
  refine ⟨fun hparent => ?_, fun hother => ?_, fun i _ => ?_⟩
  · have hle := hpath.length_le
    have hlength := congrArg List.length hparent
    rw [List.length_dropLast, length_directory] at hlength
    rw [length_backup] at hle
    omega
  · rw [hother] at hdirectory
    exact nomatch hdirectory
  · obtain ⟨q, n⟩ := x
    cases n with
    | directory j => rfl
    | file j bytes => exact nomatch hdirectory
    | other => exact nomatch hdirectory

/-- What is made in the directory of another object. -/
lemma Intact.confined {base : Disk} (h : Intact setup base evidence)
    (hconfined : Confined base (setup.directory c reference) d) :
    Stays setup evidence base d := by
  obtain ⟨own, htree, hown⟩ := hconfined.own
  have hother : setup.directory c reference ≠ evidence.directory setup := fun heq =>
    hconfined.not_mem_base (List.prefix_refl _) (heq ▸ mem_paths_of_find h.directory)
  refine h.grown htree fun x hx => ?_
  obtain ⟨hpath, hinode⟩ := hown x hx
  refine ⟨fun hparent => hother ?_, fun _ hfinal => hother ?_, fun i hi => ?_⟩
  · rw [← hparent]
    have hlength : (setup.directory c reference).length = x.1.dropLast.length := by
      rw [hparent, length_directory, length_directory]
    exact (List.prefix_of_prefix_length_le hpath (List.dropLast_prefix _)
      (Nat.le_of_eq hlength)).eq_of_length hlength
  · exact (List.prefix_of_prefix_length_le (hpath.trans hfinal) (List.prefix_append _ _)
      (by simp [length_directory])).eq_of_length (by simp [length_directory])
  · cases hfile : x.2.isFile i with
    | false => rfl
    | true =>
      obtain ⟨j, bytes, hj, hfound, -⟩ := h.file
      obtain rfl := Option.some.inj (hi.symm.trans hj)
      exact absurd (hconfined.older _ (mem_of_find hfound) i (by simp [Node.isFile]))
        (Nat.not_lt.mpr (hinode i hfile))

/-- The directory of another object is removed, if it is empty. -/
lemma Intact.rmdir (h : Intact setup d evidence)
    (htree : removeDirectory d.tree (setup.directory c reference) = some d'.tree) :
    Stays setup evidence d d' := by
  have hremoved := removeDirectory_eq_some htree
  rw [removeDirectory] at htree
  split at htree
  · rename_i i hfind
    have hempty := (Option.ite_none_right_eq_some.mp htree).1
    refine h.removed hremoved (fun hp => ?_) (mem_paths_of_find hfind)
    obtain ⟨j, bytes, -, hfinal, -⟩ := h.file
    rcases length_le_of_mem_chain hp with heq | heq | hle
    · rw [heq] at hfind
      cases hfind.symm.trans hfinal
    · rw [heq] at hempty
      have hchild := List.all_eq_true.mp hempty _ (mem_of_find hfinal)
      simp [Setup.final] at hchild
    · rw [length_directory] at hle
      omega
  · cases htree

/-- The file of an object in another directory is removed. -/
lemma Intact.unlink {other : Evidence} (h : Intact setup d evidence)
    (hother : other.directory setup ≠ evidence.directory setup)
    (htree : FileTree.unlink d.tree (other.final setup) = some d'.tree) :
    Stays setup evidence d d' := by
  have hremoved := unlink_eq_some htree
  have hmem : other.final setup ∈ paths d.tree := by
    rw [FileTree.unlink] at htree
    split at htree
    · exact mem_paths_of_find (by assumption)
    · exact mem_paths_of_find (by assumption)
    · cases htree
  have hlength : (other.final setup).length = setup.root.length + 5 := by
    simp [Setup.final, length_directory]
  refine h.removed hremoved (fun hp => ?_) hmem
  rcases length_le_of_mem_chain hp with heq | heq | hle
  · exact hother (List.append_cancel_right heq)
  · rw [heq, length_directory] at hlength
    omega
  · omega

/-! ## The bytes of an object -/

/-- What is copied of the reads of an artifact: all that comes before the first empty read. -/
def readBytes (chunks : List Bytes) : Bytes := (chunks.takeWhile (!·.isEmpty)).flatten

/-- The path has a file with these bytes. -/
def HasFile (p : Path) (i : ℕ) (bytes : Bytes) (d : Disk) : Prop :=
  find d.tree p = some (.file i bytes)

lemma HasFile.congr {i : ℕ} {bytes : Bytes} (h : HasFile p i bytes d) (hsame : Same d d') :
    HasFile p i bytes d' := by
  rw [HasFile, hsame.1]
  exact h

lemma does_write {i : ℕ} {bytes chunk : Bytes} (h : HasFile p i bytes d) :
    Does setup (ask (.write p chunk)) (fun _ _ d' => HasFile p i (bytes ++ chunk) d')
      (fun _ _ => True) l d := by
  have hfind : find d.tree p = some (.file i bytes) := h
  refine does_ask trivial trivial fun a d' hexec => ?_
  simp only [exec, hfind] at hexec
  obtain ⟨-, rfl⟩ := Prod.mk.inj hexec
  show find (append d.tree i chunk) p = _
  rw [find_fileAppend, hfind]
  simp [Node.append]

lemma copied_copyChunks {i : ℕ} {chunks : List Bytes} {copied : Bytes}
    (h : HasFile p i copied d) :
    Does setup (copyChunks setup p chunks copied)
      (fun bytes _ d' => bytes = copied ++ readBytes chunks ∧ HasFile p i bytes d')
      (fun _ _ => True) l d := by
  induction chunks generalizing copied l d with
  | nil =>
    refine (looks_ask rfl).does_bind (fun _ _ => trivial) fun _ d₁ h₁ => ?_
    refine (looks_ask rfl).does_bind (fun _ _ => trivial) fun _ d₂ h₂ => ?_
    exact ⟨(List.append_nil copied).symm, h.congr (h₁.trans h₂)⟩
  | cons chunk chunks ih =>
    refine (looks_ask rfl).does_bind (fun _ _ => trivial) fun _ d₁ h₁ => ?_
    refine (looks_ask rfl).does_bind (fun _ _ => trivial) fun _ d₂ h₂ => ?_
    refine looks_refuseIf.does_bind (fun _ _ => trivial) fun _ d₃ h₃ => ?_
    replace h := h.congr ((h₁.trans h₂).trans h₃)
    split
    · rename_i hempty
      refine ⟨?_, h⟩
      simp [readBytes, hempty]
    · rename_i hchunk
      refine looks_refuseIf.does_bind (fun _ _ => trivial) fun _ d₄ h₄ => ?_
      rw [does_bind]
      refine does_onOs ((does_write (h.congr h₄)).mono (fun _ l₅ d₅ h₅ => ?_) fun _ _ h' => h')
      refine (ih h₅).mono (fun bytes _ d' h' => ⟨?_, h'.2⟩) fun _ _ h' => h'
      rw [h'.1, List.append_assoc, readBytes, readBytes, List.takeWhile_cons_of_pos,
        List.flatten_cons]
      simpa using hchunk

/-- The part file holds what was read of the artifact. -/
lemma copied_writePart {part : Path} :
    Does setup (writePart setup r part)
      (fun identity _ d' => ∃ chunks,
        setup.artifact r.encryptedArtifact.reference = some chunks ∧
          HasFile part identity (readBytes chunks) d')
      (fun _ _ => True) l d := by
  rw [writePart]
  refine (looks_ask rfl).onOs.does_bind (fun _ _ => trivial) fun _ d₁ h₁ => ?_
  rw [does_bind, does_modify, does_bind]
  refine does_ask trivial trivial fun _ d₂ hcreate => ?_
  have hmade : HasFile part d₁.nextInode [] d₂ := by
    simp only [exec, createFile, Disk.onNew] at hcreate
    split at hcreate
    · rename_i t ht
      obtain ⟨-, rfl⟩ := Prod.mk.inj hcreate
      obtain ⟨rfl, hfree, -⟩ := insert_eq_some ht
      show find (d₁.tree ++ _) part = _
      rw [find_append_right (find_eq_none.mpr hfree)]
      simp [find]
    · cases (Prod.mk.inj hcreate).1
  rw [does_bind, does_modify, does_bind]
  refine does_ask trivial trivial fun opened d₃ hstat => ?_
  have hfind : find d₂.tree part = some (.file d₁.nextInode []) := hmade
  simp only [exec, Disk.look, hfind] at hstat
  obtain ⟨hopened, rfl⟩ := Prod.mk.inj hstat
  obtain rfl := Except.ok.inj hopened
  refine looks_refuseIf.does_bind (fun _ _ => trivial) fun _ d₄ h₄ => ?_
  rw [does_bind, does_modify]
  refine (looks_ask rfl).onOs.does_bind (fun _ _ => trivial) fun _ d₅ h₅ => ?_
  have hstart := hmade.congr (h₄.trans h₅)
  have hcopied : Does setup
      (tryCatch
        (do
          let chunks ← ask (.openArtifact r.encryptedArtifact.reference)
          Routine.ensure (copyChunks setup part chunks []) (ask .closeArtifact))
        fun f => if f = .artifact then fail .validation else throw f)
      (fun copied _ d' => ∃ chunks,
        setup.artifact r.encryptedArtifact.reference = some chunks ∧ copied = readBytes chunks ∧
          HasFile part d₁.nextInode copied d')
      (fun _ _ => True) { l with partPath := some part, descriptor := true,
                                 fileIdentity := some d₁.nextInode } d₅ := by
    refine does_tryCatch ?_
    rw [does_bind]
    have hcaught : ∀ l' d', ∀ f : Fault, Does setup
        (if f = .artifact then (fail .validation : Code Bytes) else throw f)
        (fun copied _ d' => ∃ chunks,
          setup.artifact r.encryptedArtifact.reference = some chunks ∧
            copied = readBytes chunks ∧ HasFile part d₁.nextInode copied d')
        (fun _ _ => True) l' d' := by
      intro l' d' f
      split <;> trivial
    refine does_ask (hcaught _ _) (hcaught _ _) fun chunks d₆ hopen => ?_
    simp only [exec] at hopen
    split at hopen
    · rename_i chunks' hartifact
      obtain ⟨hchunks, rfl⟩ := Prod.mk.inj hopen
      obtain rfl := Except.ok.inj hchunks
      refine meets_ensure.mpr ((copied_copyChunks hstart).mono (fun bytes l₇ d₇ h₇ => ?_)
        fun l₇ d₇ _ => ?_)
      · refine ((looks_ask rfl) l₇ d₇).mono (fun _ l₈ d₈ h₈ => ?_) fun l₈ d₈ _ => hcaught l₈ d₈
        exact ⟨chunks', hartifact, by simpa using h₇.1, h₇.2.congr h₈.2⟩
      · exact ((looks_ask rfl) l₇ d₇).mono (fun _ l₈ d₈ _ => hcaught l₈ d₈)
          fun l₈ d₈ _ => hcaught l₈ d₈
    · cases (Prod.mk.inj hopen).1
  rw [does_bind]
  refine hcopied.mono (fun copied l₆ d₆ h₆ => ?_) fun _ _ h' => h'
  obtain ⟨chunks, hartifact, rfl, hfile⟩ := h₆
  refine looks_refuseIf.does_bind (fun _ _ => trivial) fun _ d₇ h₇ => ?_
  refine (looks_ask rfl).does_bind (fun _ _ => trivial) fun _ d₈ h₈ => ?_
  refine (looks_ask rfl).does_bind (fun _ _ => trivial) fun _ d₉ h₉ => ?_
  rw [does_bind, does_modify]
  refine looks_regularFileState.does_bind (fun _ _ => trivial) fun _ d₁₀ h₁₀ => ?_
  refine looks_refuseIf.does_bind (fun _ _ => trivial) fun _ d₁₁ h₁₁ => ?_
  exact ⟨chunks, hartifact,
    hfile.congr ((h₇.trans (h₈.trans (h₉.trans h₁₀))).trans h₁₁)⟩

/-- The published object has what the part file had. -/
lemma copied_publishPart {plan : Plan} {part : Path} {identity i : ℕ} {bytes : Bytes}
    (h : HasFile part i bytes d) :
    Does setup (publishPart setup r plan part identity)
      (fun _ _ d' => HasFile (setup.final r.context plan.reference) i bytes d')
      (fun _ _ => True) l d := by
  rw [publishPart]
  refine (looks_ask rfl).does_bind (fun _ _ => trivial) fun _ d₁ h₁ => ?_
  have hfind : find d₁.tree part = some (.file i bytes) := h.congr h₁
  rw [does_bind]
  refine does_ask trivial trivial fun _ d₂ hlink => ?_
  simp only [exec, FileTree.link, hfind, Disk.onTree] at hlink
  split at hlink
  · rename_i tree ht
    obtain ⟨-, rfl⟩ := Prod.mk.inj hlink
    obtain ⟨rfl, hfree, -⟩ := insert_eq_some ht
    have hne : setup.final r.context plan.reference ≠ part := fun heq =>
      hfree (heq ▸ mem_paths_of_mem (mem_of_find hfind))
    have hfinal : find (d₁.tree ++ [(setup.final r.context plan.reference, .file i bytes)])
        (setup.final r.context plan.reference) = some (.file i bytes) := by
      rw [find_append_right (find_eq_none.mpr hfree)]
      simp [find]
    refine looks_checkLinked.does_bind (fun _ _ => trivial) fun _ d₃ h₃ => ?_
    refine (looks_ask rfl).does_bind (fun _ _ => trivial) fun _ d₄ h₄ => ?_
    rw [does_bind]
    refine does_ask trivial trivial fun _ d₅ hunlink => ?_
    have hkept : HasFile (setup.final r.context plan.reference) i bytes d₅ := by
      simp only [exec, Disk.onTree] at hunlink
      split at hunlink
      · rename_i tree ht
        obtain ⟨-, rfl⟩ := Prod.mk.inj hunlink
        obtain rfl := unlink_eq_some ht
        show find (remove d₄.tree part) _ = _
        rw [find_remove_of_ne hne, (h₃.trans h₄).1]
        exact hfinal
      · cases (Prod.mk.inj hunlink).1
    rw [does_bind, does_modify]
    refine looks_regularFileState.does_bind (fun _ _ => trivial) fun _ d₆ h₆ => ?_
    refine looks_refuseIf.does_bind (fun _ _ => trivial) fun _ d₇ h₇ => ?_
    refine (looks_ask rfl).onOs.does_bind (fun _ _ => trivial) fun _ d₈ h₈ => ?_
    exact (looks_ask rfl _ d₈).mono
      (fun _ _ d₉ h₉ => hkept.congr (((h₆.trans h₇).trans h₈).trans h₉.2)) fun _ _ _ => trivial
  · cases (Prod.mk.inj hlink).1

/-! ## A call of the store -/

variable {base start : Disk} {D : Path} {k : ℕ}

lemma Does.and {x : Code α} {Q' : α → Locals → Disk → Prop} {R' : Locals → Disk → Prop}
    (h : Does setup x Q R l d) (h' : Does setup x Q' R' l d) :
    Does setup x (fun a l d => Q a l d ∧ Q' a l d) (fun l d => R l d ∧ R' l d) l d := by
  refine Prog.Follows.mono (Prog.Follows.and h h') fun x' d' hx => ?_
  obtain ⟨x', l'⟩ := x'
  cases x' with
  | ok a => exact hx
  | error f => exact hx

/-- Every object that was intact stays. -/
def Spares (setup : Setup) (start d : Disk) : Prop :=
  ∀ evidence, Intact setup start evidence → Stays setup evidence start d

lemma Spares.congr {start : Disk} (h : Spares setup start d) (htree : d'.tree = d.tree) :
    Spares setup start d' := fun evidence hintact =>
  (h evidence hintact).trans ((h evidence hintact).intact.same htree)

/-- An object is entered into the registry, in a directory of its own. -/
structure Enters (setup : Setup) (r : Request) (g : Registry) (start : Disk) (e : Evidence)
    (g' : Registry) (d : Disk) : Prop where
  context : e.context = r.context
  source : e.source = r.encryptedArtifact
  sized : 0 < e.source.encryptedByteCount
  registry : g' = g.enter e
  stored : g.stored e.key = none
  deleted : g.deleted e.key = none
  bySource : g.bySource (sourceKey e.context e.source) = none
  intact : Intact setup d e
  content : ∃ chunks i, setup.artifact r.encryptedArtifact.reference = some chunks ∧
    HasFile (e.final setup) i (readBytes chunks) d
  apart : ∀ e', Intact setup start e' → e'.directory setup ≠ e.directory setup
  spares : Spares setup start d

/-- Nothing has been published yet. -/
def Begun (setup : Setup) (r : Request) (g : Registry) (start : Disk) (l : Locals) (d : Disk) :
    Prop :=
  Before setup r g start l d ∨ ∃ base reference k,
    Shared setup r.context start.tree base.tree ∧
      Working g base (setup.directory r.context reference) k l d

/-- An object has been published, and its result is known. -/
def Done (setup : Setup) (r : Request) (g : Registry) (start : Disk) (l : Locals) (d : Disk) :
    Prop :=
  ∃ e, l.publishedEvidence = some e ∧ l.result = some e.result ∧
    Enters setup r g start e l.registry d

lemma Prepared.spares (h : Prepared setup c start d) : Spares setup start d :=
  fun _ hintact => hintact.shared h.shared

lemma Confined.spares (h : Confined base (setup.directory c reference) d)
    (hshared : Shared setup c start.tree base.tree) : Spares setup start d :=
  fun _ hintact => (hintact.shared hshared).trans ((hintact.shared hshared).intact.confined h)

lemma keeps_ask_locals {P : Locals → Prop} {i : StorageCall} :
    Keeps (reliable setup) (fun l _ => P l) (ask i) :=
  keeps_perform fun _ _ h => ⟨trivial, fun _ _ _ => h⟩

lemma keeps_onOs {I : Locals → Disk → Prop} {x : Code α} (hx : Keeps (reliable setup) I x) :
    Keeps (reliable setup) I (onOs e x) :=
  keeps_tryCatch hx fun _ => keeps_ite keeps_throw keeps_throw

lemma keeps_refuseIf {I : Locals → Disk → Prop} {q : Prop} [Decidable q] :
    Keeps (reliable setup) I (refuseIf q e) :=
  keeps_ite keeps_throw keeps_pure

lemma keeps_createDirectory :
    Keeps (reliable setup) (fun l _ => l.directory = some D) (createDirectory p) :=
  keeps_bind keeps_ask_locals fun _ => keeps_bind (keeps_onOs keeps_ask_locals) fun _ =>
    keeps_bind keeps_refuseIf fun _ => keeps_bind (keeps_modify fun _ _ h => h) fun _ =>
    keeps_bind (keeps_onOs keeps_ask_locals) fun _ => keeps_bind keeps_ask_locals fun _ =>
    keeps_pure

/-- The directory that the clean-up of a failed call looks after is the one of the object. -/
lemma begun_createDirectory {plan : Plan} (h : Before setup r g start l d)
    (hplaced : Placed setup r plan l d) :
    Does setup (createDirectory (setup.directory r.context plan.reference))
      (fun k l' d' => ∃ base, Shared setup r.context start.tree base.tree ∧
        Working g base (setup.directory r.context plan.reference) k l' d')
      (Begun setup r g start) l d := by
  refine ((does_createDirectory h hplaced).and (keeps_createDirectory l d hplaced.1)).mono
    (fun _ _ _ h' => h'.1) fun l' d' h' => ?_
  obtain ⟨hbefore | ⟨base, D, k, -, hshared, hworking⟩, hdirectory⟩ := h'
  · exact .inl hbefore
  · obtain rfl := Option.some.inj (hworking.directory.symm.trans hdirectory)
    exact .inr ⟨base, _, k, hshared, hworking⟩

lemma done_register (h : Working g base (setup.directory r.context reference) k l d)
    (hshared : Shared setup r.context start.tree base.tree) (hintact : Intact setup d evidence)
    (hcontext : evidence.context = r.context) (hsource : evidence.source = r.encryptedArtifact)
    (hsized : 0 < r.encryptedArtifact.encryptedByteCount)
    (hcontent : ∃ chunks i, setup.artifact r.encryptedArtifact.reference = some chunks ∧
      HasFile (evidence.final setup) i (readBytes chunks) d)
    (hapart : ∀ e', Intact setup start e' → e'.directory setup ≠ evidence.directory setup) :
    Does setup (register evidence)
      (fun _ l' d' => l'.publishedEvidence = some evidence ∧ Done setup r g start l' d')
      (Begun setup r g start) l d := by
  rw [register, does_bind, does_get, does_bind]
  refine does_refuseIf (fun _ => .inr ⟨base, reference, k, hshared, h⟩) fun hfree => ?_
  simp only [not_or, Bool.not_eq_true, Option.isSome_eq_false_iff, Option.isNone_iff_eq_none]
    at hfree
  rw [h.registry] at hfree
  refine ⟨rfl, evidence, rfl, rfl, hcontext, hsource, hsource ▸ hsized, ?_, hfree.1, hfree.2.1,
    hfree.2.2, hintact, hcontent, hapart, h.confined.spares hshared⟩
  show l.registry.enter evidence = _
  rw [h.registry]

lemma Registry.enter_completed :
    { g.enter evidence with
      stored := Function.update (g.enter evidence).stored
        (stateKey evidence.context evidence.result.reference) (some evidence.completed) } =
      g.enter evidence.completed := by
  simp [Registry.enter, Evidence.completed, Function.update_idem]

lemma Enters.completed {g' : Registry} (h : Enters setup r g start evidence g' d) :
    Enters setup r g start evidence.completed (g.enter evidence.completed) d :=
  ⟨h.context, h.source, h.sized, rfl, h.stored, h.deleted, h.bySource, h.intact.completed,
    h.content, h.apart, h.spares⟩

lemma Done.congr {d' : Disk} (h : Done setup r g start l d) (hsame : Same d d') :
    Done setup r g start l d' := by
  obtain ⟨e, hpublished, hresult, h⟩ := h
  obtain ⟨chunks, i, hartifact, hfile⟩ := h.content
  exact ⟨e, hpublished, hresult, { h with
    intact := h.intact.congr hsame.1
    content := ⟨chunks, i, hartifact, hfile.congr hsame⟩
    spares := h.spares.congr hsame.1 }⟩

lemma done_cleanStaging (hevidence : l.publishedEvidence = some evidence)
    (h : Done setup r g start l d) :
    Does setup (cleanStaging evidence) (fun _ l' d' => Done setup r g start l' d')
      (Done setup r g start) l d := by
  rw [cleanStaging]
  refine (looks_ask rfl).does_bind (fun d' => h.congr) fun _ d₁ h₁ => ?_
  refine looks_cleanupArtifact.does_bind (fun d' h' => h.congr (h₁.trans h'))
    fun cleaned d₂ h₂ => ?_
  replace h := h.congr (h₁.trans h₂)
  split
  · rw [does_bind, does_get, does_bind]
    refine does_refuseIf (fun _ => h) fun _ => ?_
    obtain ⟨e, hpublished, -, hentered⟩ := h
    obtain rfl := Option.some.inj (hevidence.symm.trans hpublished)
    refine ⟨evidence.completed, rfl, rfl, ?_⟩
    have hcompleted := hentered.completed
    rw [← Registry.enter_completed, ← hentered.registry] at hcompleted
    exact hcompleted
  · exact h

lemma follows_any (x : Prog StorageCall StorageCall.Result Fault α) (d : Disk) :
    x.Follows (reliable setup) (fun _ _ => True) d := by
  induction x generalizing d with
  | done a => trivial
  | call i k ih => exact ⟨trivial, fun x d' _ => ih x d'⟩

lemma does_any {x : Code α} : Does setup x (fun _ _ _ => True) (fun _ _ => True) l d := by
  refine Prog.Follows.mono (follows_any (x.prog l) d) fun x' _ _ => ?_
  obtain ⟨x', l'⟩ := x'
  cases x' with
  | ok a => trivial
  | error f => trivial

/-- An empty artifact is not admitted. -/
lemma sized_admitArtifact :
    Does setup (admitArtifact setup r) (fun _ _ _ => 0 < r.encryptedArtifact.encryptedByteCount)
      (fun _ _ => True) l d := by
  rw [admitArtifact, does_bind]
  refine does_refuseIf (fun _ => trivial) fun hsource => ?_
  have hsized : 0 < r.encryptedArtifact.encryptedByteCount :=
    Nat.pos_of_ne_zero fun hzero => hsource (.inr (.inl (hzero ▸ Nat.zero_lt_one)))
  exact does_any.mono (fun _ _ _ _ => hsized) fun _ _ _ => trivial

/-- A body that ends has published the object, or has not begun to. -/
lemma done_storeBody (hd : start.Valid) :
    Does setup (storeBody setup r) (fun _ l' d' => Done setup r g start l' d')
      (fun l' d' => Begun setup r g start l' d' ∨ Done setup r g start l' d')
      { registry := g } start := by
  rw [storeBody, does_bind]
  have hready : Does setup (admitArtifact setup r)
      (fun plan l' d' => Before setup r g start l' d' ∧ Placed setup r plan l' d')
      (Before setup r g start) { registry := g } start :=
    does_admitArtifact ⟨hd, Shared.refl start.tree⟩
  refine (hready.and sized_admitArtifact).mono (fun plan l₁ d₁ h₁ => ?_)
    fun l' d' h' => .inl (.inl h'.1)
  obtain ⟨⟨hbefore, hplaced⟩, hsized⟩ := h₁
  have hapart : ∀ e', Intact setup start e' →
      e'.directory setup ≠ setup.directory r.context plan.reference := by
    intro e' he' heq
    have hthere := mem_paths_of_find (he'.shared hbefore.prepared.shared).intact.directory
    exact hplaced.2.2.2 (heq ▸ hthere)
  rw [does_bind]
  refine (begun_createDirectory hbefore hplaced).mono (fun directoryIdentity l₂ d₂ h₂ => ?_)
    fun l' d' h' => .inl h'
  obtain ⟨base, hshared, hworking⟩ := h₂
  have hraised : ∀ l' d', Working g base (setup.directory r.context plan.reference)
      directoryIdentity l' d' → Begun setup r g start l' d' ∨ Done setup r g start l' d' :=
    fun l' d' h' => .inl (.inr ⟨base, _, directoryIdentity, hshared, h'⟩)
  refine Keeps.meets_bind (looks_ask rfl).works hworking (fun _ => hraised) fun name l₃ d₃ h₃ => ?_
  have hwrite : Does setup
      (writePart setup r (setup.directory r.context plan.reference ++ [name]))
      (fun _ => Working g base (setup.directory r.context plan.reference) directoryIdentity)
      (Working g base (setup.directory r.context plan.reference) directoryIdentity) l₃ d₃ :=
    works_writePart (List.prefix_append _ _) l₃ d₃ h₃
  refine does_bind.mpr ((hwrite.and copied_writePart).mono (fun identity l₄ d₄ h₄ => ?_)
    fun l' d' h' => hraised l' d' h'.1)
  obtain ⟨h₄, chunks, hartifact, hwritten⟩ := h₄
  have hpublish : Does setup
      (publishPart setup r plan (setup.directory r.context plan.reference ++ [name]) identity)
      (fun _ => Working g base (setup.directory r.context plan.reference) directoryIdentity)
      (Working g base (setup.directory r.context plan.reference) directoryIdentity) l₄ d₄ :=
    works_publishPart (List.prefix_append _ _) (List.prefix_append _ _) l₄ d₄ h₄
  refine does_bind.mpr ((hpublish.and (copied_publishPart hwritten)).mono
    (fun _ l₅ d₅ h₅ => ?_) fun l' d' h' => hraised l' d' h'.1)
  obtain ⟨h₅, hfile⟩ := h₅
  refine does_bind.mpr ((does_validatePath fun d' hsame => hraised l₅ d' (h₅.congr hsame)).mono
    (fun _ l₆ d₆ h₆ => ?_) fun _ _ h' => h')
  obtain ⟨rfl, rfl, hintact⟩ := h₆
  rw [does_bind]
  refine (done_register h₅ hshared hintact rfl rfl hsized ⟨chunks, _, hartifact, hfile⟩
    hapart).mono (fun _ l₇ d₇ h₇ => ?_) fun _ _ h' => .inl h'
  exact (done_cleanStaging h₇.1 h₇.2).mono (fun _ _ _ h' => h') fun _ _ h' => .inr h'

lemma keeps_orIncomplete {I : Locals → Disk → Prop} {x : Code Unit}
    (hI : ∀ l d, I l d → I { l with cleanupIncomplete := true } d)
    (hx : Keeps (reliable setup) I x) (h : I l d) :
    Does setup (orIncomplete x) (fun _ => I) (fun _ _ => False) l d :=
  does_orIncomplete ((hx l d h).mono (fun _ _ _ h' => h') fun _ l' d' h' => hI l' d' h')

/-- What the parts of the clean-up keep, the clean-up keeps. -/
lemma keeps_cleanUp {I : Locals → Disk → Prop}
    (hI : ∀ l d, I l d → I { l with cleanupIncomplete := true } d)
    (hpublished : l.publishedEvidence = none)
    (hclose : Keeps (reliable setup) I (ask .close))
    (hfiles : Keeps (reliable setup) I (cleanFiles l))
    (hdirectory : Keeps (reliable setup) I (cleanDirectory l)) (h : I l d) :
    Does setup cleanUp (fun _ => I) (fun _ _ => False) l d := by
  rw [cleanUp, does_bind, does_get, hpublished]
  simp only [Option.isSome_none, Bool.false_eq_true, if_false]
  have hclosed : Does setup (closeDescriptor l) (fun _ => I) (fun _ _ => False) l d := by
    rw [closeDescriptor]
    split
    · exact keeps_orIncomplete hI hclose h
    · exact h
  rw [does_bind]
  refine hclosed.mono (fun _ l₁ d₁ h₁ => ?_) fun _ _ h' => h'
  rw [does_bind]
  refine (keeps_orIncomplete hI hfiles h₁).mono (fun _ l₂ d₂ h₂ => ?_) fun _ _ h' => h'
  exact keeps_orIncomplete hI hdirectory h₂

/-- A call that has published nothing leaves the registry and the other objects as they were. -/
lemma begun_cleanUp (h : Begun setup r g start l d) :
    Does setup cleanUp
      (fun _ l' d' => l'.registry = g ∧ l'.result = none ∧ Spares setup start d')
      (fun _ _ => False) l d := by
  rcases h with h | ⟨base, reference, k, hshared, h⟩
  · have hlooks : ∀ {x : Code Unit}, Looks setup x → Keeps (reliable setup)
        (fun l' d' => (l'.registry = g ∧ l'.result = none) ∧ Prepared setup r.context start d')
        x := by
      intro x hx l' d' hI
      refine (hx l' d').mono (fun _ _ _ h' => ?_) fun _ _ h' => ?_
      · obtain ⟨rfl, hsame⟩ := h'
        exact ⟨hI.1, hI.2.congr hsame⟩
      · obtain ⟨rfl, hsame⟩ := h'
        exact ⟨hI.1, hI.2.congr hsame⟩
    have hfiles : Looks setup (cleanFiles l) := by
      rw [cleanFiles, h.file]
      exact looks_ownedPaths.bind fun _ => looks_refuseIf
    have hdirectory : Looks setup (cleanDirectory l) := by
      rw [cleanDirectory, h.directory]
      cases l.directory <;> exact looks_pure
    exact (keeps_cleanUp (fun _ _ h' => h') h.published (hlooks (looks_ask rfl)) (hlooks hfiles)
      (hlooks hdirectory) ⟨⟨h.registry, h.result⟩, h.prepared⟩).mono
      (fun _ _ _ h' => ⟨h'.1.1, h'.1.2, h'.2.spares⟩) fun _ _ h' => h'
  · have hdirectory : Keeps (reliable setup)
        (Cleaning g base (setup.directory r.context reference)) (cleanDirectory l) :=
      fun l' d' h' => (does_cleanDirectory h.directory h.identity h').mono
        (fun _ _ _ h'' => h''.1) fun _ _ h'' => h''
    exact (keeps_cleanUp (fun _ _ h' => h'.incomplete) h.published (looks_ask rfl).cleaning
      (cleaning_cleanFiles h.part h.final) hdirectory ⟨h.registry, h.result, h.confined⟩).mono
      (fun _ _ _ h' => ⟨h'.registry, h'.result, h'.confined.spares hshared⟩) fun _ _ h' => h'

/-- How a call of the store ends: as it began, or with a new object. -/
def Advances (setup : Setup) (r : Request) (g : Registry) (start : Disk) (g' : Registry)
    (d : Disk) : Prop :=
  (g' = g ∧ Spares setup start d) ∨ ∃ e, Enters setup r g start e g' d

/-- A result that is returned is that of an object. -/
def Answers (setup : Setup) (r : Request) (g : Registry) (start : Disk) (result : StoredResult)
    (g' : Registry) (d : Disk) : Prop :=
  ∃ e, e.result = result ∧ ((existingEvidence g r = some e ∧ e.context = r.context ∧
    e.source = r.encryptedArtifact ∧ g' = g ∧ Intact setup d e) ∨ Enters setup r g start e g' d)

lemma advances_storeEncryptedArtifact (hd : start.Valid) :
    Does setup (storeEncryptedArtifact setup r)
      (fun a l' d' => Advances setup r g start l'.registry d' ∧
        ∀ result, a = .returned result → Answers setup r g start result l'.registry d')
      (fun _ _ => False) { registry := g } start := by
  rw [storeEncryptedArtifact, does_bind, does_get]
  dsimp only
  have hstay : ∀ d', Same start d' → Advances setup r g start g d' := fun d' hsame =>
    .inl ⟨rfl, fun _ h => h.same hsame.1⟩
  cases hexisting : existingEvidence g r with
  | some existing =>
    refine does_tryCatch ?_
    rw [does_bind]
    have hraised : ∀ l' d', l' = { registry := g } ∧ Same start d' → ∀ f : Fault,
        Does setup (pure (Answer.raised f false) : Code Answer)
          (fun a l' d' => Advances setup r g start l'.registry d' ∧
            ∀ result, a = .returned result → Answers setup r g start result l'.registry d')
          (fun _ _ => False) l' d' := by
      rintro l' d' ⟨rfl, hsame⟩ f
      exact ⟨hstay d' hsame, fun result ha => by cases ha⟩
    refine does_refuseIf (fun _ => hraised _ _ ⟨rfl, Same.refl start⟩) fun hsame => ?_
    simp only [not_or, not_not] at hsame
    rw [does_bind]
    refine (does_validatePath fun d' h' => hraised _ d' ⟨rfl, h'⟩).mono (fun _ l' d' h' => ?_)
      fun _ _ h' => h'
    obtain ⟨rfl, rfl, hintact⟩ := h'
    refine ⟨hstay d' (Same.refl d'), fun result ha => ?_⟩
    cases ha
    exact ⟨existing, rfl, .inl ⟨hexisting, hsame.1, hsame.2, rfl, hintact⟩⟩
  | none =>
    have hbody : Does setup
        (tryCatch
          (do
            storeBody setup r
            pure none)
          fun f => pure (some f))
        (fun raised l' d' => (raised ≠ none ∧ Begun setup r g start l' d') ∨
          Done setup r g start l' d')
        (fun _ _ => False) { registry := g } start := by
      refine does_tryCatch (does_bind.mpr ?_)
      exact (done_storeBody hd).mono (fun _ _ _ h => .inr h)
        fun _ _ h f => h.imp_left fun hbegun => ⟨(fun hnone => by cases hnone), hbegun⟩
    rw [does_bind]
    refine hbody.mono (fun raised l₁ d₁ h₁ => ?_) fun _ _ h => h
    rw [does_bind]
    rcases h₁ with ⟨hraised, hbegun⟩ | hdone
    · refine (begun_cleanUp hbegun).mono (fun _ l₂ d₂ h₂ => ?_) fun _ _ h => h
      obtain ⟨hregistry, -, hspares⟩ := h₂
      rw [does_bind, does_get]
      cases raised with
      | none => exact absurd rfl hraised
      | some f => exact ⟨.inl ⟨hregistry, hspares⟩, fun result ha => by cases ha⟩
    · obtain ⟨e, hpublished, hresult, hentered⟩ := hdone
      rw [cleanUp, does_bind, does_get, hpublished]
      rw [Option.isSome_some, if_pos rfl, does_pure, does_bind, does_get, hresult]
      cases raised with
      | some f => exact ⟨.inr ⟨e, hentered⟩, fun result ha => by cases ha⟩
      | none =>
        refine ⟨.inr ⟨e, hentered⟩, fun result ha => ?_⟩
        cases ha
        exact ⟨e, rfl, .inr hentered⟩

end NexaPos.Backups.DurableStorage
