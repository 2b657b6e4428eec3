import NexaPos.Properties.ObjectPublication
import Mathlib.Logic.Relation

/-!
# Stored objects: repeated calls and deletions

A repeated store returns the object that is there.  A deletion can fail at any point and be taken
up again from the stage it has reached, and ends with the file and the directory of its object
gone, and nothing else.
-/

namespace NexaPos.Backups.DurableStorage

open FileTree Routine

variable {setup : Setup} {α β : Type} {l : Locals} {d : Disk} {p : Path} {e : StorageError}
  {Q : α → Locals → Disk → Prop} {R : Locals → Disk → Prop} {c : Context} {reference : String}
  {r : Request} {g : Registry} {evidence : Evidence}

/-! ## Calls that are all answered -/

/-- When every call is answered, the code does not raise and ends where `Q` holds. -/
def Serves (setup : Setup) (x : Code α) (Q : α → Locals → Disk → Prop) (l : Locals) (d : Disk) :
    Prop :=
  Meets ((machine setup).served ()) x Q (fun _ _ _ => False) l d

@[simp] lemma serves_pure {a : α} : Serves setup (pure a) Q l d ↔ Q a l d := meets_pure

@[simp] lemma serves_bind {x : Code α} {f : α → Code β} {Q : β → Locals → Disk → Prop} :
    Serves setup (x >>= f) Q l d ↔ Serves setup x (fun a l d => Serves setup (f a) Q l d) l d :=
  meets_bind

@[simp] lemma serves_get {Q : Locals → Locals → Disk → Prop} :
    Serves setup (get : Code Locals) Q l d ↔ Q l l d := meets_get

@[simp] lemma serves_modify {f : Locals → Locals} {Q : PUnit → Locals → Disk → Prop} :
    Serves setup (modify f : Code PUnit) Q l d ↔ Q ⟨⟩ (f l) d := meets_modify

lemma Serves.mono {x : Code α} {Q' : α → Locals → Disk → Prop} (h : Serves setup x Q l d)
    (hQ : ∀ a l d, Q a l d → Q' a l d) : Serves setup x Q' l d :=
  Meets.mono h hQ fun _ _ _ hE => hE

lemma serves_ask {i : StorageCall} {a : i.Result} {d' : Disk}
    {Q : i.Result → Locals → Disk → Prop} (hexec : exec setup i d = (.ok a, d'))
    (h : Q a l d') : Serves setup (ask i) Q l d := by
  refine meets_perform.mpr ⟨trivial, fun r t hn => ?_⟩
  obtain ⟨rfl, rfl⟩ := Prod.mk.inj (hexec.symm.trans hn)
  exact h

lemma serves_tryCatch {x : Code α} {h : Fault → Code α} (hx : Serves setup x Q l d) :
    Serves setup (tryCatch x h) Q l d :=
  meets_tryCatch.mpr (Meets.mono hx (fun _ _ _ hQ => hQ) fun _ _ _ hE => hE.elim)

lemma serves_onOs {x : Code α} (h : Serves setup x Q l d) : Serves setup (onOs e x) Q l d :=
  serves_tryCatch h

lemma serves_refuseIf {c : Prop} [Decidable c] {Q : Unit → Locals → Disk → Prop} (hc : ¬ c)
    (h : Q ⟨⟩ l d) : Serves setup (refuseIf c e) Q l d := by
  rw [refuseIf, if_neg hc]
  exact h

lemma serves_lexists {Q : Bool → Locals → Disk → Prop} (h : Q (decide (p ∈ paths d.tree)) l d) :
    Serves setup (lexists p) Q l d := by
  have hlook : exec setup (.lstat p) d =
      (if p ∈ paths d.tree then .ok ⟨⟩ else .error .os, d) := by
    cases hfind : find d.tree p with
    | none => simp [exec, hfind, find_eq_none.mp hfind]
    | some n => simp [exec, hfind, mem_paths_of_mem (mem_of_find hfind)]
  rw [Serves, lexists, meets_tryCatch, Routine.meets_bind, meets_perform]
  refine ⟨trivial, fun r d' hn => ?_⟩
  obtain ⟨rfl, rfl⟩ := Prod.mk.inj (hlook.symm.trans hn)
  by_cases hp : p ∈ paths d.tree
  · simpa [hp] using h
  · simpa [hp] using h

lemma serves_directoryState {i : ℕ} {Q : FileState → Locals → Disk → Prop}
    (hp : IsDirectory d p i) (h : Q ⟨.directory, i, 1, 0⟩ l d) :
    Serves setup (directoryState p e) Q l d := by
  have hfind : find d.tree p = some (.directory i) := hp
  have hstat : exec setup (.stat p) d = (.ok ⟨.directory, i, 1, 0⟩, d) := by
    simp only [exec, Disk.look, hfind, fileState]
  rw [directoryState, serves_bind]
  refine serves_onOs (serves_ask hstat ?_)
  rw [serves_bind]
  exact serves_refuseIf (fun hkind => hkind rfl) h

lemma serves_objectPaths {Q : Unit → Locals → Disk → Prop}
    (hlinks : ∀ p ∈ [setup.objects, setup.tenant c, setup.backup c, setup.directory c reference,
      setup.final c reference], d.passesLink p = false) (h : Q ⟨⟩ l d) :
    Serves setup (objectPaths setup c reference e) Q l d := by
  have hcontained : ∀ q, d.passesLink q = false →
      exec setup (.contained q) d = (.ok ⟨⟩, d) := by
    intro q hq
    simp [exec, hq]
  simp only [List.forall_mem_cons] at hlinks
  obtain ⟨h₁, h₂, h₃, h₄, h₅, -⟩ := hlinks
  refine serves_onOs ?_
  rw [serves_bind]
  refine serves_ask (hcontained _ h₁) ?_
  rw [serves_bind]
  refine serves_ask (hcontained _ h₂) ?_
  rw [serves_bind]
  refine serves_ask (hcontained _ h₃) ?_
  rw [serves_bind]
  exact serves_ask (hcontained _ h₄) (serves_ask (hcontained _ h₅) h)

/-- A complete object passes its validation. -/
lemma serves_validatePath (h : Intact setup d evidence) :
    Serves setup (validatePath setup evidence e) (fun _ l' d' => l' = l ∧ d' = d) l d := by
  obtain ⟨i, bytes, hfile, hfind, honce, hcount, hcount', hsha, hsha', hmaximum, hvalid⟩ := h.file
  rw [validatePath, serves_bind]
  refine serves_objectPaths h.links ?_
  rw [serves_bind]
  refine serves_directoryState h.root ?_
  rw [serves_bind]
  refine serves_directoryState h.objects ?_
  rw [serves_bind]
  refine serves_directoryState h.tenant ?_
  rw [serves_bind]
  refine serves_directoryState h.backup ?_
  rw [serves_bind]
  refine serves_directoryState h.directory ?_
  rw [serves_bind]
  refine serves_refuseIf (by simp [hfile]) ?_
  rw [serves_bind]
  refine serves_onOs ?_
  rw [serves_bind]
  refine serves_ask rfl ?_
  rw [serves_bind]
  refine serves_ask rfl ?_
  rw [serves_bind]
  refine serves_ask rfl ?_
  rw [serves_bind]
  refine serves_ask rfl (serves_ask rfl ?_)
  rw [serves_bind]
  refine serves_ask rfl ?_
  rw [serves_bind]
  refine serves_refuseIf (not_not.mpr h.names) ?_
  rw [serves_bind, regularFileState, serves_bind]
  have hstat : exec setup
      (.stat (setup.final evidence.context evidence.result.reference)) d =
      (.ok ⟨.regular, i, 1, bytes.length⟩, d) := by
    simp only [exec, Disk.look, hfind, fileState, honce]
  have hread : exec setup
      (.readFile (setup.final evidence.context evidence.result.reference)) d =
      (.ok (⟨.regular, i, 1, bytes.length⟩, bytes), d) := by
    simp only [exec, hfind, fileState, honce]
  refine serves_onOs (serves_ask hstat ?_)
  rw [serves_bind]
  refine serves_refuseIf (by simp) ?_
  rw [serves_pure, serves_bind]
  refine serves_refuseIf (by simp [hfile, hcount]) ?_
  rw [serves_bind]
  refine serves_onOs (serves_ask rfl ?_)
  rw [serves_bind, hashPath]
  refine serves_onOs ?_
  rw [serves_bind]
  refine serves_ask hread ?_
  rw [serves_bind]
  refine serves_refuseIf (by simp) ?_
  rw [serves_bind]
  refine serves_ask rfl ?_
  rw [serves_bind]
  refine serves_refuseIf (Nat.not_lt.mpr hmaximum) ?_
  rw [serves_pure, serves_bind]
  refine serves_refuseIf (by simp [← hcount, hcount', ← hsha', hsha]) ?_
  refine serves_tryCatch ?_
  rw [serves_bind]
  refine serves_ask hread ?_
  rw [serves_bind]
  refine serves_refuseIf (by simp [hfile, hcount]) ?_
  have hstream : exec setup (.validateStream evidence.context evidence.source bytes) d =
      (.ok ⟨⟩, d) := by simp [exec, hvalid]
  rw [serves_bind]
  exact serves_ask hstream (serves_ask rfl ⟨rfl, rfl⟩)

/-! ## Deletions -/

variable {t t₀ : Tree}

/-- The directory of the object of an evidence, and its file. -/
abbrev Evidence.directory (evidence : Evidence) (setup : Setup) : Path :=
  setup.directory evidence.context evidence.result.reference

abbrev Evidence.final (evidence : Evidence) (setup : Setup) : Path :=
  setup.final evidence.context evidence.result.reference

abbrev Evidence.key (evidence : Evidence) : ℕ × String :=
  stateKey evidence.context evidence.result.reference

/-- The evidence once the file is gone. -/
def Evidence.emptied (evidence : Evidence) : Evidence := { evidence with fileIdentity := none }

/-- The tree without the file, and without the directory too. -/
def withoutFile (setup : Setup) (evidence : Evidence) (t : Tree) : Tree :=
  remove t (evidence.final setup)

def withoutObject (setup : Setup) (evidence : Evidence) (t : Tree) : Tree :=
  remove (withoutFile setup evidence t) (evidence.directory setup)

/-- The object has been deleted. -/
structure Gone (setup : Setup) (evidence : Evidence) (t₀ : Tree) (g : Registry) (t : Tree) :
    Prop where
  stored : g.stored evidence.key = none
  deleted : ∃ e, g.deleted evidence.key = some e ∧ e.context = evidence.context
  bySource : g.bySource (sourceKey evidence.context evidence.source) = none
  tree : t = withoutObject setup evidence t₀

/-- The provider still knows the object, under an evidence. -/
structure Known (evidence current : Evidence) (g : Registry) : Prop where
  stored : g.stored evidence.key = some current
  deleted : g.deleted evidence.key = none
  bySource : g.bySource (sourceKey evidence.context evidence.source) = some evidence.key

/-- How far the deletion of an object has come. -/
inductive Stage (setup : Setup) (evidence : Evidence) (t₀ : Tree) (g : Registry) (t : Tree) : Prop
  | whole (h : Known evidence evidence g) (htree : t = t₀)
  | emptied (h : Known evidence evidence.emptied g) (htree : t = withoutFile setup evidence t₀)
  | removed (h : Known evidence evidence.emptied g) (htree : t = withoutObject setup evidence t₀)
  | gone (h : Gone setup evidence t₀ g t)

lemma mem_childNames {n : Name} : n ∈ childNames t p ↔ ∃ m, (p ++ [n], m) ∈ t := by
  simp only [childNames, List.mem_filterMap]
  constructor
  · rintro ⟨⟨q, m⟩, hx, hn⟩
    rw [Option.ite_none_right_eq_some] at hn
    obtain ⟨⟨hne, rfl⟩, hlast⟩ := hn
    refine ⟨m, ?_⟩
    rw [List.dropLast_append_getLast?]
    · exact hx
    · exact hlast
  · rintro ⟨m, hm⟩
    exact ⟨_, hm, by simp⟩

lemma isEmpty_of_childNames (h : childNames t p = []) : isEmpty t p = true := by
  refine List.all_eq_true.mpr fun x hx => ?_
  by_cases hne : x.1 = []
  · simp [hne]
  · by_cases hparent : x.1.dropLast = p
    · have hmem : x.1.getLast hne ∈ childNames t p := by
        refine mem_childNames.mpr ⟨x.2, ?_⟩
        rw [← hparent, List.dropLast_append_getLast hne]
        exact hx
      rw [h] at hmem
      exact (List.not_mem_nil hmem).elim
    · simp [hparent]

/-- The trees that a deletion passes through. -/
structure Trees (setup : Setup) (evidence : Evidence) (t₀ : Tree) : Prop where
  file : ∃ i bytes, find t₀ (evidence.final setup) = some (.file i bytes)
  directory : find (withoutFile setup evidence t₀) (evidence.directory setup) =
    some (.directory evidence.directoryIdentity)
  empty : childNames (withoutFile setup evidence t₀) (evidence.directory setup) = []
  fileGone : evidence.final setup ∉ paths (withoutFile setup evidence t₀)
  directoryGone : evidence.directory setup ∉ paths (withoutObject setup evidence t₀)

lemma find_remove_of_ne {q : Path} (hne : q ≠ p) : find (remove t p) q = find t q := by
  rw [find, find, remove, List.find?_filter]
  congr 2
  funext x
  by_cases hx : x.1 = q
  · simp [hx, hne]
  · simp [hx]

lemma Intact.trees (h : Intact setup d evidence) : Trees setup evidence d.tree := by
  obtain ⟨i, bytes, -, hfind, -⟩ := h.file
  have hne : evidence.directory setup ≠ evidence.final setup := fun heq => by
    have hlength := congrArg List.length heq
    simp [Evidence.directory, Evidence.final, Setup.final] at hlength
  refine ⟨⟨i, bytes, hfind⟩, ?_, ?_, ?_, ?_⟩
  · rw [withoutFile, find_remove_of_ne hne]
    exact h.directory
  · refine List.eq_nil_iff_forall_not_mem.mpr fun n hn => ?_
    obtain ⟨m, hm⟩ := mem_childNames.mp hn
    obtain ⟨hm, hother⟩ := mem_remove.mp hm
    have hname : n ∈ (childNames d.tree (evidence.directory setup)).dedup :=
      List.mem_dedup.mpr (mem_childNames.mpr ⟨m, hm⟩)
    rw [h.names, List.mem_singleton] at hname
    exact hother (by rw [hname]; rfl)
  · exact fun hmem => (mem_paths_remove.mp hmem).2 rfl
  · exact fun hmem => (mem_paths_remove.mp hmem).2 rfl

lemma Known.replaced (h : Known evidence evidence g) :
    Known evidence evidence.emptied
      { g with stored := Function.update g.stored evidence.key (some evidence.emptied) } where
  stored := Function.update_self ..
  deleted := h.deleted
  bySource := h.bySource

lemma Known.forget {current : Evidence} (h : Known evidence current g)
    (hcurrent : current = evidence ∨ current = evidence.emptied)
    (ht : t = withoutObject setup evidence t₀) : Gone setup evidence t₀ (g.forget current) t := by
  have hkey : stateKey current.context current.result.reference = evidence.key := by
    rcases hcurrent with rfl | rfl <;> rfl
  have hsource : sourceKey current.context current.source =
      sourceKey evidence.context evidence.source := by
    rcases hcurrent with rfl | rfl <;> rfl
  refine ⟨?_, ⟨current, ?_, ?_⟩, ?_, ht⟩
  · rw [Registry.forget, hkey]
    exact Function.update_self ..
  · rw [Registry.forget, hkey]
    exact Function.update_self ..
  · rcases hcurrent with rfl | rfl <;> rfl
  · simp only [Registry.forget, hkey, hsource, h.bySource, if_true]
    exact Function.update_self ..

/-- The stage of a provider and its disk. -/
def At (setup : Setup) (evidence : Evidence) (t₀ : Tree) (l : Locals) (d : Disk) : Prop :=
  Stage setup evidence t₀ l.registry d.tree

lemma mem_paths_of_find {n : Node} (h : find t p = some n) : p ∈ paths t :=
  mem_paths_of_mem (mem_of_find h)

lemma exec_rmdir (htrees : Trees setup evidence t₀)
    (htree : d.tree = withoutFile setup evidence t₀) :
    exec setup (.rmdir (evidence.directory setup)) d =
      (.ok ⟨⟩, { d with tree := withoutObject setup evidence t₀ }) := by
  simp only [exec, removeDirectory, htree, htrees.directory, isEmpty_of_childNames htrees.empty,
    if_true, Disk.onTree]
  rfl

lemma exec_unlink (htrees : Trees setup evidence t₀) (htree : d.tree = t₀) :
    exec setup (.unlink (evidence.final setup)) d =
      (.ok ⟨⟩, { d with tree := withoutFile setup evidence t₀ }) := by
  obtain ⟨i, bytes, hfind⟩ := htrees.file
  simp only [exec, FileTree.unlink, htree, hfind, Disk.onTree]
  rfl

lemma does_forgetEvidence (h : Known evidence evidence.emptied l.registry)
    (htree : d.tree = withoutObject setup evidence t₀) :
    Does setup (forgetEvidence evidence.emptied)
      (fun _ l' d' => Gone setup evidence t₀ l'.registry d'.tree)
      (At setup evidence t₀) l d := by
  rw [forgetEvidence, does_bind, does_get, does_bind]
  exact does_refuseIf (fun _ => .removed h htree) fun _ => h.forget (.inr rfl) htree

/-- Up to its `rmdir`, the removal of a directory only looks. -/
lemma does_deleteDirectory_of {directory : Path} {R : Locals → Disk → Prop}
    {Q : Bool → Locals → Disk → Prop} (hstay : ∀ d', Same d d' → R l d')
    (hrmdir : ∀ d', Same d d' → Does setup
      (do
        ask (.rmdir directory)
        let there ← lexists directory
        refuseIf (there = true) .cleanup
        forgetEvidence evidence
        pure true) Q R l d') :
    Does setup (deleteDirectory evidence directory) Q R l d := by
  rw [deleteDirectory]
  refine looks_directoryState.does_bind hstay fun state d₁ h₁ => ?_
  refine looks_refuseIf.does_bind (fun d' h' => hstay d' (h₁.trans h')) fun _ d₂ h₂ => ?_
  replace h₂ := h₁.trans h₂
  refine (looks_ask rfl).does_bind (fun d' h' => hstay d' (h₂.trans h')) fun names d₃ h₃ => ?_
  replace h₃ := h₂.trans h₃
  refine looks_refuseIf.does_bind (fun d' h' => hstay d' (h₃.trans h')) fun _ d₄ h₄ => ?_
  replace h₄ := h₃.trans h₄
  refine (looks_ask rfl).does_bind (fun d' h' => hstay d' (h₄.trans h')) fun _ d₅ h₅ => ?_
  exact hrmdir d₅ (h₄.trans h₅)

lemma does_deleteDirectory (htrees : Trees setup evidence t₀)
    (h : Known evidence evidence.emptied l.registry)
    (htree : d.tree = withoutFile setup evidence t₀) :
    Does setup (deleteDirectory evidence.emptied (evidence.directory setup))
      (fun b l' d' => b = true ∧ Gone setup evidence t₀ l'.registry d'.tree)
      (At setup evidence t₀) l d := by
  have hstay : ∀ d', Same d d' → At setup evidence t₀ l d' := fun d' hsame =>
    .emptied h (hsame.1.trans htree)
  refine does_deleteDirectory_of hstay fun d₅ h₅ => ?_
  have hrmdir : exec setup (.rmdir (evidence.directory setup)) d₅ = _ :=
    exec_rmdir htrees (h₅.1.trans htree)
  rw [does_bind]
  refine does_ask (hstay d₅ h₅) ?_ fun a d' hexec => ?_
  · rw [hrmdir]
    exact .removed h rfl
  · obtain ⟨-, rfl⟩ := Prod.mk.inj (hrmdir.symm.trans hexec)
    rw [does_bind, does_lexists, does_bind]
    refine does_refuseIf (fun hthere => ?_) fun _ => ?_
    · exact absurd (of_decide_eq_true hthere) htrees.directoryGone
    · rw [does_bind]
      exact (does_forgetEvidence h rfl).mono (fun _ _ _ h' => ⟨rfl, h'⟩) fun _ _ h' => h'

lemma does_unlinkFile (htrees : Trees setup evidence t₀)
    (h : Known evidence evidence l.registry) (htree : d.tree = t₀) :
    Does setup (unlinkFile (evidence.final setup))
      (fun _ l' d' => l' = l ∧ d'.tree = withoutFile setup evidence t₀)
      (At setup evidence t₀) l d := by
  obtain ⟨i, bytes, hfind⟩ := htrees.file
  have hunlink : exec setup (.unlink (evidence.final setup)) d = _ := exec_unlink htrees htree
  have hgone : ∀ (f : Fault) (d' : Disk), d'.tree = withoutFile setup evidence t₀ → Does setup
      (do
        let there ← lexists (evidence.final setup)
        if there then throw f else pure (if f = .abort then some f else none))
      (fun _ l' d' => l' = l ∧ d'.tree = withoutFile setup evidence t₀)
      (At setup evidence t₀) l d' := by
    intro f d' htree'
    rw [does_bind, does_lexists, htree', if_neg (by simpa using htrees.fileGone)]
    exact ⟨rfl, htree'⟩
  refine does_tryCatch ?_
  rw [does_bind]
  refine does_ask (fun f => ?_) (fun f => ?_) fun a d' hexec => ?_
  · rw [does_bind, does_lexists, htree, if_pos (by simpa using mem_paths_of_find hfind)]
    exact .whole h htree
  · rw [hunlink]
    exact hgone f _ rfl
  · obtain ⟨-, rfl⟩ := Prod.mk.inj (hunlink.symm.trans hexec)
    exact ⟨rfl, rfl⟩

/-- The end of a call that returned. -/
def Returns (setup : Setup) (evidence : Evidence) (t₀ : Tree) (b : Bool) (l : Locals) (d : Disk) :
    Prop :=
  b = true ∧ Gone setup evidence t₀ l.registry d.tree

lemma does_deleteBody_whole (htrees : Trees setup evidence t₀) {i : ℕ}
    (hfile : evidence.fileIdentity = some i) (h : Known evidence evidence l.registry)
    (htree : d.tree = t₀) :
    Does setup (deleteBody setup evidence) (Returns setup evidence t₀) (At setup evidence t₀) l
      d := by
  have hstay : ∀ d', Same d d' → At setup evidence t₀ l d' := fun d' hsame =>
    .whole h (hsame.1.trans htree)
  rw [deleteBody, hfile]
  dsimp only
  refine looks_validatePath.does_bind hstay fun _ d₁ h₁ => ?_
  refine (looks_ask rfl).does_bind (fun d' h' => hstay d' (h₁.trans h')) fun _ d₂ h₂ => ?_
  replace h₂ := h₁.trans h₂
  rw [does_bind]
  refine (does_unlinkFile htrees h (h₂.1.trans htree)).mono (fun abort l₃ d₃ h₃ => ?_)
    fun _ _ h' => h'
  obtain ⟨rfl, htree₃⟩ := h₃
  rw [does_bind, does_lexists, does_bind, htree₃]
  refine does_refuseIf (fun hthere => absurd (of_decide_eq_true hthere) htrees.fileGone)
    fun _ => ?_
  rw [does_bind, replaceEvidence, does_bind, does_get, does_bind]
  refine does_refuseIf (fun hother => absurd h.stored hother) fun _ => ?_
  rw [does_modify]
  cases abort with
  | some f => exact .emptied h.replaced htree₃
  | none => exact does_deleteDirectory htrees h.replaced htree₃

lemma does_deleteBody_emptied (htrees : Trees setup evidence t₀)
    (h : Known evidence evidence.emptied l.registry)
    (htree : d.tree = withoutFile setup evidence t₀ ∨ d.tree = withoutObject setup evidence t₀) :
    Does setup (deleteBody setup evidence.emptied) (Returns setup evidence t₀)
      (At setup evidence t₀) l d := by
  have hstay : ∀ d', Same d d' → At setup evidence t₀ l d' := by
    intro d' hsame
    rcases htree with htree | htree
    · exact .emptied h (hsame.1.trans htree)
    · exact .removed h (hsame.1.trans htree)
  rw [deleteBody, Evidence.emptied]
  dsimp only
  refine looks_objectPaths.does_bind hstay fun _ d₁ h₁ => ?_
  rw [does_bind, does_lexists]
  rcases htree with htree | htree
  · replace htree := h₁.1.trans htree
    rw [htree, if_pos (by simpa using mem_paths_of_find htrees.directory), does_bind, does_lexists,
      does_bind, htree]
    exact does_refuseIf (fun hthere => absurd (of_decide_eq_true hthere) htrees.fileGone)
      fun _ => does_deleteDirectory htrees h htree
  · replace htree := h₁.1.trans htree
    rw [htree, if_neg (by simpa using htrees.directoryGone), does_bind]
    exact (does_forgetEvidence h htree).mono (fun _ _ _ h' => ⟨rfl, h'⟩) fun _ _ h' => h'

/-- A deletion goes on from whatever stage it finds. -/
lemma does_deleteStoredObject (htrees : Trees setup evidence t₀)
    (hfile : evidence.fileIdentity.isSome = true)
    (hstage : At setup evidence t₀ l d) :
    Does setup (deleteStoredObject setup evidence.context evidence.result.reference)
      (Returns setup evidence t₀) (At setup evidence t₀) l d := by
  obtain ⟨i, hi⟩ := Option.isSome_iff_exists.mp hfile
  have hcaught : ∀ {x : Code Bool},
      Does setup x (Returns setup evidence t₀) (At setup evidence t₀) l d →
      Does setup (tryCatch x fun f => if f = .os ∨ f = .error then fail .cleanup else throw f)
        (Returns setup evidence t₀) (At setup evidence t₀) l d := by
    intro x hx
    refine does_tryCatch (hx.mono (fun _ _ _ h => h) fun l' d' h f => ?_)
    split
    · exact h
    · exact h
  rw [deleteStoredObject, does_bind, does_get]
  cases hstage with
  | whole h htree =>
    rw [h.deleted, h.stored]
    refine does_bind.mpr (does_refuseIf (fun hother => absurd rfl hother) fun _ => ?_)
    exact hcaught (does_deleteBody_whole htrees hi h htree)
  | emptied h htree =>
    rw [h.deleted, h.stored]
    refine does_bind.mpr (does_refuseIf (fun hother => absurd rfl hother) fun _ => ?_)
    exact hcaught (does_deleteBody_emptied htrees h (.inl htree))
  | removed h htree =>
    rw [h.deleted, h.stored]
    refine does_bind.mpr (does_refuseIf (fun hother => absurd rfl hother) fun _ => ?_)
    exact hcaught (does_deleteBody_emptied htrees h (.inr htree))
  | gone h =>
    obtain ⟨e, he, hcontext⟩ := h.deleted
    rw [he]
    exact does_bind.mpr (does_refuseIf (fun hother => absurd hcontext hother) fun _ => ⟨rfl, h⟩)

lemma serves_forgetEvidence (h : Known evidence evidence.emptied l.registry)
    (htree : d.tree = withoutObject setup evidence t₀) :
    Serves setup (forgetEvidence evidence.emptied)
      (fun _ l' d' => Gone setup evidence t₀ l'.registry d'.tree) l d := by
  rw [forgetEvidence, serves_bind, serves_get, serves_bind]
  exact serves_refuseIf (fun hother => hother h.stored) (h.forget (.inr rfl) htree)

lemma serves_deleteDirectory (htrees : Trees setup evidence t₀)
    (h : Known evidence evidence.emptied l.registry)
    (htree : d.tree = withoutFile setup evidence t₀) :
    Serves setup (deleteDirectory evidence.emptied (evidence.directory setup))
      (Returns setup evidence t₀) l d := by
  have hdirectory : IsDirectory d (evidence.directory setup) evidence.directoryIdentity := by
    rw [IsDirectory, htree]
    exact htrees.directory
  rw [deleteDirectory, serves_bind]
  refine serves_directoryState hdirectory ?_
  rw [serves_bind]
  refine serves_refuseIf (fun hother => hother rfl) ?_
  rw [serves_bind]
  refine serves_ask rfl ?_
  rw [serves_bind]
  refine serves_refuseIf (fun hother => hother ?_) ?_
  · rw [htree]
    exact htrees.empty
  rw [serves_bind]
  refine serves_ask rfl ?_
  rw [serves_bind]
  refine serves_ask (exec_rmdir htrees htree) ?_
  rw [serves_bind]
  refine serves_lexists ?_
  rw [serves_bind]
  refine serves_refuseIf (by simpa using htrees.directoryGone) ?_
  rw [serves_bind]
  exact (serves_forgetEvidence h rfl).mono fun _ _ _ h' => ⟨rfl, h'⟩

lemma serves_deleteBody_whole (htrees : Trees setup evidence t₀) {i : ℕ}
    (hfile : evidence.fileIdentity = some i) (h : Known evidence evidence l.registry)
    (hintact : Intact setup d evidence) (htree : d.tree = t₀) :
    Serves setup (deleteBody setup evidence) (Returns setup evidence t₀) l d := by
  rw [deleteBody, hfile]
  dsimp only
  rw [serves_bind]
  refine (serves_validatePath hintact).mono fun _ l' d' h' => ?_
  obtain ⟨rfl, rfl⟩ := h'
  rw [serves_bind]
  refine serves_ask rfl ?_
  rw [serves_bind, unlinkFile]
  refine serves_tryCatch ?_
  rw [serves_bind]
  refine serves_ask (exec_unlink htrees htree) ?_
  rw [serves_pure, serves_bind]
  refine serves_lexists ?_
  rw [serves_bind]
  refine serves_refuseIf (by simpa using htrees.fileGone) ?_
  rw [serves_bind, replaceEvidence, serves_bind, serves_get, serves_bind]
  refine serves_refuseIf (fun hother => hother h.stored) ?_
  rw [serves_modify]
  exact serves_deleteDirectory htrees h.replaced rfl

lemma serves_deleteBody_emptied (htrees : Trees setup evidence t₀)
    (h : Known evidence evidence.emptied l.registry)
    (hlinks : ∀ p ∈ [setup.objects, setup.tenant evidence.context, setup.backup evidence.context,
      evidence.directory setup, evidence.final setup], d.passesLink p = false)
    (htree : d.tree = withoutFile setup evidence t₀ ∨ d.tree = withoutObject setup evidence t₀) :
    Serves setup (deleteBody setup evidence.emptied) (Returns setup evidence t₀) l d := by
  rw [deleteBody, Evidence.emptied]
  dsimp only
  rw [serves_bind]
  refine serves_objectPaths hlinks ?_
  rw [serves_bind]
  refine serves_lexists ?_
  rcases htree with htree | htree
  · rw [htree, if_pos (by simpa using mem_paths_of_find htrees.directory), serves_bind]
    refine serves_lexists ?_
    rw [serves_bind, htree]
    exact serves_refuseIf (by simpa using htrees.fileGone) (serves_deleteDirectory htrees h htree)
  · rw [htree, if_neg (by simpa using htrees.directoryGone), serves_bind]
    exact (serves_forgetEvidence h htree).mono fun _ _ _ h' => ⟨rfl, h'⟩

/-- Removing entries makes no link of what was none. -/
lemma passesLink_of_subset {d' : Disk} (h : d.passesLink p = false)
    (hsub : ∀ x ∈ d'.tree, x ∈ d.tree) : d'.passesLink p = false := by
  rw [Disk.passesLink, List.any_eq_false] at h ⊢
  exact fun x hx => h x (hsub x hx)

/-- A deletion in which every call is answered succeeds from every stage. -/
lemma serves_deleteStoredObject {d₀ : Disk} (hintact : Intact setup d₀ evidence)
    (hstage : At setup evidence d₀.tree l d) :
    Serves setup (deleteStoredObject setup evidence.context evidence.result.reference)
      (Returns setup evidence d₀.tree) l d := by
  obtain ⟨i, bytes, hi, -⟩ := hintact.file
  have htrees := hintact.trees
  rw [deleteStoredObject, serves_bind, serves_get]
  cases hstage with
  | whole h htree =>
    rw [h.deleted, h.stored]
    refine serves_bind.mpr (serves_refuseIf (fun hother => hother rfl) (serves_tryCatch ?_))
    exact serves_deleteBody_whole htrees hi h (hintact.congr htree) htree
  | emptied h htree =>
    rw [h.deleted, h.stored]
    refine serves_bind.mpr (serves_refuseIf (fun hother => hother rfl) (serves_tryCatch ?_))
    refine serves_deleteBody_emptied htrees h (fun p hp => ?_) (.inl htree)
    refine passesLink_of_subset (hintact.links p hp) fun x hx => ?_
    rw [htree] at hx
    exact (mem_remove.mp hx).1
  | removed h htree =>
    rw [h.deleted, h.stored]
    refine serves_bind.mpr (serves_refuseIf (fun hother => hother rfl) (serves_tryCatch ?_))
    refine serves_deleteBody_emptied htrees h (fun p hp => ?_) (.inr htree)
    refine passesLink_of_subset (hintact.links p hp) fun x hx => ?_
    rw [htree] at hx
    exact (mem_remove.mp (mem_remove.mp hx).1).1
  | gone h =>
    obtain ⟨e, he, hcontext⟩ := h.deleted
    rw [he]
    exact serves_bind.mpr (serves_refuseIf (fun hother => hother hcontext) ⟨rfl, h⟩)

/-! ## Calls of a provider -/

/-- What a provider remembers, and its disk. -/
structure Site where
  registry : Registry
  disk : Disk

/-- A call of the code comes to `x` and leaves the provider and the disk at `t`. -/
def Calls (setup : Setup) (code : Code α) (s : Site) (x : Except Fault α) (t : Site) : Prop :=
  ∃ l, Prog.Ends (reliable setup) (code.prog { registry := s.registry }) s.disk (x, l) t.disk ∧
    l.registry = t.registry

lemma Calls.of_does {code : Code α} {s t : Site} {x : Except Fault α}
    (h : Calls setup code s x t)
    (hcode : Does setup code Q R { registry := s.registry } s.disk) :
    ∃ l, l.registry = t.registry ∧ match x with
      | .ok a => Q a l t.disk
      | .error _ => R l t.disk := by
  obtain ⟨l, hends, hregistry⟩ := h
  have hend := hends.of_follows hcode
  refine ⟨l, hregistry, ?_⟩
  cases x with
  | ok a => exact hend
  | error f => exact hend

/-- The same call when a machine serves every call that it makes. -/
def servedBy (M : Machine Unit Disk StorageCall StorageCall.Result Fault) (code : Code α)
    (s : Site) : Except Fault α × Site :=
  let ended := (code.prog { registry := s.registry }).serve M () s.disk
  (ended.1.1, ⟨ended.1.2.registry, ended.2⟩)

/-- The same call when every call that it makes is answered. -/
abbrev answered (setup : Setup) (code : Code α) (s : Site) : Except Fault α × Site :=
  servedBy (machine setup) code s

lemma Serves.answered {code : Code α} {s : Site}
    (h : Serves setup code Q { registry := s.registry } s.disk) :
    ∃ a l d, Q a l d ∧ answered setup code s = (.ok a, ⟨l.registry, d⟩) := by
  have hend := Prog.serve_of_follows h
  rw [DurableStorage.answered, servedBy]
  revert hend
  generalize (code.prog { registry := s.registry }).serve (machine setup) () s.disk = ended
  obtain ⟨⟨x, l⟩, d⟩ := ended
  intro hend
  cases x with
  | ok a => exact ⟨a, l, d, hend, rfl⟩
  | error f => exact hend.elim

/-- A stored object is returned to a repeated call. -/
lemma answered_storeEncryptedArtifact {s : Site} (h : Stored setup s.registry s.disk evidence)
    (hcontext : evidence.context = r.context) (hsource : evidence.source = r.encryptedArtifact) :
    answered setup (storeEncryptedArtifact setup r) s = (.ok (.returned evidence.result), s) := by
  have hexisting : existingEvidence s.registry r = some evidence := by
    rw [existingEvidence, ← hcontext, ← hsource, h.bySource]
    exact h.stored
  have hserves : Serves setup (storeEncryptedArtifact setup r)
      (fun a l' d' => a = .returned evidence.result ∧ l'.registry = s.registry ∧ d' = s.disk)
      { registry := s.registry } s.disk := by
    rw [storeEncryptedArtifact, serves_bind, serves_get]
    dsimp only
    rw [hexisting]
    refine serves_tryCatch (serves_bind.mpr (serves_refuseIf ?_ (serves_bind.mpr ?_)))
    · exact not_or.mpr ⟨not_not.mpr hcontext, not_not.mpr hsource⟩
    · refine (serves_validatePath h.intact).mono fun _ l' d' h' => ?_
      obtain ⟨rfl, rfl⟩ := h'
      exact ⟨rfl, rfl, rfl⟩
  obtain ⟨a, l, d, ⟨rfl, hregistry, rfl⟩, hanswered⟩ := hserves.answered
  rw [hanswered, hregistry]

/-! ## Runs of deletions -/

/-- A call of `delete_stored_object` on the object of an evidence. -/
abbrev Deletes (setup : Setup) (evidence : Evidence) (s : Site) (x : Except Fault Bool)
    (t : Site) : Prop :=
  Calls setup (deleteStoredObject setup evidence.context evidence.result.reference) s x t

/-- One call after the other, however each of them ends. -/
abbrev Deletions (setup : Setup) (evidence : Evidence) : Site → Site → Prop :=
  Relation.ReflTransGen fun s t => ∃ x, Deletes setup evidence s x t

/-- The stage of a site. -/
abbrev Site.Stage (setup : Setup) (evidence : Evidence) (t₀ : Tree) (s : Site) : Prop :=
  DurableStorage.Stage setup evidence t₀ s.registry s.disk.tree

/-- The object is gone, is not owned and cannot be opened. -/
structure Removed (setup : Setup) (evidence : Evidence) (t₀ : Tree) (s : Site) : Prop where
  tree : s.disk.tree = withoutObject setup evidence t₀
  directory : evidence.directory setup ∉ paths s.disk.tree
  owned : ownsStoredObjectReference s.registry evidence.context evidence.result.reference = false
  opened : ∀ x t,
    Calls setup (openStoredObject setup evidence.context evidence.result.reference) s x t →
    x = .error (.engine .notFound)

lemma Gone.removed {s : Site} (htrees : Trees setup evidence t₀)
    (h : Gone setup evidence t₀ s.registry s.disk.tree) : Removed setup evidence t₀ s where
  tree := h.tree
  directory := by
    rw [h.tree]
    exact htrees.directoryGone
  owned := by
    rw [ownsStoredObjectReference, h.stored]
    rfl
  opened x t hcalls := by
    obtain ⟨l, hends, -⟩ := hcalls
    have hopen : Meets (reliable setup)
        (openStoredObject setup evidence.context evidence.result.reference)
        (fun _ _ _ => False) (fun f _ _ => f = .engine .notFound) { registry := s.registry }
        s.disk := by
      rw [openStoredObject, meets_bind, meets_get, h.stored]
      exact meets_throw.mpr rfl
    have hend := hends.of_follows hopen
    cases x with
    | ok bytes => exact hend.elim
    | error f => exact congrArg Except.error hend

/-- Every call of a run finds a stage of the deletion, and leaves one. -/
lemma Site.Stage.deletes {s t : Site} {x : Except Fault Bool} (htrees : Trees setup evidence t₀)
    (hfile : evidence.fileIdentity.isSome = true) (h : s.Stage setup evidence t₀)
    (hcall : Deletes setup evidence s x t) :
    t.Stage setup evidence t₀ ∧
      ∀ b, x = .ok b → b = true ∧ Gone setup evidence t₀ t.registry t.disk.tree := by
  obtain ⟨l, hregistry, hend⟩ := hcall.of_does (does_deleteStoredObject htrees hfile h)
  rw [Site.Stage, ← hregistry]
  cases x with
  | ok b =>
    refine ⟨.gone hend.2, fun b' hb => ?_⟩
    cases hb
    exact hend
  | error f => exact ⟨hend, fun b hb => nomatch hb⟩

lemma Stored.stage {s : Site} (h : Stored setup s.registry s.disk evidence) :
    s.Stage setup evidence s.disk.tree :=
  .whole ⟨h.stored, h.deleted, h.bySource⟩ rfl

lemma Site.Stage.deletions {s t : Site} (htrees : Trees setup evidence t₀)
    (hfile : evidence.fileIdentity.isSome = true) (h : s.Stage setup evidence t₀)
    (hrun : Deletions setup evidence s t) : t.Stage setup evidence t₀ := by
  induction hrun with
  | refl => exact h
  | tail _ hstep ih =>
    obtain ⟨x, hcall⟩ := hstep
    exact (ih.deletes htrees hfile hcall).1

lemma Stage.tree {t : Tree} (h : Stage setup evidence t₀ g t) :
    t ∈ [t₀, withoutFile setup evidence t₀, withoutObject setup evidence t₀] := by
  cases h with
  | whole _ htree => simp [htree]
  | emptied _ htree => simp [htree]
  | removed _ htree => simp [htree]
  | gone h => simp [h.tree]

/-- A call of the store that does not return leaves nothing of its own but directories that the
objects of a backup share, or says that something was left, or has stored the object, and a
repeated call returns it.  The deletions of a stored object, in any number and failing anywhere,
remove its file and its directory and nothing else; one that returns has removed both, and from
wherever they have come to, a call whose calls are answered removes both. -/
theorem durable_storage {s : Site} (hvalid : s.disk.Valid) :
    (∀ r x t, Calls setup (storeEncryptedArtifact setup r) s x t →
      ∃ a, x = .ok a ∧
        (∀ result, a = .returned result → existingEvidence s.registry r = none →
          ∃ evidence, evidence.result = result ∧ evidence.context = r.context ∧
            evidence.source = r.encryptedArtifact ∧ Stored setup t.registry t.disk evidence) ∧
        ∀ f incomplete, a = .raised f incomplete →
          (t.registry = s.registry ∧ Shared setup r.context s.disk.tree t.disk.tree) ∨
          incomplete = true ∨
          ∃ evidence, evidence.context = r.context ∧ evidence.source = r.encryptedArtifact ∧
            Stored setup t.registry t.disk evidence ∧
            answered setup (storeEncryptedArtifact setup r) t =
              (.ok (.returned evidence.result), t)) ∧
    ∀ evidence, Stored setup s.registry s.disk evidence → ∀ t, Deletions setup evidence s t →
      t.disk.tree ∈ [s.disk.tree, withoutFile setup evidence s.disk.tree,
        withoutObject setup evidence s.disk.tree] ∧
      (∀ b u, Deletes setup evidence t (.ok b) u →
        b = true ∧ Removed setup evidence s.disk.tree u) ∧
      ∃ u, answered setup
          (deleteStoredObject setup evidence.context evidence.result.reference) t = (.ok true, u) ∧
        Removed setup evidence s.disk.tree u := by
  refine ⟨fun r x t hcall => ?_, fun evidence hstored t hrun => ?_⟩
  · obtain ⟨l, hregistry, hend⟩ := hcall.of_does (does_storeEncryptedArtifact hvalid)
    cases x with
    | error f => exact hend.elim
    | ok a =>
      refine ⟨a, rfl, fun result ha hnew => ?_, fun f incomplete ha => ?_⟩
      · subst ha
        rw [← hregistry]
        exact hend hnew
      · subst ha
        rw [← hregistry]
        rcases hend with ⟨hsame, hshared | hincomplete⟩ | hpublished
        · exact .inl ⟨hsame, hshared⟩
        · exact .inr (.inl hincomplete)
        · obtain ⟨evidence, -, -, hcontext, hsource, hstored⟩ := hpublished
          rw [hregistry] at hstored ⊢
          exact .inr (.inr ⟨evidence, hcontext, hsource, hstored,
            answered_storeEncryptedArtifact hstored hcontext hsource⟩)
  · have htrees := hstored.intact.trees
    obtain ⟨i, bytes, hfile, -⟩ := hstored.intact.file
    have hsome : evidence.fileIdentity.isSome = true := Option.isSome_iff_exists.mpr ⟨i, hfile⟩
    have hstage := hstored.stage.deletions htrees hsome hrun
    refine ⟨hstage.tree, fun b u hcall => ?_, ?_⟩
    · obtain ⟨hb, hgone⟩ := (hstage.deletes htrees hsome hcall).2 b rfl
      exact ⟨hb, hgone.removed htrees⟩
    · obtain ⟨b, l, d, ⟨rfl, hgone⟩, hanswered⟩ :=
        (serves_deleteStoredObject (l := { registry := t.registry }) hstored.intact
          hstage).answered
      exact ⟨⟨l.registry, d⟩, hanswered, Gone.removed (s := ⟨l.registry, d⟩) htrees hgone⟩

/-! ## A vault -/

/-- A machine that refuses one kind of call. -/
def refusing (setup : Setup) (i₀ : StorageCall) :
    Machine Unit Disk StorageCall StorageCall.Result Fault where
  exec _ i d := if i = i₀ then (.error .error, d) else exec setup i d
  torn _ := false

lemma reliable_refusing {i₀ : StorageCall} (hi₀ : i₀.crucial = false) (d : Disk)
    (i : StorageCall) : (reliable setup).next d i ((refusing setup i₀).exec () i d).1
      ((refusing setup i₀).exec () i d).2 := by
  by_cases hi : i = i₀
  · subst hi
    refine ⟨.raised .error, ?_, fun hcrucial => ?_⟩
    · simp [refusing, Machine.answer]
    · rw [hi₀] at hcrucial
      cases hcrucial
  · refine ⟨.served, ?_, fun _ => rfl⟩
    simp [refusing, Machine.answer, machine, hi]

/-- A vault with an artifact of three bytes. -/
def vault : Setup where
  root := [.named "vault"]
  chunkBytes := 2
  maximumObjectBytes := 10
  required n := 2 * n
  free := 100
  now := 7
  sha256 bytes := if bytes.length = 3 then "three" else "other"
  artifact reference := if reference = 1 then some [[5, 6], [7]] else none
  validStream _ _ _ := true
  references _ := "stored"

/-- The same with a disk that is full. -/
def fullVault : Setup := { vault with free := 0 }

def vaultRequest : Request where
  context := ⟨3, "shop", "backup"⟩
  encryptedArtifact := ⟨1, 3, "three", true⟩

/-- An empty disk. -/
def emptySite : Site where
  registry := {}
  disk := { tree := [([], .directory 0)], nextInode := 1 }

lemma emptySite_valid : emptySite.disk.Valid where
  nodup := by simp [emptySite, paths]
  closed := by simp [emptySite]
  inodes := by simp [emptySite, Node.isFile]

/-- The hook that precedes the removal of the staged artifact. -/
def lateHook : StorageCall := .hook "before_encrypted_staging_cleanup"

lemma lateCall : (servedBy (refusing vault lateHook) (storeEncryptedArtifact vault vaultRequest)
    emptySite).1 = .ok (.raised (.engine .creation) false) ∧
    ((servedBy (refusing vault lateHook) (storeEncryptedArtifact vault vaultRequest)
      emptySite).2.registry.bySource (3, 1)).isSome = true := by
  decide +kernel

lemma fullCall : (servedBy (machine fullVault) (storeEncryptedArtifact fullVault vaultRequest)
    emptySite).1 = .ok (.raised (.engine .capacity) false) ∧
    existingEvidence (servedBy (machine fullVault) (storeEncryptedArtifact fullVault vaultRequest)
      emptySite).2.registry vaultRequest = none ∧
    find emptySite.disk.tree (fullVault.backup vaultRequest.context) = none ∧
    find (servedBy (machine fullVault) (storeEncryptedArtifact fullVault vaultRequest)
      emptySite).2.disk.tree (fullVault.backup vaultRequest.context) = some (.directory 4) := by
  decide +kernel

lemma calls_of_serve {M : Machine Unit Disk StorageCall StorageCall.Result Fault}
    (hnext : ∀ d i, (reliable setup).next d i (M.exec () i d).1 (M.exec () i d).2)
    (code : Code α) (s : Site) :
    Calls setup code s (servedBy M code s).1 (servedBy M code s).2 :=
  ⟨_, Prog.ends_of_serve hnext _ _, rfl⟩

/-- A call that fails after the object was published: the next one returns the object, and a
deletion removes it. -/
theorem durable_storage_late :
    ∃ t, Calls vault (storeEncryptedArtifact vault vaultRequest) emptySite
        (.ok (.raised (.engine .creation) false)) t ∧
      ∃ evidence, Stored vault t.registry t.disk evidence ∧
        answered vault (storeEncryptedArtifact vault vaultRequest) t =
          (.ok (.returned evidence.result), t) ∧
        ∃ u, answered vault
            (deleteStoredObject vault evidence.context evidence.result.reference) t =
              (.ok true, u) ∧ Removed vault evidence t.disk.tree u := by
  have hnext : ∀ d i, (reliable vault).next d i ((refusing vault lateHook).exec () i d).1
      ((refusing vault lateHook).exec () i d).2 := reliable_refusing rfl
  have hcall := calls_of_serve hnext (storeEncryptedArtifact vault vaultRequest) emptySite
  rw [lateCall.1] at hcall
  obtain ⟨a, ha, -, hraised⟩ := (durable_storage emptySite_valid).1 _ _ _ hcall
  cases ha
  refine ⟨_, hcall, ?_⟩
  rcases hraised _ _ rfl with ⟨hregistry, -⟩ | hincomplete | ⟨evidence, -, -, hstored, hagain⟩
  · have hsome := lateCall.2
    rw [hregistry] at hsome
    exact nomatch hsome
  · exact nomatch hincomplete
  · have hdelete := (durable_storage hstored.valid).2 evidence hstored _ .refl
    exact ⟨evidence, hstored, hagain, hdelete.2.2⟩

/-- On a disk that is full the store fails and does not say that anything was left, but the
directories that it made are there. -/
theorem durable_storage_leaves_directories :
    ∃ t, Calls fullVault (storeEncryptedArtifact fullVault vaultRequest) emptySite
        (.ok (.raised (.engine .capacity) false)) t ∧
      existingEvidence t.registry vaultRequest = none ∧
      find emptySite.disk.tree (fullVault.backup vaultRequest.context) = none ∧
      find t.disk.tree (fullVault.backup vaultRequest.context) = some (.directory 4) := by
  have hcall := calls_of_serve (M := machine fullVault)
    (fun d i => (⟨.served, rfl, fun _ => rfl⟩ : (reliable fullVault).next d i _ _))
    (storeEncryptedArtifact fullVault vaultRequest) emptySite
  rw [fullCall.1] at hcall
  exact ⟨_, hcall, fullCall.2⟩

end NexaPos.Backups.DurableStorage
