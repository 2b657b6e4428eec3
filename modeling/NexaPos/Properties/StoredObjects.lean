import NexaPos.Backups.Reattestation
import NexaPos.Properties.ObjectFrames

/-!
# Stored objects over the life of a provider

A provider is asked to store, to delete and to open, in any order, and every call may fail anywhere.
What it keeps (`Kept`) says that each key has the evidence of its own object and that an object
whose file has not been removed is there; every call keeps that.  So an object lasts until its own
deletion is called, a reference names one object for ever, and a deletion that returned is final.
-/

namespace NexaPos.Backups.DurableStorage

open FileTree Routine

variable {setup : Setup} {α β : Type} {l : Locals} {d d' : Disk} {p : Path} {e : StorageError}
  {Q : α → Locals → Disk → Prop} {R : Locals → Disk → Prop} {c : Context} {reference : String}
  {r : Request} {g : Registry} {evidence : Evidence} {k : ℕ × String}

/-! ## A deletion -/

/-- Nothing changes in the registry but what belongs to a key. -/
structure Elsewhere (k : ℕ × String) (g g' : Registry) : Prop where
  stored : ∀ k', k' ≠ k → g'.stored k' = g.stored k'
  deleted : ∀ k', k' ≠ k → g'.deleted k' = g.deleted k'
  bySource : ∀ source k', k' ≠ k → g.bySource source = some k' → g'.bySource source = some k'

lemma Elsewhere.refl : Elsewhere k g g := ⟨fun _ _ => rfl, fun _ _ => rfl, fun _ _ _ h => h⟩

lemma Elsewhere.forget {g' : Registry} (h : Elsewhere k g g') (hkey : evidence.key = k) :
    Elsewhere k g (g'.forget evidence) where
  stored k' hk' := by
    rw [← hkey] at hk'
    exact (Function.update_of_ne hk' _ _).trans (h.stored k' (hkey ▸ hk'))
  deleted k' hk' := by
    rw [← hkey] at hk'
    exact (Function.update_of_ne hk' _ _).trans (h.deleted k' (hkey ▸ hk'))
  bySource source k' hk' hsource := by
    have hbefore := h.bySource source k' hk' hsource
    simp only [Registry.forget]
    split
    · rename_i hmine
      rw [Function.update_of_ne]
      · exact hbefore
      · rintro rfl
        exact hk' (Option.some.inj (hbefore.symm.trans hmine) ▸ hkey)
    · exact hbefore

lemma Looks.keeps_locals {P : Locals → Prop} {x : Code α} (hx : Looks setup x) :
    Keeps (reliable setup) (fun l _ => P l) x := fun l d h =>
  (hx l d).mono (fun _ _ _ h' => h'.1 ▸ h) fun _ _ h' => h'.1 ▸ h

/-- The code changes nothing in the registry but what belongs to a key. -/
abbrev Local (setup : Setup) (k : ℕ × String) (g : Registry) (x : Code α) : Prop :=
  Keeps (reliable setup) (fun l _ => Elsewhere k g l.registry) x

lemma local_forgetEvidence (hkey : evidence.key = k) :
    Local setup k g (forgetEvidence evidence) :=
  keeps_bind keeps_get fun _ => keeps_bind keeps_refuseIf fun _ =>
    keeps_modify fun _ _ h => h.forget hkey

lemma local_replaceEvidence {updated : Evidence} (hkey : evidence.key = k) :
    Local setup k g (replaceEvidence evidence updated) :=
  keeps_bind keeps_get fun _ => keeps_bind keeps_refuseIf fun _ => keeps_modify fun _ _ h =>
    ⟨fun k' hk' => (Function.update_of_ne (fun heq => hk' (heq.trans hkey)) _ _).trans
      (h.stored k' hk'), h.deleted, h.bySource⟩

lemma local_deleteDirectory (hkey : evidence.key = k) :
    Local setup k g (deleteDirectory evidence p) :=
  keeps_bind looks_directoryState.keeps_locals fun _ => keeps_bind keeps_refuseIf fun _ =>
    keeps_bind keeps_ask_locals fun _ => keeps_bind keeps_refuseIf fun _ =>
    keeps_bind keeps_ask_locals fun _ => keeps_bind keeps_ask_locals fun _ =>
    keeps_bind looks_lexists.keeps_locals fun _ => keeps_bind keeps_refuseIf fun _ =>
    keeps_bind (local_forgetEvidence hkey) fun _ => keeps_pure

lemma local_unlinkFile : Local setup k g (unlinkFile p) :=
  keeps_tryCatch (keeps_bind keeps_ask_locals fun _ => keeps_pure) fun _ =>
    keeps_bind looks_lexists.keeps_locals fun _ => keeps_ite keeps_throw keeps_pure

lemma local_deleteBody (hkey : evidence.key = k) :
    Local setup k g (deleteBody setup evidence) := by
  rw [deleteBody]
  cases evidence.fileIdentity with
  | some i =>
    refine keeps_bind looks_validatePath.keeps_locals fun _ => keeps_bind keeps_ask_locals fun _ =>
      keeps_bind local_unlinkFile fun abort => keeps_bind looks_lexists.keeps_locals fun _ =>
      keeps_bind keeps_refuseIf fun _ => keeps_bind (local_replaceEvidence hkey) fun _ => ?_
    cases abort with
    | some f => exact keeps_throw
    | none => exact local_deleteDirectory hkey
  | none =>
    refine keeps_bind looks_objectPaths.keeps_locals fun _ =>
      keeps_bind looks_lexists.keeps_locals fun _ => keeps_ite ?_ ?_
    · exact keeps_bind looks_lexists.keeps_locals fun _ => keeps_bind keeps_refuseIf fun _ =>
        local_deleteDirectory hkey
    · exact keeps_bind (local_forgetEvidence hkey) fun _ => keeps_pure

/-- What a deletion of an object without its file comes to. -/
def Cleared (setup : Setup) (evidence : Evidence) (start : Disk) (l₀ : Registry) (l : Locals)
    (d : Disk) : Prop :=
  (l.registry = l₀ ∨ l.registry = l₀.forget evidence) ∧
    (d.tree = start.tree ∨
      removeDirectory start.tree (evidence.directory setup) = some d.tree)

lemma cleared_forgetEvidence (h : Cleared setup evidence d l.registry l d') :
    Does setup (forgetEvidence evidence)
      (fun _ l' d'' => l'.registry = l.registry.forget evidence ∧
        Cleared setup evidence d l.registry l' d'')
      (Cleared setup evidence d l.registry) l d' := by
  rw [forgetEvidence, does_bind, does_get, does_bind]
  exact does_refuseIf (fun _ => h) fun _ => ⟨rfl, .inr rfl, h.2⟩

lemma cleared_deleteDirectory :
    Does setup (deleteDirectory evidence (evidence.directory setup))
      (fun _ l' d' => l'.registry = l.registry.forget evidence ∧
        Cleared setup evidence d l.registry l' d')
      (Cleared setup evidence d l.registry) l d := by
  have hstay : ∀ d', Same d d' → Cleared setup evidence d l.registry l d' := fun d' hsame =>
    ⟨.inl rfl, .inl hsame.1⟩
  refine does_deleteDirectory_of hstay fun d₅ h₅ => ?_
  have hafter : Cleared setup evidence d l.registry l
      (exec setup (.rmdir (evidence.directory setup)) d₅).2 := by
    refine ⟨.inl rfl, ?_⟩
    simp only [exec, h₅.1]
    cases hremoved : removeDirectory d.tree (evidence.directory setup) with
    | none => exact .inl h₅.1
    | some tree => exact .inr rfl
  rw [does_bind]
  refine does_ask (hstay d₅ h₅) hafter fun a d' hexec => ?_
  rw [hexec] at hafter
  rw [does_bind, does_lexists, does_bind]
  refine does_refuseIf (fun _ => hafter) fun _ => ?_
  rw [does_bind]
  exact (cleared_forgetEvidence hafter).mono (fun _ _ _ h' => h') fun _ _ h' => h'

lemma cleared_deleteBody (hfile : evidence.fileIdentity = none) :
    Does setup (deleteBody setup evidence)
      (fun _ l' d' => l'.registry = l.registry.forget evidence ∧
        Cleared setup evidence d l.registry l' d')
      (Cleared setup evidence d l.registry) l d := by
  have hstay : ∀ d', Same d d' → Cleared setup evidence d l.registry l d' := fun d' hsame =>
    ⟨.inl rfl, .inl hsame.1⟩
  rw [deleteBody, hfile]
  dsimp only
  refine looks_objectPaths.does_bind hstay fun _ d₁ h₁ => ?_
  have hagain : ∀ l' d', Cleared setup evidence d₁ l.registry l' d' →
      Cleared setup evidence d l.registry l' d' := by
    intro l' d' h'
    rw [Cleared, h₁.1] at h'
    exact h'
  rw [does_bind, does_lexists]
  split
  · rw [does_bind, does_lexists, does_bind]
    refine does_refuseIf (fun _ => hstay d₁ h₁) fun _ => ?_
    exact cleared_deleteDirectory.mono (fun _ _ _ h' => h'.imp_right (hagain _ _))
      fun _ _ h' => hagain _ _ h'
  · rw [does_bind]
    exact (cleared_forgetEvidence (hstay d₁ h₁)).mono (fun _ _ _ h' => h') fun _ _ h' => h'

/-! ## Every call leaves a sound disk -/

lemma valid_exec (h : d.Valid) (i : StorageCall) : (exec setup i d).2.Valid := by
  have hnew : ∀ (q : Path) (n : Node), (∀ j, n.isFile j = true → j = d.nextInode) →
      (d.onNew (FileTree.insert d.tree q n)).2.Valid := by
    intro q n hn
    cases ht : FileTree.insert d.tree q n with
    | none => exact h
    | some t =>
      exact valid_insert h ht (Nat.le_succ _) fun j hj => Nat.lt_succ_of_le (Nat.le_of_eq (hn j hj))
  cases i with
  | ensureDirectory q =>
    simp only [exec]
    split
    · exact h
    · exact hnew q _ fun j hj => by cases hj
  | mkdir q => exact hnew q _ fun j hj => by cases hj
  | create q => exact hnew q _ fun j hj => (beq_iff_eq.mp hj).symm
  | write q chunk =>
    simp only [exec]
    split
    · exact valid_append h _ _
    · exact h
  | link source target =>
    simp only [exec]
    cases ht : FileTree.link d.tree source target with
    | none => exact h
    | some t =>
      obtain ⟨i, bytes, hfind, hinsert⟩ := link_eq_some ht
      exact valid_insert h hinsert (Nat.le_refl _) fun j hj => h.inodes _ (mem_of_find hfind) j hj
  | unlink q =>
    simp only [exec]
    cases ht : FileTree.unlink d.tree q with
    | none => exact h
    | some t => exact valid_unlink h ht
  | rmdir q =>
    simp only [exec]
    cases ht : removeDirectory d.tree q with
    | none => exact h
    | some t => exact valid_rmdir h ht
  | _ => exact h.congr (exec_quiet rfl d)

lemma Calls.valid {code : Code α} {s t : Site} {x : Except Fault α} (h : Calls setup code s x t)
    (hvalid : s.disk.Valid) : t.disk.Valid := by
  obtain ⟨l, hends, -⟩ := h
  have hkept : ∀ d i x d', d.Valid → True → (reliable setup).next d i x d' → d'.Valid := by
    rintro d i x d' hd - ⟨c, hc, -⟩
    cases c with
    | served =>
      obtain rfl : (exec setup i d).2 = d' := congrArg Prod.snd hc
      exact valid_exec hd i
    | raised f =>
      cases hc
      exact hd
    | lost f =>
      cases hc
      show Disk.Valid (if (machine setup).torn i = true then (exec setup i d).2 else d)
      split
      · exact valid_exec hd i
      · exact hd
  exact (hends.of_follows ((follows_any _ _).invariant hkept hvalid)).2

/-! ## What a provider keeps -/

/-- The file of the object has the bytes of the artifact that it was copied from. -/
def HoldsArtifact (setup : Setup) (d : Disk) (e : Evidence) : Prop :=
  ∃ chunks i, setup.artifact e.source.reference = some chunks ∧
    HasFile (e.final setup) i (readBytes chunks) d

lemma HoldsArtifact.stays (h : HoldsArtifact setup d evidence)
    (hstays : Stays setup evidence d d') : HoldsArtifact setup d' evidence := by
  obtain ⟨chunks, i, hartifact, hfile⟩ := h
  exact ⟨chunks, i, hartifact, hstays.file.trans hfile⟩

/-- Every key has the evidence of its own object, and an object whose file has not been removed is
there, with the bytes of its artifact and in a directory of its own. -/
structure Kept (setup : Setup) (s : Site) : Prop where
  valid : s.disk.Valid
  key : ∀ k e, s.registry.stored k = some e → e.key = k
  sized : ∀ k e, s.registry.stored k = some e → 0 < e.source.encryptedByteCount
  deleted : ∀ k e, s.registry.stored k = some e → s.registry.deleted k = none
  bySource : ∀ k e, s.registry.stored k = some e →
    s.registry.bySource (sourceKey e.context e.source) = some k
  intact : ∀ k e, s.registry.stored k = some e → e.fileIdentity.isSome = true →
    Intact setup s.disk e
  content : ∀ k e, s.registry.stored k = some e → e.fileIdentity.isSome = true →
    HoldsArtifact setup s.disk e
  apart : ∀ k e k' e', s.registry.stored k = some e → s.registry.stored k' = some e' →
    e.fileIdentity.isSome = true → e'.fileIdentity.isSome = true →
    e.directory setup = e'.directory setup → k = k'

lemma kept_empty {s : Site} (hempty : s.registry = {}) (hvalid : s.disk.Valid) : Kept setup s := by
  have hnone : ∀ {k e}, s.registry.stored k ≠ some e := fun {k e} h => by
    rw [hempty] at h
    exact nomatch h
  exact ⟨hvalid, fun _ _ h => (hnone h).elim, fun _ _ h => (hnone h).elim,
    fun _ _ h => (hnone h).elim, fun _ _ h => (hnone h).elim, fun _ _ h => (hnone h).elim,
    fun _ _ h => (hnone h).elim, fun _ _ _ _ h => (hnone h).elim⟩

lemma Kept.isStored {s : Site} (h : Kept setup s) (hstored : s.registry.stored k = some evidence)
    (hfile : evidence.fileIdentity.isSome = true) :
    Stored setup s.registry s.disk evidence := by
  obtain rfl := h.key _ _ hstored
  exact ⟨hstored, h.deleted _ _ hstored, h.bySource _ _ hstored, h.intact _ _ hstored hfile,
    h.valid⟩

lemma Intact.isSome (h : Intact setup d evidence) : evidence.fileIdentity.isSome = true := by
  obtain ⟨i, bytes, hi, -⟩ := h.file
  exact Option.isSome_iff_exists.mpr ⟨i, hi⟩

variable {s t : Site}

/-- What is stored under another key has another source. -/
lemma Enters.stored_of_ne {g' : Registry} {start : Disk} (h : Enters setup r g start evidence g' d)
    (hk : k ≠ evidence.key) : g'.stored k = g.stored k := by
  rw [h.registry]
  exact Function.update_of_ne hk _ _

lemma Enters.stored_self {g' : Registry} {start : Disk}
    (h : Enters setup r g start evidence g' d) : g'.stored evidence.key = some evidence := by
  rw [h.registry]
  exact Function.update_self ..

/-- A new object is kept beside the others. -/
lemma Kept.enters (h : Kept setup s) (hvalid : t.disk.Valid)
    (hentered : Enters setup r s.registry s.disk evidence t.registry t.disk) : Kept setup t := by
  have hcases : ∀ k e, t.registry.stored k = some e →
      (k = evidence.key ∧ e = evidence) ∨
        (k ≠ evidence.key ∧ s.registry.stored k = some e) := by
    intro k e he
    by_cases hk : k = evidence.key
    · rw [hk, hentered.stored_self] at he
      exact .inl ⟨hk, (Option.some.inj he).symm⟩
    · rw [hentered.stored_of_ne hk] at he
      exact .inr ⟨hk, he⟩
  have hdeleted : t.registry.deleted = s.registry.deleted := by rw [hentered.registry]; rfl
  refine ⟨hvalid, fun k e he => ?_, fun k e he => ?_, fun k e he => ?_, fun k e he => ?_,
    fun k e he hfile => ?_, fun k e he hfile => ?_,
    fun k e k' e' he he' hfile hfile' hsame => ?_⟩
  · rcases hcases k e he with ⟨rfl, rfl⟩ | ⟨-, he⟩
    · rfl
    · exact h.key k e he
  · rcases hcases k e he with ⟨rfl, rfl⟩ | ⟨-, he⟩
    · exact hentered.sized
    · exact h.sized k e he
  · rw [hdeleted]
    rcases hcases k e he with ⟨rfl, rfl⟩ | ⟨-, he⟩
    · exact hentered.deleted
    · exact h.deleted k e he
  · rw [hentered.registry]
    rcases hcases k e he with ⟨rfl, rfl⟩ | ⟨hk, he⟩
    · exact Function.update_self ..
    · have hsource := h.bySource k e he
      refine (Function.update_of_ne (fun heq => ?_) _ _).trans hsource
      rw [heq, hentered.bySource] at hsource
      exact nomatch hsource
  · rcases hcases k e he with ⟨rfl, rfl⟩ | ⟨-, he⟩
    · exact hentered.intact
    · exact (hentered.spares e (h.intact k e he hfile)).intact
  · rcases hcases k e he with ⟨rfl, rfl⟩ | ⟨-, he⟩
    · rw [HoldsArtifact, hentered.source]
      exact hentered.content
    · exact (h.content k e he hfile).stays (hentered.spares e (h.intact k e he hfile))
  · rcases hcases k e he with ⟨rfl, rfl⟩ | ⟨-, hbefore⟩ <;>
      rcases hcases k' e' he' with ⟨rfl, rfl⟩ | ⟨-, hbefore'⟩
    · rfl
    · exact absurd hsame.symm (hentered.apart e' (h.intact k' e' hbefore' hfile'))
    · exact absurd hsame (hentered.apart e (h.intact k e hbefore hfile))
    · exact h.apart k e k' e' hbefore hbefore' hfile hfile' hsame

/-- Nothing but the disk changes, and the objects stay. -/
lemma Kept.spared (h : Kept setup s) (hvalid : t.disk.Valid) (hregistry : t.registry = s.registry)
    (hspares : Spares setup s.disk t.disk) : Kept setup t := by
  refine ⟨hvalid, ?_, ?_, ?_, ?_, ?_, ?_, ?_⟩ <;> rw [hregistry]
  · exact h.key
  · exact h.sized
  · exact h.deleted
  · exact h.bySource
  · exact fun k e he hfile => (hspares e (h.intact k e he hfile)).intact
  · exact fun k e he hfile =>
      (h.content k e he hfile).stays (hspares e (h.intact k e he hfile))
  · exact h.apart

lemma advances_of_calls (h : Kept setup s) {x : Except Fault Answer}
    (hcall : Calls setup (storeEncryptedArtifact setup r) s x t) :
    Advances setup r s.registry s.disk t.registry t.disk ∧
      ∀ result, x = .ok (.returned result) →
        Answers setup r s.registry s.disk result t.registry t.disk := by
  obtain ⟨l, hregistry, hend⟩ := hcall.of_does (advances_storeEncryptedArtifact h.valid)
  rw [← hregistry]
  cases x with
  | error f => exact hend.elim
  | ok a =>
    refine ⟨hend.1, fun result ha => hend.2 result ?_⟩
    exact Except.ok.inj ha

lemma Kept.store (h : Kept setup s) {x : Except Fault Answer}
    (hcall : Calls setup (storeEncryptedArtifact setup r) s x t) : Kept setup t := by
  rcases (advances_of_calls h hcall).1 with ⟨hregistry, hspares⟩ | ⟨e, hentered⟩
  · exact h.spared (hcall.valid h.valid) hregistry hspares
  · exact h.enters (hcall.valid h.valid) hentered

/-- What a deletion can do. -/
inductive Drops (setup : Setup) (k : ℕ × String) (s t : Site) : Prop
  | idle (hregistry : t.registry = s.registry) (htree : t.disk.tree = s.disk.tree)
  | staged (e : Evidence) (hstored : s.registry.stored k = some e)
      (hfile : e.fileIdentity.isSome = true) (hstage : t.Stage setup e s.disk.tree)
  | cleared (e : Evidence) (hstored : s.registry.stored k = some e)
      (hfile : e.fileIdentity = none)
      (hregistry : t.registry = s.registry ∨ t.registry = s.registry.forget e)
      (htree : t.disk.tree = s.disk.tree ∨
        removeDirectory s.disk.tree (e.directory setup) = some t.disk.tree)

lemma does_deleteStoredObject_idle {P : Prop}
    (h : l.registry.stored (stateKey c reference) = none ∨
      (l.registry.deleted (stateKey c reference)).isSome = true ∨
      ∃ e, l.registry.stored (stateKey c reference) = some e ∧ e.context ≠ c)
    (hdeleted : (l.registry.deleted (stateKey c reference)).isSome = true → P) :
    Does setup (deleteStoredObject setup c reference) (fun _ l' d' => (l' = l ∧ Same d d') ∧ P)
      (fun l' d' => l' = l ∧ Same d d') l d := by
  rw [deleteStoredObject, does_bind, does_get]
  cases hcase : l.registry.deleted (stateKey c reference) with
  | some e =>
    refine does_bind.mpr (does_refuseIf (fun _ => ⟨rfl, Same.refl d⟩) fun _ => ?_)
    exact ⟨⟨rfl, Same.refl d⟩, hdeleted (by rw [hcase]; rfl)⟩
  | none =>
    dsimp only
    rcases h with hnone | hsome | ⟨e, he, hcontext⟩
    · rw [hnone]
      exact ⟨rfl, Same.refl d⟩
    · rw [hcase] at hsome
      cases hsome
    · rw [he]
      exact does_bind.mpr (does_refuseIf (fun _ => ⟨rfl, Same.refl d⟩)
        fun hother => absurd hcontext hother)

lemma does_deleteStoredObject_cleared
    (hstored : l.registry.stored (stateKey c reference) = some evidence)
    (hdeleted : l.registry.deleted (stateKey c reference) = none)
    (hcontext : evidence.context = c) (hfile : evidence.fileIdentity = none) :
    Does setup (deleteStoredObject setup c reference)
      (fun _ l' d' => l'.registry = l.registry.forget evidence ∧
        Cleared setup evidence d l.registry l' d')
      (Cleared setup evidence d l.registry) l d := by
  rw [deleteStoredObject, does_bind, does_get, hdeleted]
  dsimp only
  rw [hstored]
  refine does_bind.mpr (does_refuseIf (fun hother => absurd hcontext hother) fun _ => ?_)
  refine does_tryCatch ((cleared_deleteBody hfile).mono (fun _ _ _ h => h) fun l' d' h f => ?_)
  split
  · exact h
  · exact h

/-- A call of the deletion, and what it means that it returns. -/
lemma Kept.drops (h : Kept setup s) {x : Except Fault Bool}
    (hcall : Calls setup (deleteStoredObject setup c reference) s x t) :
    Drops setup (stateKey c reference) s t ∧ ∀ b, x = .ok b →
      t.registry.stored (stateKey c reference) = none ∧
        (t.registry.deleted (stateKey c reference)).isSome = true := by
  by_cases hidle : s.registry.stored (stateKey c reference) = none ∨
      (s.registry.deleted (stateKey c reference)).isSome = true ∨
      ∃ e, s.registry.stored (stateKey c reference) = some e ∧ e.context ≠ c
  · obtain ⟨l, hregistry, hend⟩ := hcall.of_does
      (does_deleteStoredObject_idle (l := { registry := s.registry }) hidle fun h' => h')
    cases x with
    | error f =>
      obtain ⟨rfl, hsame⟩ := hend
      exact ⟨.idle hregistry.symm hsame.1, fun b hb => nomatch hb⟩
    | ok b =>
      obtain ⟨⟨rfl, hsame⟩, hdeleted⟩ := hend
      refine ⟨.idle hregistry.symm hsame.1, fun b' _ => ?_⟩
      rw [← hregistry]
      refine ⟨?_, hdeleted⟩
      cases hstored : s.registry.stored (stateKey c reference) with
      | none => rfl
      | some e =>
        rw [show s.registry.deleted _ = none from h.deleted _ _ hstored] at hdeleted
        exact nomatch hdeleted
  · simp only [not_or, not_exists, not_and, not_not] at hidle
    obtain ⟨hstored, hdeleted, hcontext⟩ := hidle
    obtain ⟨e, he⟩ := Option.ne_none_iff_exists'.mp hstored
    obtain rfl := hcontext e he
    have hkey : stateKey e.context e.result.reference = stateKey e.context reference :=
      h.key _ _ he
    obtain rfl : e.result.reference = reference := (Prod.mk.inj hkey).2
    have hnone : s.registry.deleted (stateKey e.context e.result.reference) = none := by
      simpa using hdeleted
    cases hfile : e.fileIdentity with
    | some i =>
      have hsome : e.fileIdentity.isSome = true := Option.isSome_iff_exists.mpr ⟨i, hfile⟩
      have hwhole := h.isStored he hsome
      obtain ⟨hstage, hreturned⟩ := hwhole.stage.deletes hwhole.intact.trees hsome hcall
      refine ⟨.staged e he hsome hstage, fun b hb => ?_⟩
      obtain ⟨-, hgone⟩ := hreturned b hb
      obtain ⟨e', he', -⟩ := hgone.deleted
      exact ⟨hgone.stored, Option.isSome_iff_exists.mpr ⟨e', he'⟩⟩
    | none =>
      obtain ⟨l, hregistry, hend⟩ := hcall.of_does
        (does_deleteStoredObject_cleared (l := { registry := s.registry }) he hnone rfl hfile)
      cases x with
      | error f =>
        refine ⟨.cleared e he hfile ?_ hend.2, fun b hb => nomatch hb⟩
        rw [← hregistry]
        exact hend.1
      | ok b =>
        refine ⟨.cleared e he hfile ?_ hend.2.2, fun b' _ => ?_⟩
        · rw [← hregistry]
          exact hend.2.1
        · rw [← hregistry, hend.1]
          exact ⟨Function.update_self .., Option.isSome_iff_exists.mpr
            ⟨e, Function.update_self ..⟩⟩

lemma local_deleteStoredObject
    (hkey : ∀ e, l.registry.stored (stateKey c reference) = some e → e.key = stateKey c reference) :
    Does setup (deleteStoredObject setup c reference)
      (fun _ l' _ => Elsewhere (stateKey c reference) l.registry l'.registry)
      (fun l' _ => Elsewhere (stateKey c reference) l.registry l'.registry) l d := by
  rw [deleteStoredObject, does_bind, does_get]
  cases l.registry.deleted (stateKey c reference) with
  | some e => exact does_bind.mpr (does_refuseIf (fun _ => .refl) fun _ => Elsewhere.refl)
  | none =>
    dsimp only
    cases hstored : l.registry.stored (stateKey c reference) with
    | none => exact Elsewhere.refl
    | some e =>
      refine does_bind.mpr (does_refuseIf (fun _ => .refl) fun _ => ?_)
      exact keeps_tryCatch (local_deleteBody (hkey e hstored))
        (fun _ => keeps_ite keeps_throw keeps_throw) l d .refl

lemma Kept.elsewhere (h : Kept setup s) {x : Except Fault Bool}
    (hcall : Calls setup (deleteStoredObject setup c reference) s x t) :
    Elsewhere (stateKey c reference) s.registry t.registry := by
  obtain ⟨l, hregistry, hend⟩ := hcall.of_does
    (local_deleteStoredObject (l := { registry := s.registry }) fun e he => h.key _ e he)
  rw [← hregistry]
  cases x with
  | ok b => exact hend
  | error f => exact hend

/-- The objects in other directories stay when the file and the directory of an object go. -/
lemma Intact.withoutObject {other : Evidence} {d₀ : Disk} (h : Intact setup d evidence)
    (hother : Intact setup d other) (hne : other.directory setup ≠ evidence.directory setup)
    (htree : d₀.tree ∈ [d.tree, withoutFile setup other d.tree,
      DurableStorage.withoutObject setup other d.tree]) : Stays setup evidence d d₀ := by
  obtain ⟨i, bytes, hfound⟩ := hother.trees.file
  have hunlink : FileTree.unlink d.tree (other.final setup) =
      some (withoutFile setup other d.tree) := by
    rw [FileTree.unlink, hfound]
    rfl
  have hrmdir : removeDirectory (withoutFile setup other d.tree) (other.directory setup) =
      some (DurableStorage.withoutObject setup other d.tree) := by
    rw [removeDirectory, hother.trees.directory, isEmpty_of_childNames hother.trees.empty]
    rfl
  have hfile : Stays setup evidence d { d with tree := withoutFile setup other d.tree } :=
    h.unlink hne hunlink
  simp only [List.mem_cons, List.not_mem_nil, or_false] at htree
  rcases htree with htree | htree | htree
  · exact h.same htree
  · exact hfile.trans (hfile.intact.same htree)
  · exact hfile.trans (hfile.intact.rmdir (by rw [htree]; exact hrmdir))

/-- The objects in other directories stay. -/
lemma Intact.drops (hintact : Intact setup s.disk evidence) (h : Kept setup s)
    (hdrops : Drops setup k s t)
    (hother : ∀ e, s.registry.stored k = some e → e.fileIdentity.isSome = true →
      e.directory setup ≠ evidence.directory setup) : Stays setup evidence s.disk t.disk := by
  cases hdrops with
  | idle _ htree => exact hintact.same htree
  | staged e he hsome hstage =>
    exact hintact.withoutObject (h.intact k e he hsome) (hother e he hsome) hstage.tree
  | cleared e he _ _ htree =>
    rcases htree with htree | htree
    · exact hintact.same htree
    · exact hintact.rmdir htree

/-- The objects under other keys stay. -/
lemma Kept.stays_drops (h : Kept setup s) (hdrops : Drops setup k s t) {k' : ℕ × String}
    (hk : k' ≠ k) (hstored : s.registry.stored k' = some evidence)
    (hfile : evidence.fileIdentity.isSome = true) : Stays setup evidence s.disk t.disk :=
  (h.intact k' evidence hstored hfile).drops h hdrops fun e he hsome hsame =>
    hk (h.apart k e k' evidence he hstored hsome hfile hsame).symm

/-- What a key still has after a deletion. -/
structure Remains (k : ℕ × String) (s t : Site) (e e' : Evidence) : Prop where
  before : s.registry.stored k = some e
  context : e'.context = e.context
  source : e'.source = e.source
  result : e'.result = e.result
  deleted : t.registry.deleted k = none
  bySource : t.registry.bySource (sourceKey e'.context e'.source) = some k
  whole : e'.fileIdentity.isSome = true → e' = e ∧ t.disk.tree = s.disk.tree

lemma Kept.remains (h : Kept setup s) (hdrops : Drops setup k s t) {e' : Evidence}
    (he' : t.registry.stored k = some e') : ∃ e, Remains k s t e e' := by
  have hsame : t.registry = s.registry → s.registry.stored k = some e' ∧
      t.registry.deleted k = none ∧
      t.registry.bySource (sourceKey e'.context e'.source) = some k := by
    intro hregistry
    rw [hregistry] at he' ⊢
    exact ⟨he', h.deleted k e' he', h.bySource k e' he'⟩
  cases hdrops with
  | idle hregistry htree =>
    obtain ⟨hbefore, hdeleted, hsource⟩ := hsame hregistry
    exact ⟨e', hbefore, rfl, rfl, rfl, hdeleted, hsource, fun _ => ⟨rfl, htree⟩⟩
  | staged e he _ hstage =>
    obtain rfl := h.key k e he
    cases hstage with
    | whole hknown htree =>
      obtain rfl := Option.some.inj (he'.symm.trans hknown.stored)
      exact ⟨e', he, rfl, rfl, rfl, hknown.deleted, hknown.bySource, fun _ => ⟨rfl, htree⟩⟩
    | emptied hknown _ =>
      obtain rfl := Option.some.inj (he'.symm.trans hknown.stored)
      exact ⟨e, he, rfl, rfl, rfl, hknown.deleted, hknown.bySource, fun hfile => nomatch hfile⟩
    | removed hknown _ =>
      obtain rfl := Option.some.inj (he'.symm.trans hknown.stored)
      exact ⟨e, he, rfl, rfl, rfl, hknown.deleted, hknown.bySource, fun hfile => nomatch hfile⟩
    | gone hgone => exact nomatch he'.symm.trans hgone.stored
  | cleared e he hfile hregistry _ =>
    rcases hregistry with hregistry | hregistry
    · obtain ⟨hbefore, hdeleted, hsource⟩ := hsame hregistry
      obtain rfl := Option.some.inj (he.symm.trans hbefore)
      exact ⟨e, hbefore, rfl, rfl, rfl, hdeleted, hsource, fun hsome => by
        rw [hfile] at hsome
        exact nomatch hsome⟩
    · obtain rfl := h.key k e he
      have hnone : t.registry.stored e.key = none := by
        rw [hregistry]
        exact Function.update_self ..
      exact nomatch he'.symm.trans hnone

lemma Kept.delete (h : Kept setup s) {x : Except Fault Bool}
    (hcall : Calls setup (deleteStoredObject setup c reference) s x t) : Kept setup t := by
  obtain ⟨hdrops, -⟩ := h.drops hcall
  have helse := h.elsewhere hcall
  generalize stateKey c reference = k at hdrops helse
  have hcases : ∀ k' e', t.registry.stored k' = some e' →
      (k' = k ∧ ∃ e, Remains k s t e e') ∨ (k' ≠ k ∧ s.registry.stored k' = some e') := by
    intro k' e' he'
    by_cases hk : k' = k
    · exact .inl ⟨hk, h.remains hdrops (hk ▸ he')⟩
    · exact .inr ⟨hk, (helse.stored k' hk).symm.trans he'⟩
  -- an object whose file is there was there before, under the same key
  have hbefore : ∀ k' e', t.registry.stored k' = some e' → e'.fileIdentity.isSome = true →
      s.registry.stored k' = some e' ∧ Stays setup e' s.disk t.disk := by
    intro k' e' he' hfile
    rcases hcases k' e' he' with ⟨rfl, e, hremains⟩ | ⟨hk, he⟩
    · obtain ⟨rfl, htree⟩ := hremains.whole hfile
      exact ⟨hremains.before, (h.intact _ _ hremains.before hfile).same htree⟩
    · exact ⟨he, h.stays_drops hdrops hk he hfile⟩
  refine ⟨hcall.valid h.valid, fun k' e' he' => ?_, fun k' e' he' => ?_, fun k' e' he' => ?_,
    fun k' e' he' => ?_, fun k' e' he' hfile => (hbefore k' e' he' hfile).2.intact,
    fun k' e' he' hfile => ?_, fun k₁ e₁ k₂ e₂ he₁ he₂ hfile₁ hfile₂ => ?_⟩
  · rcases hcases k' e' he' with ⟨rfl, e, hremains⟩ | ⟨-, he⟩
    · rw [Evidence.key, hremains.context, hremains.result]
      exact h.key _ _ hremains.before
    · exact h.key k' e' he
  · rcases hcases k' e' he' with ⟨rfl, e, hremains⟩ | ⟨-, he⟩
    · rw [hremains.source]
      exact h.sized _ _ hremains.before
    · exact h.sized k' e' he
  · rcases hcases k' e' he' with ⟨rfl, e, hremains⟩ | ⟨hk, he⟩
    · exact hremains.deleted
    · rw [helse.deleted k' hk]
      exact h.deleted k' e' he
  · rcases hcases k' e' he' with ⟨rfl, e, hremains⟩ | ⟨hk, he⟩
    · exact hremains.bySource
    · exact helse.bySource _ k' hk (h.bySource k' e' he)
  · obtain ⟨hstored, hstays⟩ := hbefore k' e' he' hfile
    exact (h.content k' e' hstored hfile).stays hstays
  · exact h.apart k₁ e₁ k₂ e₂ (hbefore k₁ e₁ he₁ hfile₁).1 (hbefore k₂ e₂ he₂ hfile₂).1 hfile₁
      hfile₂

/-! ## The other operations -/

lemma Looks.same_of_calls {code : Code α} (h : Looks setup code) {x : Except Fault α}
    (hcall : Calls setup code s x t) :
    t.registry = s.registry ∧ t.disk.tree = s.disk.tree := by
  obtain ⟨l, hregistry, hend⟩ := hcall.of_does (h { registry := s.registry } s.disk)
  rw [← hregistry]
  cases x with
  | ok a =>
    obtain ⟨rfl, hsame⟩ := hend
    exact ⟨rfl, hsame.1⟩
  | error f =>
    obtain ⟨rfl, hsame⟩ := hend
    exact ⟨rfl, hsame.1⟩

lemma looks_throw {f : Fault} : Looks setup (throw f : Code α) := fun _ d => ⟨rfl, Same.refl d⟩

lemma looks_ite {q : Prop} [Decidable q] {x y : Code α} (hx : Looks setup x)
    (hy : Looks setup y) : Looks setup (if q then x else y) := by
  split
  · exact hx
  · exact hy

lemma looks_openStoredObject : Looks setup (openStoredObject setup c reference) := by
  refine looks_get.bind fun l => ?_
  cases l.registry.stored (stateKey c reference) with
  | none => exact looks_fail
  | some e =>
    exact looks_refuseIf.bind fun _ => looks_validatePath.bind fun _ =>
      (looks_ask rfl).onOs.bind fun _ => looks_refuseIf.bind fun _ => looks_pure

lemma looks_validateStoredObject {result : StoredResult} :
    Looks setup (validateStoredObject setup c result) := by
  refine looks_get.bind fun l => ?_
  cases l.registry.stored (stateKey c result.reference) with
  | none => exact looks_fail
  | some e => exact looks_refuseIf.bind fun _ => looks_validatePath

lemma looks_containedPaths : Looks setup (containedPaths setup c reference e) :=
  looks_objectPaths.tryCatch fun _ => looks_ite looks_fail looks_throw

lemma looks_confirmStoredObjectAbsent :
    Looks setup (confirmStoredObjectAbsent setup c reference) := by
  refine looks_get.bind fun l => ?_
  cases l.registry.deleted (stateKey c reference) with
  | none => exact looks_pure
  | some e =>
    refine looks_ite looks_pure (Looks.tryCatch ?_ fun _ => looks_ite looks_pure looks_throw)
    exact looks_containedPaths.bind fun _ => looks_lexists.bind fun _ => looks_pure

lemma looks_assertDirectoryModes : Looks setup (assertDirectoryModes setup c reference e) :=
  Looks.onOs <| (looks_ask rfl).bind fun _ => (looks_ask rfl).bind fun _ =>
    (looks_ask rfl).bind fun _ => (looks_ask rfl).bind fun _ => looks_ask rfl

lemma looks_validateReattestedPath {a : ReattestedEvidence} :
    Looks setup (validateReattestedPath setup a e) :=
  looks_containedPaths.bind fun _ => looks_directoryState.bind fun _ =>
  looks_directoryState.bind fun _ => looks_directoryState.bind fun _ =>
  looks_directoryState.bind fun _ => looks_directoryState.bind fun _ =>
  looks_refuseIf.bind fun _ => looks_assertDirectoryModes.bind fun _ =>
  (looks_ask rfl).onOs.bind fun _ => looks_refuseIf.bind fun _ =>
  looks_regularFileState.bind fun _ => looks_refuseIf.bind fun _ =>
  (looks_ask rfl).onOs.bind fun _ => looks_hashPath.bind fun _ => looks_refuseIf

lemma looks_attestObject {descriptor : PersistedStoredObjectDescriptor} :
    Looks setup (attestObject setup c descriptor) :=
  (looks_ask rfl).bind fun _ => looks_containedPaths.bind fun _ =>
  (looks_directoryState.bind fun _ => looks_directoryState.bind fun _ =>
    looks_directoryState.bind fun _ => looks_directoryState.bind fun _ =>
    looks_directoryState.bind fun _ => looks_pure).bind fun _ =>
  looks_regularFileState.bind fun _ => looks_refuseIf.bind fun _ =>
  looks_assertDirectoryModes.bind fun _ => (looks_ask rfl).onOs.bind fun _ =>
  (looks_ask rfl).onOs.bind fun _ => looks_refuseIf.bind fun _ =>
  looks_hashPath.bind fun _ => looks_refuseIf.bind fun _ => (looks_ask rfl).bind fun _ =>
  looks_validateReattestedPath.bind fun _ => looks_pure

variable {attested : Attested}

lemma looks_reattestStoredObject {descriptor : PersistedStoredObjectDescriptor} :
    Looks setup (reattestStoredObject setup attested c descriptor) := by
  refine looks_refuseIf.bind fun _ => ?_
  cases attested (stateKey c descriptor.reference) with
  | some existing =>
    exact looks_refuseIf.bind fun _ => looks_validateReattestedPath.bind fun _ => looks_pure
  | none => exact looks_attestObject.bind fun _ => looks_pure

variable {answer : ReattestedStoredObjectResult}

lemma looks_attestedEvidence : Looks setup (attestedEvidence attested c answer) := by
  rw [attestedEvidence]
  cases attested (stateKey c answer.reference) with
  | none => exact looks_fail
  | some a => exact looks_refuseIf.bind fun _ => looks_pure

lemma looks_validateReattestedObject :
    Looks setup (validateReattestedObject setup attested c answer) :=
  looks_attestedEvidence.bind fun _ => looks_validateReattestedPath

lemma looks_releaseReattestedObject :
    Looks setup (releaseReattestedObject attested c answer) :=
  looks_attestedEvidence.bind fun _ => looks_pure

lemma Looks.outcome {x : Code α} (hx : Looks setup x) : Looks setup (outcome x) :=
  (hx.bind fun _ => looks_pure).tryCatch fun _ => looks_pure

lemma looks_openReattestedObject {body : Bytes → Code α}
    (hbody : ∀ bytes, Looks setup (body bytes)) :
    Looks setup (openReattestedObject setup attested c answer body) := by
  refine looks_validateReattestedObject.bind fun _ => ?_
  cases attested (stateKey c answer.reference) with
  | none => exact looks_fail
  | some a =>
    refine looks_validateReattestedPath.bind fun _ => Looks.bind (Looks.outcome (Looks.onOs
      ((looks_ask rfl).bind fun x => looks_refuseIf.bind fun _ => hbody x.2))) fun given =>
      (Looks.outcome (looks_ask rfl)).bind fun closed => Looks.bind (Looks.outcome
      (looks_directoryState.bind fun _ => looks_refuseIf.bind fun _ =>
        looks_validateReattestedPath)) fun checked => ?_
    cases given with
    | error f => exact looks_throw
    | ok b =>
      cases checked with
      | error f => exact looks_ite looks_throw looks_fail
      | ok _ =>
        cases closed with
        | error f => exact looks_ite looks_throw looks_fail
        | ok _ => exact looks_pure

/-! ### The retry of the staging clean-up -/

/-- The result of an object is completed. -/
def Registry.complete (g : Registry) (k : ℕ × String) (e : Evidence) : Registry :=
  { g with stored := Function.update g.stored k (some e.completed) }

lemma does_retryEncryptedStagingCleanup {result : StoredResult} :
    Does setup (retryEncryptedStagingCleanup setup r result)
      (fun _ l' d' => Same d d' ∧
        ∃ e, l.registry.stored (stateKey r.context result.reference) = some e ∧
          l'.registry = l.registry.complete (stateKey r.context result.reference) e)
      (fun l' d' => Same d d' ∧ l'.registry = l.registry) l d := by
  have hstay : ∀ d', Same d d' → Same d d' ∧ l.registry = l.registry := fun d' h => ⟨h, rfl⟩
  rw [retryEncryptedStagingCleanup]
  refine looks_refuseIf.does_bind hstay fun _ d₁ h₁ => ?_
  rw [does_bind, does_get]
  cases hstored : l.registry.stored (stateKey r.context result.reference) with
  | none => exact hstay d₁ h₁
  | some e =>
    refine looks_refuseIf.does_bind (fun d' h' => hstay d' (h₁.trans h')) fun _ d₂ h₂ => ?_
    replace h₂ := h₁.trans h₂
    refine looks_validatePath.does_bind (fun d' h' => hstay d' (h₂.trans h')) fun _ d₃ h₃ => ?_
    replace h₃ := h₂.trans h₃
    have hcleanup : Looks setup (tryCatch (ask (.cleanupArtifact r.encryptedArtifact.reference))
        fun f => if f = .artifactCleanup then fail .stagingCleanup else throw f) :=
      (looks_ask rfl).tryCatch fun _ => looks_ite looks_fail looks_throw
    refine hcleanup.does_bind (fun d' h' => hstay d' (h₃.trans h')) fun _ d₄ h₄ => ?_
    replace h₄ := h₃.trans h₄
    rw [does_bind, does_get, does_bind]
    exact does_refuseIf (fun _ => hstay d₄ h₄) fun _ => ⟨h₄, e, rfl, rfl⟩

/-- A registry in which at most the result of one object is completed. -/
def Completes (k : ℕ × String) (g g' : Registry) : Prop :=
  g' = g ∨ ∃ e, g.stored k = some e ∧ g' = g.complete k e

lemma completes_of_calls {result : StoredResult} {x : Except Fault StoredResult}
    (hcall : Calls setup (retryEncryptedStagingCleanup setup r result) s x t) :
    Completes (stateKey r.context result.reference) s.registry t.registry ∧
      t.disk.tree = s.disk.tree := by
  obtain ⟨l, hregistry, hend⟩ := hcall.of_does
    (does_retryEncryptedStagingCleanup (l := { registry := s.registry }))
  rw [← hregistry]
  cases x with
  | ok a => exact ⟨.inr hend.2, hend.1.1⟩
  | error f => exact ⟨.inl hend.2, hend.1.1⟩

/-- What is stored afterwards is what was stored, or that completed. -/
lemma Completes.before {g' : Registry} {k' : ℕ × String} {e' : Evidence} (h : Completes k g g')
    (he' : g'.stored k' = some e') :
    ∃ e, g.stored k' = some e ∧ (e' = e ∨ e' = e.completed) := by
  rcases h with rfl | ⟨e, he, rfl⟩
  · exact ⟨e', he', .inl rfl⟩
  · by_cases hk : k' = k
    · subst hk
      have hself : (g.complete k' e).stored k' = some e.completed := Function.update_self ..
      obtain rfl := Option.some.inj (hself.symm.trans he')
      exact ⟨e, he, .inr rfl⟩
    · have hother : (g.complete k e).stored k' = g.stored k' := Function.update_of_ne hk _ _
      exact ⟨e', hother.symm.trans he', .inl rfl⟩

/-- What was stored is stored, or that completed. -/
lemma Completes.after {g' : Registry} {k' : ℕ × String} (h : Completes k g g')
    (he : g.stored k' = some evidence) :
    ∃ e', g'.stored k' = some e' ∧ (e' = evidence ∨ e' = evidence.completed) := by
  rcases h with rfl | ⟨e, he', rfl⟩
  · exact ⟨evidence, he, .inl rfl⟩
  · by_cases hk : k' = k
    · subst hk
      obtain rfl := Option.some.inj (he.symm.trans he')
      exact ⟨evidence.completed, Function.update_self .., .inr rfl⟩
    · exact ⟨evidence, (Function.update_of_ne hk _ _).trans he, .inl rfl⟩

lemma Completes.deleted {g' : Registry} (h : Completes k g g') : g'.deleted = g.deleted := by
  rcases h with rfl | ⟨e, -, rfl⟩
  · rfl
  · rfl

lemma Completes.bySource {g' : Registry} (h : Completes k g g') : g'.bySource = g.bySource := by
  rcases h with rfl | ⟨e, -, rfl⟩
  · rfl
  · rfl

lemma Kept.completes (h : Kept setup s) (hvalid : t.disk.Valid)
    (hcompletes : Completes k s.registry t.registry) (htree : t.disk.tree = s.disk.tree) :
    Kept setup t := by
  have hsame : ∀ k' e', t.registry.stored k' = some e' → ∃ e, s.registry.stored k' = some e ∧
      (e' = e ∨ e' = e.completed) := fun _ _ he' => hcompletes.before he'
  refine ⟨hvalid, fun k' e' he' => ?_, fun k' e' he' => ?_, fun k' e' he' => ?_,
    fun k' e' he' => ?_, fun k' e' he' hfile => ?_, fun k' e' he' hfile => ?_,
    fun k₁ e₁ k₂ e₂ he₁ he₂ hfile₁ hfile₂ hdirectory => ?_⟩
  · obtain ⟨e, he, rfl | rfl⟩ := hsame k' e' he'
    · exact h.key k' e' he
    · exact h.key k' e he
  · obtain ⟨e, he, rfl | rfl⟩ := hsame k' e' he'
    · exact h.sized k' e' he
    · exact h.sized k' e he
  · obtain ⟨e, he, -⟩ := hsame k' e' he'
    rw [hcompletes.deleted]
    exact h.deleted k' e he
  · rw [hcompletes.bySource]
    obtain ⟨e, he, rfl | rfl⟩ := hsame k' e' he'
    · exact h.bySource k' e' he
    · exact h.bySource k' e he
  · obtain ⟨e, he, rfl | rfl⟩ := hsame k' e' he'
    · exact (h.intact k' e' he hfile).congr htree
    · exact (h.intact k' e he hfile).completed.congr htree
  · obtain ⟨e, he, rfl | rfl⟩ := hsame k' e' he'
    · exact (h.content k' e' he hfile).stays ((h.intact k' e' he hfile).same htree)
    · exact (h.content k' e he hfile).stays ((h.intact k' e he hfile).same htree)
  · obtain ⟨e, he, hcase⟩ := hsame k₁ e₁ he₁
    obtain ⟨e', he', hcase'⟩ := hsame k₂ e₂ he₂
    refine h.apart k₁ e k₂ e' he he' ?_ ?_ ?_
    · rcases hcase with rfl | rfl
      · exact hfile₁
      · exact hfile₁
    · rcases hcase' with rfl | rfl
      · exact hfile₂
      · exact hfile₂
    · rcases hcase with rfl | rfl <;> rcases hcase' with rfl | rfl <;> exact hdirectory

end NexaPos.Backups.DurableStorage
