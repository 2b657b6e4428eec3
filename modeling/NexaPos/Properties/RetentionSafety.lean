import NexaPos.Backups.Retention

/-!
# What retention deletes

An execution assesses the current candidates itself, and deletes only what its plan lists and
what lies outside the newest eligible backups of that assessment.  `Step` says what a piece of
the code does to the store; the loops are composed from it.  `retention_safe` speaks of every
sequence of planning and execution, with any change of the store and of the candidates between
the calls.
-/

namespace NexaPos.Backups.Retention

open Routine

/-! ## Steps of the store -/

/-- The references that deletions have removed. -/
def removedBy (ds : List Deletion) : List ℕ :=
  (ds.filter Deletion.removed).map fun d => d.candidate.reference

/-- The store after some deletions and refusals. -/
structure Step (ds : List Deletion) (refused : List ℕ) (g g' : Store) : Prop where
  deletions : g'.deletions = g.deletions ++ ds
  refusals : g'.refusals = g.refusals ++ refused
  present : ∀ r, r ∈ g'.present ↔ r ∈ g.present ∧ r ∉ removedBy ds
  removed : ∀ r ∈ removedBy ds, r ∈ g.present
  nodup : (removedBy ds).Nodup

lemma Step.refl (g : Store) : Step [] [] g g :=
  ⟨by simp, by simp, by simp [removedBy], by simp [removedBy], List.nodup_nil⟩

lemma removedBy_append (ds es : List Deletion) :
    removedBy (ds ++ es) = removedBy ds ++ removedBy es := by
  simp [removedBy]

lemma Step.trans {ds es : List Deletion} {rs ss : List ℕ} {g g' g'' : Store}
    (h : Step ds rs g g') (h' : Step es ss g' g'') : Step (ds ++ es) (rs ++ ss) g g'' where
  deletions := by rw [h'.deletions, h.deletions, List.append_assoc]
  refusals := by rw [h'.refusals, h.refusals, List.append_assoc]
  present r := by
    rw [h'.present, h.present, removedBy_append, List.mem_append]
    tauto
  removed r hr := by
    rw [removedBy_append, List.mem_append] at hr
    rcases hr with hr | hr
    · exact h.removed r hr
    · exact ((h.present r).mp (h'.removed r hr)).1
  nodup := by
    rw [removedBy_append]
    refine h.nodup.append h'.nodup fun r hr hr' => ?_
    exact ((h.present r).mp (h'.removed r hr')).2 hr

lemma step_delete (g : Store) (c : RetentionCandidate) {removed : Bool}
    (h : c.reference ∈ g.present) :
    Step [⟨c, true, removed⟩] [] g (g.delete c removed) := by
  refine ⟨by simp [Store.delete, h], by simp [Store.delete], fun r => ?_, ?_, ?_⟩
  · cases removed <;> simp [Store.delete, removedBy, and_comm]
  · cases removed <;> simp [removedBy, h]
  · cases removed <;> simp [removedBy]

/-- The store after checks have refused some objects. -/
def Store.refuse (g : Store) (refused : List ℕ) : Store :=
  { g with refusals := g.refusals ++ refused }

@[simp] lemma refuse_nil (g : Store) : g.refuse [] = g := by
  rw [Store.refuse, List.append_nil]

@[simp] lemma refuse_refuse (g : Store) (rs ss : List ℕ) :
    (g.refuse rs).refuse ss = g.refuse (rs ++ ss) := by
  rw [Store.refuse, Store.refuse, Store.refuse, List.append_assoc]

@[simp] lemma present_refuse (g : Store) (rs : List ℕ) : (g.refuse rs).present = g.present := rfl

lemma step_refuse (g : Store) (refused : List ℕ) : Step [] refused g (g.refuse refused) :=
  ⟨by simp [Store.refuse], rfl, by simp [removedBy], by simp [removedBy], List.nodup_nil⟩

/-- The reference that an error of a check refuses. -/
def refusedBy (c : RetentionCandidate) (e : RetentionFault) : List ℕ :=
  if e = .durableObjectValidationError then [c.reference] else []

lemma check_error (g : Store) (c : RetentionCandidate) (e : RetentionFault) :
    g.check c (.error e) = g.refuse (refusedBy c e) := by
  cases e <;> simp [Store.check, refusedBy, Store.refuse]

/-! ## The calls -/

section Calls

variable {l : RetentionEngine} {g : Store} {c : RetentionCandidate}
  {E : RetentionFault → RetentionEngine → Store → Prop}

@[simp] lemma meets_owns {Q : Bool → RetentionEngine → Store → Prop} :
    Meets provider (ownsStoredObjectResult c) Q E l g ↔ (∀ b, Q b l g) ∧ ∀ e, E e l g := by
  unfold ownsStoredObjectResult
  rw [meets_perform]
  constructor
  · rintro ⟨-, h⟩
    exact ⟨fun b => h (.ok b) g rfl, fun e => h (.error e) g rfl⟩
  · rintro ⟨hok, herror⟩
    refine ⟨trivial, ?_⟩
    rintro (e | b) g' rfl
    · exact herror e
    · exact hok b

@[simp] lemma meets_confirm {Q : Bool → RetentionEngine → Store → Prop} :
    Meets provider (confirmStoredObjectAbsent c) Q E l g ↔
      (∀ b, Q b l g) ∧ ∀ e, E e l g := by
  unfold confirmStoredObjectAbsent
  rw [meets_perform]
  constructor
  · rintro ⟨-, h⟩
    exact ⟨fun b => h (.ok b) g rfl, fun e => h (.error e) g rfl⟩
  · rintro ⟨hok, herror⟩
    refine ⟨trivial, ?_⟩
    rintro (e | b) g' rfl
    · exact herror e
    · exact hok b

@[simp] lemma meets_validate {Q : Unit → RetentionEngine → Store → Prop} :
    Meets provider (validateStoredObject c) Q E l g ↔
      (c.reference ∈ g.present → Q () l g) ∧ ∀ e, E e l (g.refuse (refusedBy c e)) := by
  unfold validateStoredObject
  rw [meets_perform]
  constructor
  · rintro ⟨-, h⟩
    refine ⟨fun hpresent => h (.ok ()) g ⟨rfl, fun _ => hpresent⟩, fun e => ?_⟩
    exact h (.error e) _ ⟨(check_error g c e).symm, nofun⟩
  · rintro ⟨hok, herror⟩
    refine ⟨trivial, ?_⟩
    rintro (e | ⟨⟩) g' ⟨rfl, hpresent⟩
    · rw [check_error]
      exact herror e
    · exact hok (hpresent rfl)

/-- A deletion that was asked for may have taken effect, whatever the call answers. -/
@[simp] lemma meets_delete {Q : Unit → RetentionEngine → Store → Prop} :
    Meets provider (deleteStoredObject c) Q E l g ↔ ∀ removed : Bool,
      (removed = true → c.reference ∈ g.present) →
        Q () l (g.delete c removed) ∧ ∀ e, E e l (g.delete c removed) := by
  unfold deleteStoredObject
  rw [meets_perform]
  constructor
  · rintro ⟨-, h⟩ removed hremoved
    exact ⟨h (.ok ()) _ ⟨removed, hremoved, rfl⟩,
      fun e => h (.error e) _ ⟨removed, hremoved, rfl⟩⟩
  · intro h
    refine ⟨trivial, ?_⟩
    rintro (e | ⟨⟩) g' ⟨removed, hremoved, rfl⟩
    · exact (h removed hremoved).2 e
    · exact (h removed hremoved).1

@[simp] lemma meets_checkDeadline {Q : Unit → RetentionEngine → Store → Prop}
    {error : RetentionFault} :
    Meets provider (checkDeadline error) Q E l g ↔ Q () l g ∧ E error l g := by
  unfold checkDeadline
  rw [meets_tryCatch, meets_perform]
  constructor
  · rintro ⟨-, h⟩
    exact ⟨h (.ok ()) g rfl, h (.error error) g rfl⟩
  · rintro ⟨hok, herror⟩
    refine ⟨trivial, ?_⟩
    rintro (e | ⟨⟩) g' rfl
    · exact herror
    · exact hok

@[simp] lemma meets_modifyProgress {Q : Unit → RetentionEngine → Store → Prop}
    {reference : ℕ} {f : ExecutionProgress → ExecutionProgress} :
    Meets provider (modifyProgress reference f) Q E l g ↔
      Q () (l.modifyProgress reference f) g := Iff.rfl

end Calls

/-! ## The assessment -/

/-- What an assessment of the candidates has found, with the objects that are there and those
that the checks have refused. -/
structure Found (deleted present : List ℕ) (candidates : List RetentionCandidate)
    (refused : List ℕ) (eligible : List RetentionCandidate) : Prop where
  sound : ∀ c ∈ eligible, c ∈ candidates ∧ c.verdict deleted = .check ∧ c.reference ∈ present
  complete : ∀ c ∈ candidates, c.verdict deleted = .check → c ∈ eligible ∨ c.reference ∈ refused
  nodup : eligible.Nodup
  uniqueIds : (ids candidates).Nodup
  uniqueReferences : (candidates.map RetentionCandidate.reference).Nodup

section Assess

variable {l : RetentionEngine} {g : Store} {deleted refused : List ℕ}
  {seen : List RetentionCandidate} {c : RetentionCandidate} {a : Assessment}

/-- One more candidate is assessed. -/
lemma Found.concat {eligible : List RetentionCandidate} {more : List ℕ} {present : List ℕ}
    (h : Found deleted present seen refused eligible)
    (hid : c.backupId ∉ seen.map RetentionCandidate.backupId)
    (href : c.reference ∉ seen.map RetentionCandidate.reference)
    (hc : c.verdict deleted = .check → c.reference ∈ more) :
    Found deleted present (seen ++ [c]) (refused ++ more) eligible where
  sound d hd := by
    obtain ⟨hmem, hverdict, hpresent⟩ := h.sound d hd
    exact ⟨List.mem_append_left _ hmem, hverdict, hpresent⟩
  complete d hd hverdict := by
    rcases List.mem_append.mp hd with hd | hd
    · exact (h.complete d hd hverdict).imp_right (List.mem_append_left _)
    · rw [List.mem_singleton.mp hd] at hverdict ⊢
      exact .inr (List.mem_append_right _ (hc hverdict))
  nodup := h.nodup
  uniqueIds := by
    rw [ids, List.map_append]
    exact List.nodup_append.mpr ⟨h.uniqueIds, List.nodup_singleton _, by
      rintro x hx y hy rfl
      exact hid (List.mem_singleton.mp hy ▸ hx)⟩
  uniqueReferences := by
    rw [List.map_append]
    exact List.nodup_append.mpr ⟨h.uniqueReferences, List.nodup_singleton _, by
      rintro x hx y hy rfl
      exact href (List.mem_singleton.mp hy ▸ hx)⟩

/-- One more candidate is eligible. -/
lemma Found.accept {eligible : List RetentionCandidate} {present : List ℕ}
    (h : Found deleted present seen refused eligible)
    (hid : c.backupId ∉ seen.map RetentionCandidate.backupId)
    (href : c.reference ∉ seen.map RetentionCandidate.reference)
    (hverdict : c.verdict deleted = .check) (hpresent : c.reference ∈ present) :
    Found deleted present (seen ++ [c]) refused (eligible ++ [c]) := by
  have hskip : Found deleted present (seen ++ [c]) (refused ++ [c.reference]) eligible :=
    h.concat hid href fun _ => List.mem_singleton_self _
  refine ⟨?_, ?_, ?_, hskip.uniqueIds, hskip.uniqueReferences⟩
  · intro d hd
    rcases List.mem_append.mp hd with hd | hd
    · exact hskip.sound d hd
    · rw [List.mem_singleton.mp hd]
      exact ⟨List.mem_append_right _ (List.mem_singleton_self c), hverdict, hpresent⟩
  · intro d hd hd'
    rcases List.mem_append.mp hd with hd | hd
    · exact (h.complete d hd hd').imp_left (List.mem_append_left _)
    · exact .inl (List.mem_append_right _ hd)
  · refine List.nodup_append.mpr ⟨h.nodup, List.nodup_singleton _, ?_⟩
    rintro d hd d' hd' rfl
    rw [List.mem_singleton.mp hd'] at hd
    exact hid (List.mem_map_of_mem (h.sound c hd).1)

/-- What the loop leaves after some candidates: nothing but refusals in the store. -/
def AssessedTo (l : RetentionEngine) (g : Store) (deleted refused : List ℕ)
    (seen : List RetentionCandidate) (a : Assessment) (l' : RetentionEngine) (g' : Store) : Prop :=
  l' = l ∧ ∃ more, g' = g.refuse more ∧
    Found deleted g.present seen (refused ++ more) a.eligible

/-- When it raises. -/
def AssessFailed (l : RetentionEngine) (g : Store) (l' : RetentionEngine) (g' : Store) : Prop :=
  l' = l ∧ ∃ more, g' = g.refuse more

lemma meets_checkCandidate (h : Found deleted g.present seen refused a.eligible)
    (hid : c.backupId ∉ seen.map RetentionCandidate.backupId)
    (href : c.reference ∉ seen.map RetentionCandidate.reference)
    (hverdict : c.verdict deleted = .check) :
    Meets provider (checkCandidate c a) (AssessedTo l g deleted refused (seen ++ [c]))
      (fun _ => AssessFailed l g) l g := by
  have hsame : AssessFailed l g l g := ⟨rfl, [], (refuse_nil g).symm⟩
  unfold checkCandidate
  simp only [meets_bind, meets_tryCatch, meets_owns, meets_throw]
  refine ⟨fun owned => ?_, fun _ => hsame⟩
  cases owned with
  | false => exact hsame
  | true =>
    rw [if_pos rfl]
    simp only [meets_bind, meets_tryCatch, meets_validate, meets_pure]
    constructor
    · intro hpresent
      refine ⟨rfl, [], (refuse_nil g).symm, ?_⟩
      rw [List.append_nil]
      exact h.accept hid href hverdict hpresent
    · intro e
      by_cases he : e = .durableObjectValidationError
      · rw [if_pos he, meets_pure]
        refine ⟨rfl, refusedBy c e, rfl, h.concat hid href fun _ => ?_⟩
        rw [refusedBy, if_pos he]
        exact List.mem_singleton_self _
      · rw [if_neg he, meets_throw]
        exact ⟨rfl, _, rfl⟩

lemma meets_assessCandidate (h : Found deleted g.present seen refused a.eligible)
    (hid : c.backupId ∉ seen.map RetentionCandidate.backupId)
    (href : c.reference ∉ seen.map RetentionCandidate.reference) :
    Meets provider (assessCandidate deleted c a) (AssessedTo l g deleted refused (seen ++ [c]))
      (fun _ => AssessFailed l g) l g := by
  have hskip (hne : c.verdict deleted ≠ .check) :
      Found deleted g.present (seen ++ [c]) (refused ++ []) a.eligible :=
    h.concat hid href fun heq => absurd heq hne
  unfold assessCandidate
  cases hverdict : c.verdict deleted with
  | check => exact meets_checkCandidate h hid href hverdict
  | skip reason =>
    exact ⟨rfl, [], (refuse_nil g).symm, hskip (by rw [hverdict]; exact nofun)⟩
  | keep reason =>
    exact ⟨rfl, [], (refuse_nil g).symm, hskip (by rw [hverdict]; exact nofun)⟩

/-- The loop of the assessment. -/
lemma meets_assessEach {tenant : ℕ} {candidates : List RetentionCandidate}
    (h : Found deleted g.present seen refused a.eligible) :
    Meets provider (assessEach tenant deleted seen candidates a)
      (AssessedTo l g deleted refused (seen ++ candidates)) (fun _ => AssessFailed l g) l g := by
  induction candidates generalizing g seen a refused with
  | nil =>
    refine ⟨rfl, [], (refuse_nil g).symm, ?_⟩
    rw [List.append_nil, List.append_nil]
    exact h
  | cons c candidates ih =>
    unfold assessEach
    split
    · exact ⟨rfl, [], (refuse_nil g).symm⟩
    · rename_i hnew
      push Not at hnew
      rw [meets_bind]
      refine (meets_assessCandidate h hnew.2.1 hnew.2.2).mono ?_ fun _ _ _ he => he
      rintro a' l' g' ⟨rfl, more, rfl, hfound⟩
      refine (ih (g := g.refuse more) hfound).mono ?_ ?_
      · rintro a'' l'' g'' ⟨rfl, more', rfl, hfound'⟩
        rw [List.append_assoc, List.append_assoc, List.singleton_append] at hfound'
        exact ⟨rfl, more ++ more', refuse_refuse _ _ _, hfound'⟩
      · rintro e l'' g'' ⟨rfl, more', rfl⟩
        exact ⟨rfl, more ++ more', refuse_refuse _ _ _⟩

/-- The assessment sorts what the loop has found, the newest first. -/
structure Assessed (l : RetentionEngine) (g : Store) (deleted : List ℕ)
    (candidates : List RetentionCandidate) (a : Assessment) (l' : RetentionEngine) (g' : Store) :
    Prop where
  engine : l' = l
  found : ∃ refused, g' = g.refuse refused ∧
    Found deleted g.present candidates refused a.eligible
  sorted : a.eligible.Pairwise RetentionCandidate.notOlder

instance totalNotOlder : Std.Total RetentionCandidate.notOlder where
  total c d := by
    unfold RetentionCandidate.notOlder
    omega

instance transNotOlder : IsTrans RetentionCandidate RetentionCandidate.notOlder where
  trans c d e h h' := by
    unfold RetentionCandidate.notOlder at *
    omega

lemma Found.of_perm {present : List ℕ} {candidates eligible sorted : List RetentionCandidate}
    (h : Found deleted present candidates refused eligible) (hperm : sorted.Perm eligible) :
    Found deleted present candidates refused sorted where
  sound d hd := h.sound d (hperm.subset hd)
  complete d hd hverdict := (h.complete d hd hverdict).imp_left fun hd => hperm.symm.subset hd
  nodup := hperm.nodup_iff.mpr h.nodup
  uniqueIds := h.uniqueIds
  uniqueReferences := h.uniqueReferences

/-- `_assess_candidates`. -/
lemma meets_assessCandidates (tenant : ℕ) (candidates : List RetentionCandidate)
    (deleted : List ℕ) (l : RetentionEngine) (g : Store) :
    Meets provider (assessCandidates tenant candidates deleted)
      (Assessed l g deleted candidates) (fun _ => AssessFailed l g) l g := by
  have hempty : Found deleted g.present [] [] [] :=
    ⟨by simp, by simp, List.nodup_nil, List.nodup_nil, List.nodup_nil⟩
  unfold assessCandidates
  split
  · exact ⟨rfl, [], (refuse_nil g).symm⟩
  · rw [meets_bind]
    refine (meets_assessEach hempty).mono ?_ fun _ _ _ he => he
    rintro a l' g' ⟨rfl, refused, rfl, hfound⟩
    refine ⟨rfl, ⟨refused, rfl, hfound.of_perm (List.perm_insertionSort _ _)⟩, ?_⟩
    exact List.pairwise_insertionSort _ _

end Assess

/-! ## The engine's own records -/

/-- The plans are as they were, and what was deleted for a plan stays noted. -/
structure Kept (reference : ℕ) (l l' : RetentionEngine) : Prop where
  plans : l'.plans = l.plans
  deleted : ∀ b ∈ (l.progressOf reference).deleted, b ∈ (l'.progressOf reference).deleted

lemma Kept.refl (reference : ℕ) (l : RetentionEngine) : Kept reference l l := ⟨rfl, fun _ => id⟩

lemma Kept.trans {reference : ℕ} {l l' l'' : RetentionEngine} (h : Kept reference l l')
    (h' : Kept reference l' l'') : Kept reference l l'' :=
  ⟨h'.plans.trans h.plans, fun b hb => h'.deleted b (h.deleted b hb)⟩

@[simp] lemma progressOf_modifyProgress (l : RetentionEngine) (reference : ℕ)
    (f : ExecutionProgress → ExecutionProgress) :
    (l.modifyProgress reference f).progressOf reference = f (l.progressOf reference) := by
  simp [RetentionEngine.modifyProgress, RetentionEngine.progressOf]

lemma kept_modifyProgress {reference : ℕ} {f : ExecutionProgress → ExecutionProgress}
    (h : ∀ p b, b ∈ p.deleted → b ∈ (f p).deleted) (l : RetentionEngine) :
    Kept reference l (l.modifyProgress reference f) := by
  refine ⟨rfl, fun b hb => ?_⟩
  rw [progressOf_modifyProgress]
  exact h _ b hb

lemma mem_deleted_delete (p : ExecutionProgress) (backup : ℕ) (outcome : String) (b : ℕ)
    (h : b ∈ p.deleted) : b ∈ (p.delete backup outcome).deleted := by
  show b ∈ p.deleted.insert backup
  exact List.mem_insert_of_mem h

/-! ## Deleting -/

/-- Some code has asked for deletions of backups of the list, in order and each at most once, of
allowed candidates whose objects were there. -/
def DeletedFrom (reference : ℕ) (allowed : RetentionCandidate → Prop) (backups : List ℕ)
    (l : RetentionEngine) (g : Store) (l' : RetentionEngine) (g' : Store) : Prop :=
  Kept reference l l' ∧ ∃ ds refused, Step ds refused g g' ∧
    (ds.map fun d => d.candidate.backupId).Sublist backups ∧
    ∀ d ∈ ds, d.wasPresent = true ∧ allowed d.candidate

section Delete

variable {reference : ℕ} {allowed : RetentionCandidate → Prop} {l l' l'' : RetentionEngine}
  {g g' g'' : Store} {backups : List ℕ} {setup : RetentionSetup} {x : Execution} {a : Assessment}

/-- Nothing was asked for. -/
lemma DeletedFrom.none (h : Kept reference l l') :
    DeletedFrom reference allowed backups l g l' g :=
  ⟨h, [], [], Step.refl g, List.nil_sublist _, by simp⟩

lemma DeletedFrom.trans {backups' : List ℕ}
    (h : DeletedFrom reference allowed backups l g l' g')
    (h' : DeletedFrom reference allowed backups' l' g' l'' g'') :
    DeletedFrom reference allowed (backups ++ backups') l g l'' g'' := by
  obtain ⟨hkept, ds, refused, hstep, hlisted, hall⟩ := h
  obtain ⟨hkept', ds', refused', hstep', hlisted', hall'⟩ := h'
  refine ⟨hkept.trans hkept', ds ++ ds', refused ++ refused', hstep.trans hstep', ?_, ?_⟩
  · rw [List.map_append]
    exact hlisted.append hlisted'
  · intro d hd
    exact (List.mem_append.mp hd).elim (hall d) (hall' d)

/-- More backups may have been listed. -/
lemma DeletedFrom.sublist {backups' : List ℕ} (h : DeletedFrom reference allowed backups l g l' g')
    (hsub : backups.Sublist backups') : DeletedFrom reference allowed backups' l g l' g' := by
  obtain ⟨hkept, ds, refused, hstep, hlisted, hall⟩ := h
  exact ⟨hkept, ds, refused, hstep, hlisted.trans hsub, hall⟩

/-- The records change after a piece of code. -/
lemma DeletedFrom.kept (h : DeletedFrom reference allowed backups l g l' g')
    (h' : Kept reference l' l'') : DeletedFrom reference allowed backups l g l'' g' := by
  obtain ⟨hkept, hrest⟩ := h
  exact ⟨hkept.trans h', hrest⟩

/-- One deletion of an allowed candidate. -/
lemma meets_deleteCandidate {c : RetentionCandidate} (hallowed : allowed c) :
    Meets provider (deleteCandidate reference c)
      (fun _ => DeletedFrom reference allowed [c.backupId] l g)
      (fun _ => DeletedFrom reference allowed [c.backupId] l g) l g := by
  have hkeep (f : ExecutionProgress → ExecutionProgress)
      (hf : ∀ p b, b ∈ p.deleted → b ∈ (f p).deleted) (l : RetentionEngine) :
      Kept reference l (l.modifyProgress reference f) := kept_modifyProgress hf l
  unfold deleteCandidate
  rw [meets_bind, meets_owns]
  refine ⟨fun owned => ?_, fun _ => .none (.refl _ _)⟩
  cases owned with
  | false => exact .none (.refl _ _)
  | true =>
    rw [if_neg (by simp)]
    simp only [meets_bind, meets_validate, meets_modifyProgress, meets_delete, meets_confirm]
    constructor
    · intro hpresent removed hremoved
      have hstarted := hkeep (fun p =>
        { p.note .deleteStarted (some c.backupId) "delete_started" with
          pendingDeletions := p.pendingDeletions.insert c.backupId }) (fun _ _ hb => hb) l
      have hasked : DeletedFrom reference allowed [c.backupId] l g _ (g.delete c removed) :=
        ⟨hstarted, [⟨c, true, removed⟩], [], step_delete g c hpresent, List.Sublist.refl _,
          by simpa using hallowed⟩
      refine ⟨⟨fun absent => ?_, fun _ => hasked⟩, fun _ => hasked⟩
      cases absent with
      | false => exact hasked
      | true =>
        rw [if_neg (by simp), meets_modifyProgress]
        exact hasked.kept (hkeep _ (fun p b => mem_deleted_delete p _ _ b) _)
    · intro e
      exact ⟨.refl _ _, [], _, step_refuse g _, List.nil_sublist _, by simp⟩

/-- Code that asks for nothing, and keeps the records. -/
def Idle (reference : ℕ) (l : RetentionEngine) (g : Store) (l' : RetentionEngine) (g' : Store) :
    Prop :=
  Kept reference l l' ∧ g' = g

lemma Idle.trans (h : Idle reference l g l' g') (h' : Idle reference l' g' l'' g'') :
    Idle reference l g l'' g'' :=
  ⟨h.1.trans h'.1, h'.2.trans h.2⟩

lemma Idle.deletedFrom (h : Idle reference l g l' g') :
    DeletedFrom reference allowed backups l g l' g' := by
  obtain ⟨hkept, rfl⟩ := h
  exact .none hkept

lemma idle_modifyProgress {f : ExecutionProgress → ExecutionProgress}
    (h : ∀ p b, b ∈ p.deleted → b ∈ (f p).deleted) :
    Idle reference l g (l.modifyProgress reference f) g :=
  ⟨kept_modifyProgress h l, rfl⟩

lemma meets_failStep (backup : ℕ) (outcome : String)
    {E : RetentionFault → RetentionEngine → Store → Prop} :
    Meets provider (failStep reference backup outcome) (fun _ => Idle reference l g) E l g := by
  unfold failStep
  rw [meets_bind, meets_modifyProgress, meets_pure]
  exact idle_modifyProgress fun _ _ hb => hb

lemma meets_skipBackup (backup : ℕ) {E : RetentionFault → RetentionEngine → Store → Prop} :
    Meets provider (skipBackup x a backup) (fun _ => Idle x.plan.reference l g) E l g := by
  unfold skipBackup
  rw [meets_bind, meets_get]
  split
  · exact meets_failStep backup _
  · rw [meets_bind, meets_modifyProgress, meets_pure]
    exact idle_modifyProgress fun _ _ hb => hb

/-- The current candidate of a backup that an eligible candidate belongs to is that candidate. -/
lemma mem_of_find {candidates eligible : List RetentionCandidate} {c : RetentionCandidate}
    {backup : ℕ} (hunique : (ids candidates).Nodup) (hsub : ∀ d ∈ eligible, d ∈ candidates)
    (hfind : find candidates backup = some c) (hmem : backup ∈ ids eligible) : c ∈ eligible := by
  obtain ⟨d, hd, hid⟩ := List.mem_map.mp hmem
  have hc : c ∈ candidates := List.mem_of_find?_eq_some hfind
  have hcid : c.backupId = backup := by simpa using List.find?_some hfind
  have hsame := List.inj_on_of_nodup_map hunique hc (hsub d hd) (hcid.trans hid.symm)
  rwa [hsame]

/-- One backup of the plan. -/
lemma meets_deleteBackup (hunique : (ids x.current).Nodup)
    (hsub : ∀ d ∈ a.eligible, d ∈ x.current) (backup : ℕ) :
    Meets provider (deleteBackup setup x a backup)
      (fun _ => DeletedFrom x.plan.reference
        (· ∈ a.eligible.drop setup.policy.dailyFullKeepCount) [backup] l g)
      (fun _ => DeletedFrom x.plan.reference
        (· ∈ a.eligible.drop setup.policy.dailyFullKeepCount) [backup] l g) l g := by
  have hfail (outcome : String) : Meets provider (failStep x.plan.reference backup outcome)
      (fun _ => DeletedFrom x.plan.reference
        (· ∈ a.eligible.drop setup.policy.dailyFullKeepCount) [backup] l g)
      (fun _ => DeletedFrom x.plan.reference
        (· ∈ a.eligible.drop setup.policy.dailyFullKeepCount) [backup] l g) l g :=
    (meets_failStep (E := fun _ _ _ => False) backup outcome).mono
      (fun _ _ _ h => h.deletedFrom) fun _ _ _ h => h.elim
  unfold deleteBackup
  rw [meets_bind, meets_checkDeadline]
  refine ⟨?_, .none (.refl _ _)⟩
  split
  · rename_i candidate original hfind horiginal
    split
    · exact (meets_skipBackup (E := fun _ _ _ => False) backup).mono
        (fun _ _ _ h => h.deletedFrom) fun _ _ _ h => h.elim
    · rename_i hmem
      split
      · exact hfail _
      · have hallowed : candidate ∈ a.eligible.drop setup.policy.dailyFullKeepCount :=
          mem_of_find hunique (fun d hd => hsub d (List.mem_of_mem_drop hd)) hfind
            (not_not.mp hmem)
        have hid : candidate.backupId = backup := by simpa using List.find?_some hfind
        rw [meets_tryCatch, meets_bind, ← hid]
        refine (meets_deleteCandidate hallowed).mono (fun _ _ _ h => h) fun _ l' g' h => ?_
        refine (meets_failStep (E := fun _ _ _ => False) candidate.backupId _).mono ?_
          fun _ _ _ h => h.elim
        rintro _ l'' g'' ⟨hkept, rfl⟩
        exact h.kept hkept
  · exact hfail _

/-- The loop over the backups of the plan. -/
lemma meets_deleteBackups (hunique : (ids x.current).Nodup)
    (hsub : ∀ d ∈ a.eligible, d ∈ x.current) (backups : List ℕ) :
    Meets provider (deleteBackups setup x a backups)
      (fun _ => DeletedFrom x.plan.reference
        (· ∈ a.eligible.drop setup.policy.dailyFullKeepCount) backups l g)
      (fun _ => DeletedFrom x.plan.reference
        (· ∈ a.eligible.drop setup.policy.dailyFullKeepCount) backups l g) l g := by
  induction backups generalizing l g with
  | nil => exact DeletedFrom.none (.refl _ _)
  | cons backup backups ih =>
    unfold deleteBackups
    rw [meets_bind, meets_get]
    simp only []
    split
    · exact ih.mono (fun _ _ _ h => h.sublist (List.sublist_cons_self _ _))
        fun _ _ _ h => h.sublist (List.sublist_cons_self _ _)
    · rw [meets_bind]
      have hone : [backup].Sublist (backup :: backups) := by simp
      refine (meets_deleteBackup hunique hsub backup).mono ?_ fun _ _ _ h => h.sublist hone
      intro failure l' g' h
      cases failure with
      | true => exact h.sublist hone
      | false =>
        rw [if_neg Bool.false_ne_true]
        exact ih.mono (fun _ _ _ h' => h.trans h') fun _ _ _ h' => h.trans h'

/-- The loop over the pending deletions asks for nothing. -/
lemma meets_confirmPending (pending : List ℕ) :
    Meets provider (confirmPending x pending) (fun _ => Idle x.plan.reference l g)
      (fun _ => Idle x.plan.reference l g) l g := by
  induction pending generalizing l g with
  | nil => exact ⟨.refl _ _, rfl⟩
  | cons backup pending ih =>
    unfold confirmPending
    split
    · split
      · exact meets_failStep backup _
      · rw [meets_bind, meets_tryCatch, meets_bind, meets_confirm]
        have hrest (p : Bool × Bool) : Meets provider
            (if p.1 then do
                modifyProgress x.plan.reference fun p =>
                  p.delete backup "deleted_and_absent_on_retry"
                confirmPending x pending
              else if ¬ p.2 then
                failStep x.plan.reference backup "pending_deletion_state_ambiguous"
              else confirmPending x pending)
            (fun _ => Idle x.plan.reference l g) (fun _ => Idle x.plan.reference l g) l g := by
          split
          · rw [meets_bind, meets_modifyProgress]
            have hnoted : Idle x.plan.reference l g (l.modifyProgress x.plan.reference fun p =>
                p.delete backup "deleted_and_absent_on_retry") g :=
              idle_modifyProgress fun p b => mem_deleted_delete p _ _ b
            exact ih.mono (fun _ _ _ h => hnoted.trans h) fun _ _ _ h => hnoted.trans h
          · split
            · exact meets_failStep backup _
            · exact ih
        refine ⟨fun confirmed => ?_, fun _ => hrest (false, false)⟩
        rw [meets_bind, meets_owns]
        exact ⟨fun owned => hrest (confirmed, owned), fun _ => hrest (false, false)⟩
    · exact meets_failStep backup _

lemma meets_conclude (plan : RetentionPlan) (currentKeep : List ℕ) (failure : Bool)
    {E : RetentionFault → RetentionEngine → Store → Prop} :
    Meets provider (conclude plan currentKeep failure) (fun _ => Idle plan.reference l g) E
      l g := by
  have hnoted (event : RetentionAuditEventType) (outcome : String) :
      Idle plan.reference l g
        (l.modifyProgress plan.reference fun p => p.note event none outcome) g :=
    idle_modifyProgress fun _ _ hb => hb
  unfold conclude
  rw [meets_bind, meets_get]
  simp only [meets_bind, meets_modifyProgress, meets_get]
  split
  · exact hnoted _ _
  · rw [meets_bind, meets_modify, meets_pure]
    exact ⟨⟨rfl, (hnoted _ _).1.deleted⟩, rfl⟩

end Delete

/-! ## One execution -/

/-- The flags of a candidate allow its deletion, and it was not deleted for the plan before. -/
lemma verdict_eq_check {c : RetentionCandidate} {deleted : List ℕ} :
    c.verdict deleted = .check ↔ c.backupId ∉ deleted ∧ c.verdict [] = .check := by
  unfold RetentionCandidate.verdict
  by_cases hdeleted : c.backupId ∈ deleted
  · simp [hdeleted]
  · simp only [hdeleted, List.not_mem_nil, false_or, not_false_eq_true, true_and]

/-- A candidate that may be deleted is a daily full backup that nothing protects. -/
lemma flags_of_check {c : RetentionCandidate} (h : c.verdict [] = .check) :
    c.retentionClass = .dailyFull ∧ c.pinned = false ∧ c.isProtected = false ∧
      c.activeOperation = false := by
  unfold RetentionCandidate.verdict at h
  split_ifs at h with hdeleted hclass hprotected hactive
  all_goals simp_all

/-- The eligible backups of an execution: the current candidates that pass every check and are
not deleted yet, the newest first.  Those asked to be deleted come after the ones to keep, and the
ones to keep are there afterwards. -/
structure KeptNewest (keepCount reference : ℕ) (current : List RetentionCandidate) (g : Store)
    (l' : RetentionEngine) (g' : Store) (ds : List Deletion)
    (eligible : List RetentionCandidate) : Prop where
  sound : ∀ c ∈ eligible, c ∈ current ∧ c.verdict [] = .check ∧ c.reference ∈ g.present
  complete : ∀ c ∈ current, c.verdict [] = .check → c ∈ eligible ∨
    c.reference ∈ g'.refusals.drop g.refusals.length ∨
    c.backupId ∈ (l'.progressOf reference).deleted
  nodup : eligible.Nodup
  sorted : eligible.Pairwise RetentionCandidate.notOlder
  outside : ∀ d ∈ ds, d.candidate ∈ eligible.drop keepCount
  remain : ∀ c ∈ eligible.take keepCount, c.reference ∈ g'.present

/-- A plan lists each backup once, and at most a batch of them. -/
def RetentionPlan.Batched (setup : RetentionSetup) (plan : RetentionPlan) : Prop :=
  plan.deleteCandidateBackupPublicIds.Nodup ∧
    plan.deleteCandidateBackupPublicIds.length ≤ setup.policy.maximumDeleteBatch

/-- What an execution of a plan may do. -/
structure SafeExecution (setup : RetentionSetup) (plan : RetentionPlan)
    (current : List RetentionCandidate) (g : Store) (l' : RetentionEngine) (g' : Store)
    (ds : List Deletion) : Prop where
  deletions : g'.deletions = g.deletions ++ ds
  /-- The backups are listed in the plan, and none is asked for twice. -/
  listed : (ds.map fun d => d.candidate.backupId).Sublist plan.deleteCandidateBackupPublicIds
  nodup : (ds.map fun d => d.candidate.backupId).Nodup
  batch : ds.length ≤ setup.policy.maximumDeleteBatch
  wasPresent : ∀ d ∈ ds, d.wasPresent = true
  flags : ∀ d ∈ ds, d.candidate ∈ current ∧ d.candidate.retentionClass = .dailyFull ∧
    d.candidate.pinned = false ∧ d.candidate.isProtected = false ∧
    d.candidate.activeOperation = false
  newest : ds = [] ∨ ∃ eligible, setup.policy.dailyFullKeepCount ≤ eligible.length ∧
    KeptNewest setup.policy.dailyFullKeepCount plan.reference current g l' g' ds eligible

/-- What the code of an execution does from `l` and `g`. -/
def Executes (setup : RetentionSetup) (plan : RetentionPlan) (current : List RetentionCandidate)
    (l : RetentionEngine) (g : Store) (l' : RetentionEngine) (g' : Store) : Prop :=
  l'.plans = l.plans ∧ ∃ ds refused, Step ds refused g g' ∧
    SafeExecution setup plan current g l' g' ds

section Execute

variable {setup : RetentionSetup} {plan : RetentionPlan} {current : List RetentionCandidate}
  {l l' l'' : RetentionEngine} {g g' g'' : Store}

/-- An execution that asks for no deletion. -/
lemma executes_of_no_deletion {refused : List ℕ} (hplans : l'.plans = l.plans)
    (hstep : Step [] refused g g') : Executes setup plan current l g l' g' :=
  ⟨hplans, [], refused, hstep, by simpa using hstep.deletions, List.nil_sublist _,
    List.nodup_nil, by simp, by simp, by simp, .inl rfl⟩

lemma reference_not_removed {eligible : List RetentionCandidate} {ds : List Deletion} {k : ℕ}
    (hreferences : (eligible.map RetentionCandidate.reference).Nodup)
    (houtside : ∀ d ∈ ds, d.candidate ∈ eligible.drop k) {c : RetentionCandidate}
    (hc : c ∈ eligible.take k) : c.reference ∉ removedBy ds := by
  intro hremoved
  obtain ⟨d, hd, href⟩ := List.mem_map.mp hremoved
  have hdrop := houtside d (List.mem_filter.mp hd).1
  rw [← List.take_append_drop k eligible, List.map_append] at hreferences
  exact (List.disjoint_of_nodup_append hreferences)
    (List.mem_map_of_mem hc) (href ▸ List.mem_map_of_mem hdrop)

/-- The deletions after an assessment are safe. -/
lemma executes_of_deletedFrom {deleted refused : List ℕ} {a : Assessment}
    (hbound : plan.Batched setup)
    (hkept : Kept plan.reference l l')
    (hdeleted : ∀ b ∈ deleted, b ∈ (l'.progressOf plan.reference).deleted)
    (hfound : Found deleted g.present current refused a.eligible)
    (hsorted : a.eligible.Pairwise RetentionCandidate.notOlder)
    (h : DeletedFrom plan.reference (· ∈ a.eligible.drop setup.policy.dailyFullKeepCount)
      plan.deleteCandidateBackupPublicIds l' (g.refuse refused) l'' g') :
    Executes setup plan current l g l'' g' := by
  obtain ⟨hkept', ds, more, hstep, hlisted, hall⟩ := h
  have hwhole : Step ([] ++ ds) (refused ++ more) g g' := (step_refuse g refused).trans hstep
  rw [List.nil_append] at hwhole
  have hreferences : (a.eligible.map RetentionCandidate.reference).Nodup := by
    refine hfound.nodup.map_on fun c hc d hd heq => ?_
    exact List.inj_on_of_nodup_map hfound.uniqueReferences (hfound.sound c hc).1
      (hfound.sound d hd).1 heq
  have hcheck (c : RetentionCandidate) (hc : c ∈ a.eligible) : c.verdict [] = .check :=
    (verdict_eq_check.mp (hfound.sound c hc).2.1).2
  refine ⟨hkept'.plans.trans hkept.plans, ds, refused ++ more, hwhole, hwhole.deletions, hlisted,
    hbound.1.sublist hlisted, ?_, fun d hd => (hall d hd).1, fun d hd => ?_, ?_⟩
  · have hlength := hlisted.length_le.trans hbound.2
    rwa [List.length_map] at hlength
  · have hmem := List.mem_of_mem_drop (hall d hd).2
    exact ⟨(hfound.sound _ hmem).1, flags_of_check (hcheck _ hmem)⟩
  · rcases ds with _ | ⟨d, ds⟩
    · exact .inl rfl
    · right
      refine ⟨a.eligible, ?_, ⟨fun c hc => ?_, fun c hc hverdict => ?_, hfound.nodup, hsorted,
        fun d hd => (hall d hd).2, fun c hc => ?_⟩⟩
      · have hdrop := List.length_pos_of_mem (hall d List.mem_cons_self).2
        rw [List.length_drop] at hdrop
        omega
      · obtain ⟨hmem, -, hpresent⟩ := hfound.sound c hc
        exact ⟨hmem, hcheck c hc, hpresent⟩
      · by_cases hmem : c.backupId ∈ deleted
        · exact .inr (.inr (hkept'.deleted _ (hdeleted _ hmem)))
        · refine (hfound.complete c hc (verdict_eq_check.mpr ⟨hmem, hverdict⟩)).imp_right ?_
          intro href
          left
          rw [hwhole.refusals, List.drop_left]
          exact List.mem_append_left _ href
      · refine (hwhole.present _).mpr ⟨(hfound.sound c (List.mem_of_mem_take hc)).2.2, ?_⟩
        exact reference_not_removed hreferences (fun d hd => (hall d hd).2) hc

/-- More is noted after the deletions. -/
lemma Executes.idle (h : Executes setup plan current l g l' g')
    (h' : Idle plan.reference l' g' l'' g'') : Executes setup plan current l g l'' g'' := by
  obtain ⟨hplans, ds, refused, hstep, hsafe⟩ := h
  obtain ⟨hkept, rfl⟩ := h'
  refine ⟨hkept.plans.trans hplans, ds, refused, hstep, hsafe.deletions, hsafe.listed,
    hsafe.nodup, hsafe.batch, hsafe.wasPresent, hsafe.flags, hsafe.newest.imp_right ?_⟩
  rintro ⟨eligible, hlength, hnewest⟩
  refine ⟨eligible, hlength, hnewest.sound, fun c hc hverdict => ?_, hnewest.nodup, hnewest.sorted,
    hnewest.outside, hnewest.remain⟩
  exact (hnewest.complete c hc hverdict).imp_right (Or.imp_right (hkept.deleted _))

lemma meets_checkCurrent (tenant : ℕ) (seen candidates : List RetentionCandidate) :
    Meets provider (checkCurrent tenant seen candidates) (fun _ l' g' => l' = l ∧ g' = g)
      (fun _ l' g' => l' = l ∧ g' = g) l g := by
  induction candidates generalizing seen with
  | nil => exact ⟨rfl, rfl⟩
  | cons c candidates ih =>
    unfold checkCurrent
    split
    · exact ⟨rfl, rfl⟩
    · exact ih _

/-- The part of an execution under the lock. -/
lemma meets_executeLocked (original : List RetentionCandidate)
    (hbound : plan.Batched setup) :
    Meets provider (executeLocked setup ⟨plan, original, current⟩)
      (fun _ => Executes setup plan current l g) (fun _ => Executes setup plan current l g)
      l g := by
  have hidle {l' : RetentionEngine} {g' : Store} (h : Idle plan.reference l g l' g') :
      Executes setup plan current l g l' g' := by
    obtain ⟨hkept, rfl⟩ := h
    exact executes_of_no_deletion hkept.plans (Step.refl _)
  unfold executeLocked
  rw [meets_bind]
  refine (meets_checkCurrent _ [] current).mono ?_ ?_
  · rintro _ l₁ g₁ ⟨rfl, rfl⟩
    rw [meets_bind, meets_get, meets_bind]
    refine (meets_confirmPending _).mono ?_ fun _ _ _ h => hidle h
    rintro failure l₂ g₂ ⟨hkept, rfl⟩
    cases failure with
    | true =>
      exact (meets_conclude (E := fun _ _ _ => False) plan [] true).mono
        (fun _ _ _ h => hidle (Idle.trans ⟨hkept, rfl⟩ h)) fun _ _ _ h => h.elim
    | false =>
      rw [if_neg Bool.false_ne_true, meets_bind, meets_get, meets_bind]
      refine (meets_assessCandidates _ _ _ _ _).mono ?_ ?_
      · rintro a l₃ g₃ ⟨rfl, ⟨refused, rfl, hfound⟩, hsorted⟩
        have hsafe {l' : RetentionEngine} {g' : Store}
            (h : DeletedFrom plan.reference
              (· ∈ a.eligible.drop setup.policy.dailyFullKeepCount)
              plan.deleteCandidateBackupPublicIds l₃ (g₂.refuse refused) l' g') :
            Executes setup plan current l₁ g₂ l' g' :=
          executes_of_deletedFrom hbound hkept (fun _ hb => hb) hfound hsorted h
        rw [meets_bind]
        refine (meets_deleteBackups hfound.uniqueIds (fun d hd => (hfound.sound d hd).1) _).mono
          ?_ fun _ _ _ h => hsafe h
        intro failure l₄ g₄ h
        exact (meets_conclude (E := fun _ _ _ => False) plan _ failure).mono
          (fun _ _ _ h' => (hsafe h).idle h') fun _ _ _ h => h.elim
      · rintro e l₃ g₃ ⟨rfl, refused, rfl⟩
        exact executes_of_no_deletion hkept.plans (step_refuse _ _)
  · rintro e l₁ g₁ ⟨rfl, rfl⟩
    exact hidle ⟨.refl _ _, rfl⟩

/-- Every plan of the engine lists at most a batch. -/
def Batched (setup : RetentionSetup) (l : RetentionEngine) : Prop :=
  ∀ reference evidence, l.plans reference = some evidence → evidence.plan.Batched setup

/-- `execute_retention_plan`. -/
theorem meets_executeRetentionPlan (hbatched : Batched setup l) (plan : RetentionPlan)
    (current : List RetentionCandidate) (g : Store) :
    Meets provider (executeRetentionPlan setup plan current)
      (fun _ => Executes setup plan current l g) (fun _ => Executes setup plan current l g)
      l g := by
  have hnone : Executes setup plan current l g l g :=
    executes_of_no_deletion rfl (Step.refl g)
  unfold executeRetentionPlan
  rw [meets_bind, meets_get]
  split
  · exact hnone
  · rename_i evidence hevidence
    split
    · exact hnone
    · rename_i hplan
      have hbound := hbatched _ _ hevidence
      rw [not_not.mp hplan] at hbound
      split
      · exact hnone
      · split
        · exact hnone
        · have hlock : Kept plan.reference l (l.lock plan) :=
            ⟨rfl, (kept_modifyProgress (fun _ _ hb => hb) l).deleted⟩
          have hunlock {l' : RetentionEngine} {g' : Store}
              (h : Executes setup plan current (l.lock plan) g l' g') :
              Executes setup plan current l g { l' with
                activeTenants :=
                  Function.update l'.activeTenants plan.tenantPublicId false } g' := by
            have hidle : Idle plan.reference l' g' { l' with
                activeTenants := Function.update l'.activeTenants plan.tenantPublicId false } g' :=
              ⟨⟨rfl, fun _ hb => hb⟩, rfl⟩
            obtain ⟨hplans, hrest⟩ := h.idle hidle
            exact ⟨hplans.trans hlock.plans, hrest⟩
          rw [meets_bind, meets_modify, meets_ensure]
          refine (meets_executeLocked _ hbound).mono ?_ ?_
          · intro result l' g' h
            exact hunlock h
          · intro e l' g' h
            exact hunlock h

end Execute

/-! ## Planning -/

/-- What planning leaves: a batch in every plan, and nothing but refusals in the store. -/
def Plans (setup : RetentionSetup) (g : Store) (l' : RetentionEngine) (g' : Store) : Prop :=
  Batched setup l' ∧ ∃ refused, g' = g.refuse refused

/-- The plan of an assessment lists at most a batch, of distinct backups. -/
lemma batched_planOf (setup : RetentionSetup) (tenant fingerprint : ℕ) {a : Assessment}
    (hids : (ids a.eligible).Nodup) : (setup.planOf tenant fingerprint a).Batched setup := by
  have hdrop (n : ℕ) : (ids (a.eligible.drop n)).Nodup :=
    hids.sublist ((List.drop_sublist n _).map _)
  unfold RetentionPlan.Batched RetentionSetup.planOf
  simp only []
  split
  · rw [List.drop_drop, ids, List.length_map, List.length_drop, List.length_drop]
    exact ⟨hdrop _, by omega⟩
  · rw [ids, List.length_map]
    exact ⟨hdrop _, by omega⟩

lemma Batched.enter {setup : RetentionSetup} {l : RetentionEngine} (h : Batched setup l)
    (fingerprint : ℕ) {evidence : PlanEvidence} (hevidence : evidence.plan.Batched setup) :
    Batched setup (l.enter fingerprint evidence) := by
  intro reference other hother
  replace hother : Function.update l.plans evidence.plan.reference (some evidence) reference =
    some other := hother
  rw [Function.update_apply] at hother
  split at hother
  · cases hother
    exact hevidence
  · exact h reference other hother

/-- `build_retention_plan`. -/
theorem meets_buildRetentionPlan {setup : RetentionSetup} {l : RetentionEngine}
    (h : Batched setup l) (tenant : ℕ) (candidates : List RetentionCandidate) (g : Store) :
    Meets provider (buildRetentionPlan setup tenant candidates) (fun _ => Plans setup g)
      (fun _ => Plans setup g) l g := by
  have hsame : Plans setup g l g := ⟨h, [], (refuse_nil g).symm⟩
  unfold buildRetentionPlan
  rw [meets_bind, meets_checkDeadline, meets_bind, meets_get]
  refine ⟨?_, hsame⟩
  split
  · exact hsame
  · rw [meets_bind]
    refine (meets_assessCandidates tenant candidates [] l g).mono ?_ ?_
    · rintro a l' g' ⟨rfl, ⟨refused, rfl, hfound⟩, -⟩
      have hids : (ids a.eligible).Nodup := by
        refine hfound.nodup.map_on fun c hc d hd heq => ?_
        exact List.inj_on_of_nodup_map hfound.uniqueIds (hfound.sound c hc).1
          (hfound.sound d hd).1 heq
      have hfailed : Plans setup g l' (g.refuse refused) := ⟨h, refused, rfl⟩
      have hentered : Plans setup g (l'.enter (setup.fingerprint tenant candidates)
          ⟨setup.planOf tenant (setup.fingerprint tenant candidates) a, candidates⟩)
          (g.refuse refused) :=
        ⟨h.enter _ (batched_planOf setup tenant _ hids), refused, rfl⟩
      rw [meets_bind, meets_checkDeadline]
      refine ⟨?_, hfailed⟩
      unfold keepPlan
      rw [meets_bind, meets_get]
      split
      · split
        · exact hfailed
        · exact hentered
      · exact hentered
    · rintro e l' g' ⟨rfl, refused, rfl⟩
      exact ⟨h, refused, rfl⟩

/-! ## Every sequence of calls -/

/-- The engine and the store. -/
structure Retaining where
  engine : RetentionEngine
  store : Store

/-- One call of the engine, with any answers of the provider, or a change of the store between
the calls: objects come and go, but an object that was deleted does not come back. -/
inductive Next (setup : RetentionSetup) : Retaining → Retaining → Prop
  | environment {w : Retaining} (present : List ℕ)
      (hremoved : ∀ r ∈ present, r ∉ w.store.removed) :
      Next setup w ⟨w.engine, { w.store with present := present }⟩
  | build {w : Retaining} {tenant : ℕ} {candidates : List RetentionCandidate}
      {r : Except RetentionFault RetentionPlan × RetentionEngine} {g' : Store}
      (h : Prog.Ends provider ((buildRetentionPlan setup tenant candidates).prog w.engine)
        w.store r g') : Next setup w ⟨r.2, g'⟩
  | execute {w : Retaining} {plan : RetentionPlan} {current : List RetentionCandidate}
      {r : Except RetentionFault RetentionExecutionResult × RetentionEngine} {g' : Store}
      (h : Prog.Ends provider ((executeRetentionPlan setup plan current).prog w.engine)
        w.store r g') : Next setup w ⟨r.2, g'⟩

/-- A new engine over a store in which nothing was deleted. -/
def Retaining.start (present : List ℕ) : Retaining := ⟨.new, ⟨present, [], []⟩⟩

/-- Where a specification says the same of both ways to end. -/
lemma of_ends {α : Type} {x : EngineCode α} {R : RetentionEngine → Store → Prop}
    {l : RetentionEngine} {g g' : Store} {r : Except RetentionFault α × RetentionEngine}
    (h : Meets provider x (fun _ => R) (fun _ => R) l g)
    (hr : Prog.Ends provider (x.prog l) g r g') : R r.2 g' := by
  have hend := hr.of_follows h
  obtain ⟨r, l'⟩ := r
  cases r with
  | ok a => exact hend
  | error e => exact hend

/-- What every call keeps: removed objects are gone, none was removed twice, and every deletion
was asked for an object that was there. -/
structure Orderly (setup : RetentionSetup) (w : Retaining) : Prop where
  batched : Batched setup w.engine
  nodup : w.store.removed.Nodup
  gone : ∀ r ∈ w.store.removed, r ∉ w.store.present
  wasPresent : ∀ d ∈ w.store.deletions, d.wasPresent = true

lemma removed_eq (g : Store) : g.removed = removedBy g.deletions := rfl

/-- Steps of the store keep the order. -/
lemma Orderly.step {setup : RetentionSetup} {w : Retaining} (h : Orderly setup w)
    {ds : List Deletion} {refused : List ℕ} {l' : RetentionEngine} {g' : Store}
    (hbatched : Batched setup l') (hstep : Step ds refused w.store g')
    (hpresent : ∀ d ∈ ds, d.wasPresent = true) : Orderly setup ⟨l', g'⟩ := by
  have hremoved : g'.removed = w.store.removed ++ removedBy ds := by
    rw [removed_eq, hstep.deletions, removedBy_append, ← removed_eq]
  refine ⟨hbatched, ?_, fun r hr => ?_, fun d hd => ?_⟩
  · rw [hremoved]
    refine h.nodup.append hstep.nodup fun r hr hr' => ?_
    exact h.gone r hr (hstep.removed r hr')
  · intro hpresent'
    obtain ⟨hbefore, hkept⟩ := (hstep.present r).mp hpresent'
    rw [hremoved, List.mem_append] at hr
    exact hr.elim (fun hr => h.gone r hr hbefore) hkept
  · rw [hstep.deletions, List.mem_append] at hd
    exact hd.elim (h.wasPresent d) (hpresent d)

/-- One call. -/
lemma Orderly.next {setup : RetentionSetup} {w w' : Retaining} (h : Orderly setup w)
    (hnext : Next setup w w') : Orderly setup w' := by
  cases hnext with
  | environment present hremoved =>
    exact ⟨h.batched, h.nodup, fun r hr hpresent => hremoved r hpresent hr, h.wasPresent⟩
  | build hends =>
    obtain ⟨hbatched, refused, hstore⟩ :=
      of_ends (meets_buildRetentionPlan h.batched _ _ _) hends
    rw [hstore]
    exact h.step hbatched (step_refuse _ refused) (by simp)
  | execute hends =>
    obtain ⟨hplans, ds, refused, hstep, hsafe⟩ :=
      of_ends (meets_executeRetentionPlan h.batched _ _ _) hends
    refine h.step ?_ hstep hsafe.wasPresent
    intro reference evidence hevidence
    exact h.batched reference evidence (by rw [← hplans]; exact hevidence)

lemma orderly_start (setup : RetentionSetup) (present : List ℕ) :
    Orderly setup (Retaining.start present) :=
  ⟨fun _ _ => nofun, List.nodup_nil, by simp [Retaining.start, Store.removed],
    by simp [Retaining.start]⟩

/-- After every sequence of planning and execution, with any changes of the store in between:
no object was removed twice, no deletion was asked for an object that was not there, and every
execution from here, of any plan, against any candidates and with any answers of the provider,
is safe. -/
theorem retention_safe (setup : RetentionSetup) (present : List ℕ) {w : Retaining}
    (h : Relation.ReflTransGen (Next setup) (.start present) w) :
    w.store.removed.Nodup ∧ (∀ d ∈ w.store.deletions, d.wasPresent = true) ∧
    ∀ (plan : RetentionPlan) (current : List RetentionCandidate)
      (r : Except RetentionFault RetentionExecutionResult × RetentionEngine) (g' : Store),
      Prog.Ends provider ((executeRetentionPlan setup plan current).prog w.engine) w.store r g' →
      ∃ ds, SafeExecution setup plan current w.store r.2 g' ds := by
  have horderly : Orderly setup w := by
    induction h with
    | refl => exact orderly_start setup present
    | tail _ hnext ih => exact ih.next hnext
  refine ⟨horderly.nodup, horderly.wasPresent, fun plan current r g' hends => ?_⟩
  obtain ⟨-, ds, -, -, hsafe⟩ := of_ends
    (meets_executeRetentionPlan horderly.batched plan current w.store) hends
  exact ⟨ds, hsafe⟩

/-! ### Two daily backups, one of which is kept -/

/-- A provider that does what it is asked for. -/
def faithfulProvider : Machine Unit Store ProviderCall ProviderCall.Result RetentionFault where
  exec _ call g :=
    match call with
    | .owns c => (.ok (decide (c.reference ∈ g.present)), g)
    | .validate c =>
      if c.reference ∈ g.present then (.ok (), g)
      else (.error .durableObjectValidationError,
        g.check c (.error .durableObjectValidationError))
    | .delete c =>
      if c.reference ∈ g.present then (.ok (), g.delete c true)
      else (.error .durableObjectCleanupError, g.delete c false)
    | .confirmAbsent c => (.ok (decide (c.reference ∉ g.present)), g)
    | .deadline => (.ok (), g)
  torn _ := false

lemma faithfulProvider_served (g : Store) (call : ProviderCall) :
    provider.next g call (faithfulProvider.exec () call g).1
      (faithfulProvider.exec () call g).2 := by
  cases call with
  | owns c => exact rfl
  | validate c =>
    by_cases h : c.reference ∈ g.present
    · simp [provider, faithfulProvider, h, Store.check]
    · simp [provider, faithfulProvider, h]
  | delete c =>
    by_cases h : c.reference ∈ g.present
    · simp only [faithfulProvider, h, if_true]
      exact ⟨true, fun _ => h, rfl⟩
    · simp only [faithfulProvider, h, if_false]
      exact ⟨false, nofun, rfl⟩
  | confirmAbsent c => exact rfl
  | deadline => exact rfl

/-- The state after code whose calls, `n` in all, are served. -/
def Retaining.served {α : Type} (w : Retaining) (x : EngineCode α) (n : ℕ) : Retaining :=
  (((x.prog w.engine).play faithfulProvider () w.store (List.replicate n .served)).map
    fun p => ⟨p.1.2, p.2⟩).getD w

lemma ends_served {α : Type} {w : Retaining} {x : EngineCode α} {n : ℕ}
    (h : ((x.prog w.engine).play faithfulProvider () w.store (List.replicate n .served)).isSome) :
    ∃ a, Prog.Ends provider (x.prog w.engine) w.store (a, (w.served x n).engine)
      (w.served x n).store := by
  obtain ⟨⟨⟨a, l⟩, g⟩, hplay⟩ := Option.isSome_iff_exists.mp h
  have hends := Prog.ends_of_play faithfulProvider_served hplay
  refine ⟨a, ?_⟩
  simpa [Retaining.served, hplay] using hends

/-- One backup is kept. -/
def keepOne : RetentionSetup where
  policy := ⟨1, 10, by decide, by decide⟩
  fingerprint _ candidates := candidates.length
  planIdentifier := id

/-- A daily backup of business 7. -/
def dailyBackup (backup : ℕ) (storedAt : ℤ) : RetentionCandidate where
  context := ⟨backup, 7, 1, backup⟩
  storedObject := ⟨100 + backup, 10, "sha256", backup, 7, storedAt, true, true, false⟩
  retentionClass := .dailyFull
  packageVerified := true
  encryptedArtifactValid := true
  durableVerified := true
  failed := false
  incomplete := false
  cleanupIncomplete := false
  corrupted := false
  deleting := false
  deleted := false
  pinned := false
  isProtected := false
  activeOperation := false

def twoBackups : List RetentionCandidate := [dailyBackup 1 10, dailyBackup 2 20]

/-- The plan that keeps the newer backup. -/
def keepNewer : RetentionPlan where
  reference := 2
  tenantPublicId := 7
  keepCount := 1
  successfulEligibleCount := 2
  retainedBackupPublicIds := [2]
  deleteCandidateBackupPublicIds := [1]
  protectedBackupPublicIds := []
  skippedBackupPublicIds := []
  evidenceSha256 := 2
  auditEvents := [⟨.planCreated, none, "plan_created"⟩]

def retentionPlanned : Retaining :=
  (Retaining.start [101, 102]).served (buildRetentionPlan keepOne 7 twoBackups) 6

def retentionExecuted : Retaining :=
  retentionPlanned.served (executeRetentionPlan keepOne keepNewer twoBackups) 9

/-- The older backup is deleted, and the newer one stays. -/
theorem older_backup_deleted :
    (∃ ds, SafeExecution keepOne keepNewer twoBackups retentionPlanned.store
      retentionExecuted.engine retentionExecuted.store ds) ∧
    retentionExecuted.store.present = [102] ∧
    retentionExecuted.store.deletions = [⟨dailyBackup 1 10, true, true⟩] := by
  obtain ⟨_, hbuild⟩ := ends_served (w := .start [101, 102])
    (x := buildRetentionPlan keepOne 7 twoBackups) (n := 6) (by decide +kernel)
  obtain ⟨b, hexecute⟩ := ends_served (w := retentionPlanned)
    (x := executeRetentionPlan keepOne keepNewer twoBackups) (n := 9) (by decide +kernel)
  refine ⟨?_, by decide +kernel, by decide +kernel⟩
  exact (retention_safe keepOne [101, 102] (.single (.build hbuild))).2.2 keepNewer twoBackups
    (b, _) _ hexecute

end NexaPos.Backups.Retention
