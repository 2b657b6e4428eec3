import NexaPos.Backups.CoordinatorFrame
import NexaPos.Core.Access
import NexaPos.Properties.RestoreOnce

/-!
# The outcome of a restore is truthful

One run of the coordinator, in which any call may raise.  Up to the commit of the mutation nothing
of the tenant changes, whatever was published is new, and no move leads to `SUCCEEDED`; after it
the rows are the verified ones, and the status only goes on to `SUCCEEDED` or to `INDETERMINATE`.
The flags that the handlers decide by tell the two phases apart.
-/

namespace NexaPos.Backups

open Routine

variable {setup : RestoreSetup} {who : ℕ} {s₀ s t : Site} {c : RestoreCall}

/-! ## Answers -/

/-- Any answer leads where the call can lead. -/
lemma siteMove_next {r : Except Fault c.Result}
    (h : ((restoreMachine setup).protocol who).next s c r t) : SiteMove setup s c t := by
  obtain ⟨a, ha⟩ := h
  have hmove := siteMove_answer setup s who c a
  rwa [ha] at hmove

/-- Only a call that is served returns. -/
lemma exec_of_next_ok {x : c.Result}
    (h : ((restoreMachine setup).protocol who).next s c (.ok x) t) :
    c.exec setup s = (.ok x, t) := by
  obtain ⟨a, ha⟩ := h
  cases a with
  | served => exact ha
  | raised e => exact nomatch (Prod.mk.inj ha).1
  | lost e => exact nomatch (Prod.mk.inj ha).1

/-- A call that has no effect leaves the site alone, however it is answered. -/
lemma eq_of_next {r : Except Fault c.Result}
    (h : ((restoreMachine setup).protocol who).next s c r t) (hc : (c.exec setup s).2 = s) :
    t = s := by
  obtain ⟨a, ha⟩ := h
  have hsame : ((restoreMachine setup).answer who c s a).2 = s :=
    Machine.answer_related (R := fun s t => t = s) (fun _ => rfl) hc a
  rwa [ha] at hsame

/-- A commit that raises leaves the site alone. -/
lemma commit_of_next_error {lock : ℕ} {e : Fault}
    (h : ((restoreMachine setup).protocol who).next s (.commitMutation lock) (.error e) t) :
    t = s := by
  obtain ⟨a, ha⟩ := h
  cases a with
  | raised e => exact (Prod.mk.inj ha).2.symm
  | lost e => exact (Prod.mk.inj ha).2.symm
  | served =>
    have ha : commitMutation setup s lock = (.error e, t) := ha
    rcases commitMutation_cases setup s lock with ⟨e', h⟩ | ⟨rows, -, -, h⟩
    · rw [h] at ha
      exact (Prod.mk.inj ha).2.symm
    · rw [h] at ha
      exact nomatch (Prod.mk.inj ha).1

/-! ## What calls leave of the tenant -/

/-- The calls that change rows or media of the tenant. -/
def RestoreCall.touchesTenant : RestoreCall → Bool
  | .publishOne _ => true
  | .unlinkCreated _ _ => true
  | .commitMutation _ => true
  | _ => false

/-- Only a commit changes rows. -/
lemma SiteMove.rows (h : SiteMove setup s c t) (hc : ∀ lock, c ≠ .commitMutation lock) :
    t.rows = s.rows ∧ t.mutations = s.mutations := by
  cases h with
  | committed lock rows hm _ _ => exact absurd hm (hc lock)
  | unchanged => exact ⟨rfl, rfl⟩
  | moved => exact ⟨rfl, rfl⟩
  | authorized => exact ⟨rfl, rfl⟩
  | exhausted => exact ⟨rfl, rfl⟩
  | recorded => exact ⟨rfl, rfl⟩
  | requested => exact ⟨rfl, rfl⟩
  | taken => exact ⟨rfl, rfl⟩
  | finished => exact ⟨rfl, rfl⟩
  | leased => exact ⟨rfl, rfl⟩
  | published => exact ⟨rfl, rfl⟩
  | unlinked => exact ⟨rfl, rfl⟩

/-- A call leaves the media alone, publishes a file where there was none, or removes one. -/
lemma SiteMove.media (h : SiteMove setup s c t) :
    (t.media = s.media ∧ t.nextFile = s.nextFile) ∨
    (∃ item, c = .publishOne item ∧ s.media item.target = none ∧
      t.media = Function.update s.media item.target (some ⟨s.nextFile, item.sha256⟩) ∧
      t.nextFile = s.nextFile + 1) ∨
    ∃ target f, c = .unlinkCreated target f.identity ∧ s.media target = some f ∧
      t.media = Function.update s.media target none ∧ t.nextFile = s.nextFile := by
  cases h with
  | published item hp hfree => exact .inr (.inl ⟨item, hp, hfree, rfl, rfl⟩)
  | unlinked target f hf hu => exact .inr (.inr ⟨target, f, hu, hf, rfl, rfl⟩)
  | unchanged => exact .inl ⟨rfl, rfl⟩
  | moved => exact .inl ⟨rfl, rfl⟩
  | authorized => exact .inl ⟨rfl, rfl⟩
  | exhausted => exact .inl ⟨rfl, rfl⟩
  | recorded => exact .inl ⟨rfl, rfl⟩
  | requested => exact .inl ⟨rfl, rfl⟩
  | taken => exact .inl ⟨rfl, rfl⟩
  | finished => exact .inl ⟨rfl, rfl⟩
  | leased => exact .inl ⟨rfl, rfl⟩
  | committed => exact .inl ⟨rfl, rfl⟩

/-- The other calls leave the rows, the media and the mutations alone. -/
lemma SiteMove.tenant (h : SiteMove setup s c t) (hc : c.touchesTenant = false) :
    t.rows = s.rows ∧ t.media = s.media ∧ t.mutations = s.mutations := by
  have hcommit : ∀ lock, c ≠ .commitMutation lock := by
    rintro lock rfl
    exact absurd hc Bool.noConfusion
  obtain ⟨hrows, hm⟩ := h.rows hcommit
  rcases h.media with ⟨hmedia, -⟩ | ⟨item, rfl, -⟩ | ⟨target, f, rfl, -⟩
  · exact ⟨hrows, hmedia, hm⟩
  · exact absurd hc Bool.noConfusion
  · exact absurd hc Bool.noConfusion

/-- The media files that were there at the start are what they were; files that are created get
identities of their own. -/
structure MediaKept (s₀ s : Site) : Prop where
  kept : ∀ name f, s₀.media name = some f → f.identity < s₀.nextFile → s.media name = some f
  later : s₀.nextFile ≤ s.nextFile

/-- A call keeps the media that were there, unless it removes one of them by name. -/
lemma MediaKept.move (h : MediaKept s₀ s) (hmove : SiteMove setup s c t)
    (hunlink : ∀ target identity, c = .unlinkCreated target identity → s₀.nextFile ≤ identity) :
    MediaKept s₀ t := by
  rcases hmove.media with ⟨hmedia, hnext⟩ | ⟨item, -, hfree, hmedia, hnext⟩ |
    ⟨target, f, hu, hf, hmedia, hnext⟩
  · exact ⟨hmedia ▸ h.kept, hnext ▸ h.later⟩
  · refine ⟨fun name f hf hid => ?_, hnext ▸ h.later.trans (Nat.le_succ _)⟩
    have hs := h.kept name f hf hid
    have hne : name ≠ item.target := by
      rintro rfl
      exact nomatch hfree.symm.trans hs
    rw [hmedia, Function.update_of_ne hne, hs]
  · refine ⟨fun name f' hf' hid => ?_, hnext ▸ h.later⟩
    have hs := h.kept name f' hf' hid
    have hne : name ≠ target := by
      rintro rfl
      obtain rfl : f = f' := Option.some.inj (hf.symm.trans hs)
      exact absurd hid (Nat.not_lt.mpr (hunlink name f.identity hu))
    rw [hmedia, Function.update_of_ne hne, hs]

/-! ## The two phases -/

/-- Nothing of the tenant was changed, and the restore has not succeeded. -/
structure Untouched (s₀ s : Site) : Prop where
  rows : s.rows = s₀.rows
  mutations : s.mutations = s₀.mutations
  status : s.restore.status ≠ .succeeded

lemma Untouched.move (h : Untouched s₀ s) (hmove : SiteMove setup s c t)
    (hcommit : ∀ lock, c ≠ .commitMutation lock)
    (hsucceed : ∀ code, c ≠ .transitionRestore .succeeded code) : Untouched s₀ t := by
  have hstatus : t.restore.status ≠ .succeeded := by
    cases hmove.status with
    | unchanged hs _ => exact hs ▸ h.status
    | transition target code hc _ ht _ =>
      rw [ht]
      rintro rfl
      exact hsucceed code hc
    | restart _ ht _ => exact ht ▸ by decide
    | commit _ ht _ _ => exact ht ▸ by decide
  obtain ⟨hrows, hm⟩ := hmove.rows hcommit
  exact ⟨hrows.trans h.rows, hm.trans h.mutations, hstatus⟩

/-- Every media file of the source package is there. -/
def Published (setup : RestoreSetup) (s : Site) : Prop :=
  ∀ x ∈ setup.sourceMedia, ∃ f, s.media x.1 = some f ∧ f.sha256 = x.2

/-- The mutation committed, and what it left was verified. -/
structure Restored (setup : RestoreSetup) (s₀ s : Site) : Prop where
  rows : mutated setup s₀.rows = .ok s.rows
  verified : verifyRestored s.rows setup.source = .ok ()
  published : Published setup s
  mutation : ∃ m, s.mutations = m :: s₀.mutations
  status : s.restore.status ∈ [.verifying, .succeeded, .indeterminate]

lemma Restored.move (h : Restored setup s₀ s) (hmove : SiteMove setup s c t)
    (hc : c.touchesTenant = false)
    (htarget : ∀ target code, c = .transitionRestore target code →
      target = .succeeded ∨ target = .indeterminate) : Restored setup s₀ t := by
  obtain ⟨hrows, hmedia, hm⟩ := hmove.tenant hc
  refine ⟨hrows ▸ h.rows, hrows ▸ h.verified, ?_, hm ▸ h.mutation, ?_⟩
  · rw [Published, hmedia]
    exact h.published
  · cases hmove.status with
    | unchanged hs _ => exact hs ▸ h.status
    | transition target code hct _ ht _ =>
      rw [ht]
      rcases htarget target code hct with rfl | rfl <;> decide
    | restart hs _ _ =>
      have hstatus := h.status
      rcases hs with hs | hs
      · exact absurd (hs ▸ hstatus) (by decide)
      · exact absurd (hs ▸ hstatus) (by decide)
    | commit _ _ m hm' => exact absurd (hm'.symm.trans hm) (List.cons_ne_self m _)

/-- Before the commit. -/
structure Before (s₀ : Site) (l : ExecuteLocals) (s : Site) : Prop where
  committed : l.mutationCommitted = false
  created : ∀ x ∈ l.createdTargets, s₀.nextFile ≤ x.2
  media : MediaKept s₀ s
  untouched : Untouched s₀ s

/-- After the commit. -/
structure After (setup : RestoreSetup) (s₀ : Site) (l : ExecuteLocals) (s : Site) : Prop where
  started : l.mutationStarted = true
  committed : l.mutationCommitted = true
  media : MediaKept s₀ s
  restored : Restored setup s₀ s

lemma touchesTenant_of_special (h : c.special = false) : c.touchesTenant = false := by
  cases c <;> first | rfl | exact absurd h Bool.noConfusion

lemma ne_of_special (h : c.special = false) : (∀ lock, c ≠ .commitMutation lock) ∧
    (∀ target code, c ≠ .transitionRestore target code) ∧
    ∀ target identity, c ≠ .unlinkCreated target identity := by
  refine ⟨?_, ?_, ?_⟩
  · rintro lock rfl
    exact absurd h Bool.noConfusion
  · rintro target code rfl
    exact absurd h Bool.noConfusion
  · rintro target identity rfl
    exact absurd h Bool.noConfusion

variable (setup who s₀) in
lemma respects_before :
    Respects (· ≠ .succeeded) ((restoreMachine setup).protocol who) (Before s₀) where
  call c hc l s h := by
    obtain ⟨hcommit, hmove, hunlink⟩ := ne_of_special hc
    refine ⟨trivial, fun r t hn => ⟨h.committed, h.created, ?_, ?_⟩⟩
    · exact h.media.move (siteMove_next hn) fun target identity hu => absurd hu (hunlink _ _)
    · exact h.untouched.move (siteMove_next hn) hcommit (hmove _)
  move target ht code l s h := by
    refine ⟨trivial, fun r t hn => ⟨h.committed, h.created, ?_, ?_⟩⟩
    · exact h.media.move (siteMove_next hn) nofun
    · refine h.untouched.move (siteMove_next hn) nofun ?_
      rintro code' ⟨⟩
      exact ht rfl
  assign l l' s hl h := by
    obtain ⟨-, -, hcommitted, hcreated⟩ := hl
    exact ⟨hcommitted.trans h.committed, hcreated ▸ h.created, h.media, h.untouched⟩

variable (setup who s₀) in
lemma respects_after :
    Respects (fun target => target = .succeeded ∨ target = .indeterminate)
      ((restoreMachine setup).protocol who) (After setup s₀) where
  call c hc l s h := by
    obtain ⟨-, hmove, hunlink⟩ := ne_of_special hc
    refine ⟨trivial, fun r t hn => ⟨h.started, h.committed, ?_, ?_⟩⟩
    · exact h.media.move (siteMove_next hn) fun target identity hu => absurd hu (hunlink _ _)
    · exact h.restored.move (siteMove_next hn) (touchesTenant_of_special hc)
        fun target code ht => absurd ht (hmove _ _)
  move target ht code l s h := by
    refine ⟨trivial, fun r t hn => ⟨h.started, h.committed, ?_, ?_⟩⟩
    · exact h.media.move (siteMove_next hn) nofun
    · refine h.restored.move (siteMove_next hn) rfl ?_
      rintro _ _ ⟨⟩
      exact ht
  assign l l' s hl h := by
    obtain ⟨-, hstarted, hcommitted, -⟩ := hl
    exact ⟨hstarted.trans h.started, hcommitted.trans h.committed, h.media, h.restored⟩

/-! ## Up to the commit -/

variable {l : ExecuteLocals}

/-- What a call in the first phase leaves, when it is neither a commit nor a success. -/
lemma Before.move (h : Before s₀ l s) (hmove : SiteMove setup s c t)
    (hcommit : ∀ lock, c ≠ .commitMutation lock)
    (hsucceed : ∀ code, c ≠ .transitionRestore .succeeded code)
    (hunlink : ∀ target identity, c = .unlinkCreated target identity → s₀.nextFile ≤ identity) :
    Before s₀ l t :=
  ⟨h.committed, h.created, h.media.move hmove hunlink, h.untouched.move hmove hcommit hsucceed⟩

/-- A published file is new, and is remembered as created. -/
lemma keeps_publishTarget_before (item : StagedObject) :
    Keeps ((restoreMachine setup).protocol who) (Before s₀) (publishTarget item) := by
  intro l s h
  have hmove {r : Except Fault (Option ℕ)} {t : Site}
      (hn : ((restoreMachine setup).protocol who).next s (.publishOne item) r t) :
      Before s₀ l t := h.move (siteMove_next hn) nofun nofun nofun
  refine meets_perform_bind trivial (fun e t hn => hmove hn) fun created t hn => ?_
  cases created with
  | none => exact hmove hn
  | some identity =>
    have hid : s₀.nextFile ≤ identity := by
      have hexec : publishOne s item = (.ok (some identity), t) := exec_of_next_ok hn
      unfold publishOne at hexec
      split at hexec
      · split at hexec
        · exact nomatch Except.ok.inj (Prod.mk.inj hexec).1
        · exact nomatch (Prod.mk.inj hexec).1
      · split at hexec
        · exact nomatch (Prod.mk.inj hexec).1
        · have hnew := Option.some.inj (Except.ok.inj (Prod.mk.inj hexec).1)
          exact hnew ▸ h.media.later
    have hl : Before s₀ { l with createdTargets := (item.target, identity) :: l.createdTargets }
        t :=
      { hmove hn with created := List.forall_mem_cons.mpr ⟨hid, h.created⟩ }
    exact (respects_before setup who s₀).keeps_attempt _ _ _ hl

/-- The first phase with the flag set that the mutation was started. -/
def Started (s₀ : Site) (l : ExecuteLocals) (s : Site) : Prop :=
  Before s₀ l s ∧ l.mutationStarted = true

variable (setup who s₀) in
lemma respects_started :
    Respects (· ≠ .succeeded) ((restoreMachine setup).protocol who) (Started s₀) where
  call c hc l s h := by
    obtain ⟨hmay, hn⟩ := (respects_before setup who s₀).call c hc l s h.1
    exact ⟨hmay, fun r t ht => ⟨hn r t ht, h.2⟩⟩
  move target ht code l s h := by
    obtain ⟨hmay, hn⟩ := (respects_before setup who s₀).move target ht code l s h.1
    exact ⟨hmay, fun r t ht => ⟨hn r t ht, h.2⟩⟩
  assign l l' s hl h :=
    ⟨(respects_before setup who s₀).assign l l' s hl h.1, hl.2.1.trans h.2⟩

lemma keeps_publishTarget_started (item : StagedObject) :
    Keeps ((restoreMachine setup).protocol who) (Started s₀) (publishTarget item) := by
  refine (keeps_publishTarget_before item).and ?_
  refine keeps_bind (keeps_perform fun _ _ h => ⟨trivial, fun _ _ _ => h⟩) fun created => ?_
  cases created with
  | none => exact keeps_pure
  | some identity =>
    refine keeps_bind (keeps_modify fun _ _ h => h) fun _ => ?_
    exact keeps_perform fun _ _ h => ⟨trivial, fun _ _ _ => h⟩

/-- The staged files are those of the source package. -/
def Staged (setup : RestoreSetup) (items : List StagedObject) : Prop :=
  ∀ x ∈ setup.sourceMedia, ∃ item ∈ items, item.target = x.1 ∧ item.sha256 = x.2

lemma staged_of_stageMedia {items : List StagedObject} (h : stageMedia setup s = .ok items) :
    Staged setup items := by
  have hall := mapM_eq_ok.mp h
  intro x hx
  obtain ⟨item, hitem, hstage⟩ := exists_of_forall₂_mem hall.flip hx
  refine ⟨item, hitem, ?_⟩
  obtain ⟨target, sha256⟩ := x
  dsimp only at hstage
  split at hstage
  · split at hstage
    · cases hstage
      exact ⟨rfl, rfl⟩
    · exact nomatch hstage
  · cases hstage
    exact ⟨rfl, rfl⟩

/-- What the verification of the media finds is published. -/
lemma published_of_verifyMedia {items : List StagedObject} (hstaged : Staged setup items)
    (h : verifyMedia s items = .ok ()) : Published setup s := by
  unfold verifyMedia at h
  split at h
  case isTrue hall =>
    intro x hx
    obtain ⟨item, hitem, htarget, hsha⟩ := hstaged x hx
    have hany := List.all_eq_true.mp hall item hitem
    simp only [Option.any_eq_true, beq_iff_eq] at hany
    obtain ⟨f, hf, hfs⟩ := hany
    exact ⟨f, htarget ▸ hf, hfs.trans hsha⟩
  case isFalse => exact nomatch h

/-- The validation leaves the staged files, and sets the flag. -/
lemma meets_validateRestore {lock : ℕ} (h : Before s₀ l s) :
    Meets ((restoreMachine setup).protocol who) (validateRestore lock)
      (fun items l' s' => Staged setup items ∧ Started s₀ l' s')
      (fun _ l' s' => Before s₀ l' s') l s := by
  have hkeep := respects_before setup who s₀
  have hE : ∀ (e : Fault) (l : ExecuteLocals) (s : Site), Before s₀ l s → Before s₀ l s :=
    fun _ _ _ h => h
  refine (hkeep.keeps_moveRestore (by decide) _).meets_bind h hE fun _ l s h => ?_
  refine (hkeep.keeps_attempt _).meets_bind h hE fun _ l s h => ?_
  refine (hkeep.keeps_ask rfl).meets_bind h hE fun _ l s h => ?_
  refine (hkeep.keeps_ask rfl).meets_bind h hE fun _ l s h => ?_
  refine meets_perform_bind trivial (fun e t hn => ?_) fun items t hn => ?_
  · exact h.move (siteMove_next hn) nofun nofun nofun
  have hexec : (stageMedia setup s, s) = (.ok items, t) := exec_of_next_ok hn
  obtain ⟨hstage, rfl⟩ := Prod.mk.inj hexec
  have hstaged := staged_of_stageMedia hstage
  have hl : Before s₀ { l with stagedMedia := some items } s :=
    ⟨h.committed, h.created, h.media, h.untouched⟩
  rw [meets_bind, meets_modify]
  refine (hkeep.keeps_heartbeat lock).meets_bind hl hE fun _ l s h => ?_
  refine (hkeep.keeps_moveRestore (by decide) _).meets_bind h hE fun _ l s h => ?_
  exact ⟨hstaged, ⟨h.committed, h.created, h.media, h.untouched⟩, rfl⟩

/-! ## The commit -/

/-- The mutation transaction commits verified rows and published media, or nothing. -/
lemma meets_mutationTransaction {lock : ℕ} {items : List StagedObject}
    (hstaged : Staged setup items) (h : Started s₀ l s) :
    Meets ((restoreMachine setup).protocol who) (mutationTransaction lock items)
      (fun _ l' s' => After setup s₀ { l' with mutationCommitted := true } s')
      (fun _ l' s' => Started s₀ l' s') l s := by
  have hkeep := respects_started setup who s₀
  have hE : ∀ (e : Fault) (l : ExecuteLocals) (s : Site), Started s₀ l s → Started s₀ l s :=
    fun _ _ _ h => h
  have hplain {c : RestoreCall} {l : ExecuteLocals} {s t : Site} {r : Except Fault c.Result}
      (hc : c.special = false) (h : Started s₀ l s)
      (hn : ((restoreMachine setup).protocol who).next s c r t) : Started s₀ l t :=
    (hkeep.call c hc l s h).2 r t hn
  refine meets_perform_bind trivial (fun e t hn => hplain rfl h hn) fun rows t hn => ?_
  have hrows : mutated setup s₀.rows = .ok rows := by
    have hexec := exec_of_next_ok hn
    simp only [RestoreCall.exec] at hexec
    split at hexec
    case h_1 rows' hm =>
      obtain rfl := Except.ok.inj (Prod.mk.inj hexec).1
      rwa [h.1.untouched.rows] at hm
    case h_2 => cases (Prod.mk.inj hexec).1
  have h := hplain rfl h hn
  refine (hkeep.keeps_attempt _).meets_bind h hE fun _ l s h => ?_
  refine (keeps_publishAll fun item _ => keeps_publishTarget_started item).meets_bind h hE ?_
  intro _ l s h
  refine (hkeep.keeps_activity _).meets_bind h hE fun _ l s h => ?_
  refine (hkeep.keeps_ask rfl).meets_bind h hE fun _ l s h => ?_
  refine meets_perform_bind trivial (fun e t hn => hplain rfl h hn) fun _ t hn => ?_
  have hverified : verifyRestored rows setup.source = .ok () := by
    have hexec := exec_of_next_ok hn
    simp only [RestoreCall.exec] at hexec
    split at hexec
    case h_1 hv => exact hv
    case h_2 => cases (Prod.mk.inj hexec).1
  have h := hplain rfl h hn
  refine meets_perform_bind trivial (fun e t hn => hplain rfl h hn) fun _ u hn => ?_
  have hpublished : Published setup u := by
    have hexec : (verifyMedia t items, t) = (.ok (), u) := exec_of_next_ok hn
    obtain ⟨hv, rfl⟩ := Prod.mk.inj hexec
    exact published_of_verifyMedia hstaged hv
  have h := hplain rfl h hn
  refine meets_perform_bind trivial (fun e t hn => hplain rfl h hn) fun _ v hn => ?_
  have hpublished : Published setup v := by
    rw [Published, ((siteMove_next hn).tenant rfl).2.1]
    exact hpublished
  have h := hplain rfl h hn
  rw [ask, meets_perform]
  refine ⟨trivial, fun r w hn => ?_⟩
  cases r with
  | error e => exact commit_of_next_error hn ▸ h
  | ok _ =>
    have hexec : commitMutation setup v lock = (.ok (), w) := exec_of_next_ok hn
    rcases commitMutation_cases setup v lock with ⟨e, hc⟩ | ⟨rows', -, hm, hc⟩
    · rw [hc] at hexec
      cases (Prod.mk.inj hexec).1
    · rw [hc] at hexec
      obtain rfl := (Prod.mk.inj hexec).2
      rw [h.1.untouched.rows] at hm
      obtain rfl : rows = rows' := Except.ok.inj (hrows.symm.trans hm)
      refine ⟨h.2, rfl, h.1.media.move (siteMove_next hn) (fun _ _ h => by cases h), ?_⟩
      refine ⟨hrows, hverified, hpublished, ?_, List.mem_cons_self⟩
      rw [← h.1.untouched.mutations]
      exact ⟨_, rfl⟩

/-- One of the two phases. -/
def Either (setup : RestoreSetup) (s₀ : Site) (l : ExecuteLocals) (s : Site) : Prop :=
  Before s₀ l s ∨ After setup s₀ l s

/-- The body ends after the commit, or it raises in one of the two phases. -/
lemma meets_executeBody_phases (h : Before s₀ l s) :
    Meets ((restoreMachine setup).protocol who) executeBody
      (fun _ l' s' => After setup s₀ l' s') (fun _ l' s' => Either setup s₀ l' s') l s := by
  have hbefore := respects_before setup who s₀
  have hstarted := respects_started setup who s₀
  have hE : ∀ (e : Fault) (l : ExecuteLocals) (s : Site), Before s₀ l s → Either setup s₀ l s :=
    fun _ _ _ h => .inl h
  have hE' : ∀ (e : Fault) (l : ExecuteLocals) (s : Site),
      Started s₀ l s → Either setup s₀ l s := fun _ _ _ h => .inl h.1
  have hsecure : Keeps ((restoreMachine setup).protocol who) (Before s₀) secureTenant := by
    refine keeps_bind (hbefore.keeps_moveRestore (by decide) _) fun _ => ?_
    have hacquire : Keeps ((restoreMachine setup).protocol who) (Before s₀) acquireLock :=
      keeps_bind (hbefore.keeps_ask rfl) fun _ => keeps_perform fun l s h =>
        ⟨trivial, fun r t hn => h.move (siteMove_next hn) nofun nofun nofun⟩
    refine keeps_bind hacquire fun lock => ?_
    refine keeps_bind (keeps_modify fun l s h => ?_) fun _ => ?_
    · exact ⟨h.committed, h.created, h.media, h.untouched⟩
    · exact keeps_bind (hbefore.keeps_safeguardTenant (by decide) lock) fun _ => keeps_pure
  refine hsecure.meets_bind h hE fun lock l s h => ?_
  rw [meets_bind]
  refine (meets_validateRestore h).mono (fun items l s hs => ?_) hE
  obtain ⟨hstaged, h⟩ := hs
  refine (hstarted.keeps_activity _).meets_bind h hE' fun _ l s h => ?_
  refine (hstarted.keeps_attempt _).meets_bind h hE' fun _ l s h => ?_
  rw [meets_bind]
  refine (meets_mutationTransaction hstaged h).mono (fun _ l s h => ?_) hE'
  rw [meets_bind, meets_modify]
  refine ((respects_after setup who s₀).keeps_finishRestore (.inl rfl) _ _ h).mono
    (fun _ _ _ h => h) fun _ _ _ h => .inr h

/-! ## The handlers -/

/-- Before the commit the handlers record what they find, and no success. -/
lemma keeps_settle_before (e : Fault) :
    Keeps ((restoreMachine setup).protocol who) (Before s₀) (settleFailure e) := by
  have hkeep := respects_before setup who s₀
  refine hkeep.keeps_settleFailure (hkeep.keeps_proveRollback fun l s h x hx => ?_) ?_ e
  · refine keeps_perform fun l' s' h' => ⟨trivial, fun r t hn => ?_⟩
    refine h'.move (siteMove_next hn) nofun nofun ?_
    rintro _ _ ⟨⟩
    exact h.created x hx
  · exact fun cause => hkeep.keeps_markFailure (by decide) (by decide) (by decide) (by decide) cause

/-- After the commit the handlers neither roll back nor record a failure before the mutation. -/
lemma keeps_settle_after (e : Fault) :
    Keeps ((restoreMachine setup).protocol who) (After setup s₀) (settleFailure e) := by
  have hkeep := respects_after setup who s₀
  refine hkeep.keeps_settleFailure (fun l s h => ?_) (fun cause l s h => ?_) e
  · rw [proveRollback, meets_bind, meets_get, if_neg fun hc => hc.2 h.committed]
    exact h
  · have hnot : ¬ (¬ l.mutationCommitted = true ∧ l.rollbackProven = true) :=
      fun hc => hc.1 h.committed
    rw [markFailure, meets_bind, meets_get, if_neg (not_not.mpr h.started), if_neg hnot]
    exact hkeep.keeps_requireRecovery (.inr rfl) l s h

/-- The clean-up and the release of the lease stay in the phase. -/
lemma meets_endRestore_either (h : Either setup s₀ l s) :
    Meets ((restoreMachine setup).protocol who) endRestore
      (fun _ l' s' => Either setup s₀ l' s') (fun _ l' s' => Either setup s₀ l' s') l s := by
  rcases h with h | h
  · refine ((respects_before setup who s₀).keeps_endRestore (by decide) (fun lock _ => ?_) l s h).mono
      (fun _ _ _ h => .inl h) fun _ _ _ h => .inl h
    exact keeps_perform fun l s h => ⟨trivial, fun r t hn =>
      h.move (siteMove_next hn) nofun nofun nofun⟩
  · refine ((respects_after setup who s₀).keeps_endRestore (.inr rfl) (fun lock _ => ?_) l s h).mono
      (fun _ _ _ h => .inr h) fun _ _ _ h => .inr h
    refine keeps_perform fun l s h => ⟨trivial, fun r t hn => ?_⟩
    exact ⟨h.started, h.committed, h.media.move (siteMove_next hn) nofun,
      h.restored.move (siteMove_next hn) rfl nofun⟩

/-! ## The run -/

/-- What the status of a restore at the end of a run says about the tenant. -/
structure Truthful (setup : RestoreSetup) (s t : Site) : Prop where
  succeeded : t.restore.status = .succeeded → t = s ∨
    (mutated setup s.rows = .ok t.rows ∧ verifyRestored t.rows setup.source = .ok () ∧
      Published setup t ∧ ∃ m, t.mutations = m :: s.mutations)
  unchanged : t.restore.status = .rolledBack ∨ t.restore.status = .failed →
    t.rows = s.rows ∧ t.mutations = s.mutations
  media : ∀ name f, s.media name = some f → f.identity < s.nextFile → t.media name = some f
  once : t.mutations ≠ s.mutations →
    (claimRestoreOperation t).1 ≠ .claimed ∧ restartFailedRestore t = (.error .error, t)

lemma truthful_of_before (h : Before s₀ l s) : Truthful setup s₀ s where
  succeeded hs := absurd hs h.untouched.status
  unchanged _ := ⟨h.untouched.rows, h.untouched.mutations⟩
  media := h.media.kept
  once hne := absurd h.untouched.mutations hne

lemma truthful_of_after (h : After setup s₀ l s) : Truthful setup s₀ s where
  succeeded _ := .inr ⟨h.restored.rows, h.restored.verified, h.restored.published,
    h.restored.mutation⟩
  unchanged hs := by
    have hstatus := h.restored.status
    rcases hs with hs | hs
    · exact absurd (hs ▸ hstatus) (by decide)
    · exact absurd (hs ▸ hstatus) (by decide)
  media := h.media.kept
  once _ := by
    have hqueued : s.restore.status ≠ .queued := by
      intro hq
      exact absurd (hq ▸ h.restored.status) (by decide)
    have hretry : s.restore.retryable ≠ true := by
      intro hr
      exact absurd (RestoreOperation.failed_of_retryable hr ▸ h.restored.status) (by decide)
    have hclaim := (claimRestoreOperation_cases s).resolve_right fun h => h.1.elim hqueued hretry
    exact ⟨hclaim.1, ((restartFailedRestore_cases s).resolve_right fun h => hretry h.1)⟩

lemma truthful_refl (s : Site) : Truthful setup s s where
  succeeded _ := .inl rfl
  unchanged _ := ⟨rfl, rfl⟩
  media _ _ h _ := h
  once h := absurd rfl h

/-- A restore that has succeeded is left alone. -/
lemma meets_execute_succeeded (hs : s₀.restore.status = .succeeded) :
    Meets ((restoreMachine setup).protocol who) execute
      (fun _ _ t => Truthful setup s₀ t) (fun _ _ t => Truthful setup s₀ t) l s₀ := by
  have hattempt (step : RestoreStep) :
      Keeps ((restoreMachine setup).protocol who) (fun _ t => t = s₀) (attempt step : Execute Unit) :=
    keeps_perform fun l s h => ⟨trivial, fun r t hn => (eq_of_next hn rfl).trans h⟩
  have htrue : ∀ (e : Fault) (l : ExecuteLocals) (t : Site), t = s₀ → Truthful setup s₀ t := by
    rintro _ _ t rfl
    exact truthful_refl t
  refine (hattempt _).meets_bind rfl htrue fun _ l s h => ?_
  subst h
  refine meets_perform_bind trivial (fun e t hn => htrue e l t (eq_of_next hn rfl)) ?_
  intro row t hn
  obtain ⟨hrow, rfl⟩ := Prod.mk.inj (exec_of_next_ok hn)
  obtain rfl : s.restore = row := Except.ok.inj hrow
  rw [prepareRestoreState, hs]
  dsimp only
  split
  · rw [meets_bind]
    refine (hattempt _).meets_bind rfl htrue fun _ l t h => ?_
    exact htrue .error l t h
  · exact htrue .error l s rfl

/-- Any other restore goes from the first phase to an end in one of the two. -/
lemma meets_execute_before (h : Before s₀ l s) :
    Meets ((restoreMachine setup).protocol who) execute
      (fun _ _ t => Truthful setup s₀ t) (fun _ _ t => Truthful setup s₀ t) l s := by
  have hkeep := respects_before setup who s₀
  have htrue : ∀ (e : Fault) (l : ExecuteLocals) (t : Site), Before s₀ l t → Truthful setup s₀ t :=
    fun _ _ _ h => truthful_of_before h
  have heither : ∀ (l : ExecuteLocals) (t : Site), Either setup s₀ l t → Truthful setup s₀ t :=
    fun _ _ h => h.elim truthful_of_before truthful_of_after
  have hend : ∀ (l : ExecuteLocals) (t : Site), Either setup s₀ l t →
      Meets ((restoreMachine setup).protocol who) endRestore
        (fun _ _ t => Truthful setup s₀ t) (fun _ _ t => Truthful setup s₀ t) l t :=
    fun l t h => (meets_endRestore_either h).mono (fun _ l t h => heither l t h)
      fun _ l t h => heither l t h
  refine (hkeep.keeps_attempt _).meets_bind h htrue fun _ l s h => ?_
  refine (hkeep.keeps_ask rfl).meets_bind h htrue fun row l s h => ?_
  refine (hkeep.keeps_prepareRestoreState (by decide) row).meets_bind h htrue ?_
  intro existing l s h
  cases existing with
  | true => exact truthful_of_before h
  | false =>
    change Meets _ executePrepared _ _ l s
    rw [executePrepared, meets_bind, meets_tryCatch]
    refine (meets_executeBody_phases h).mono (fun _ l t h => hend l t (.inr h)) ?_
    rintro e l t (h | h)
    · exact (keeps_settle_before e l t h).mono (fun _ l t h => hend l t (.inl h))
        fun _ _ _ h => truthful_of_before h
    · exact (keeps_settle_after e l t h).mono (fun _ l t h => hend l t (.inr h))
        fun _ _ _ h => truthful_of_after h

/-- A package with one media file. -/
def mediaRestoreSetup : RestoreSetup :=
  { emptyRestoreSetup with sourceMedia := [("products/1.png", "5f")] }

/-- The run of the coordinator in which the calls are answered as listed. -/
def restoreRun (answers : List (Answer Fault)) :
    Option ((Except Fault Unit × ExecuteLocals) × Site) :=
  (execute.prog {}).play (restoreMachine mediaRestoreSetup) 0 {} answers

/-- An abort at the last hook before the commit rolls the restore and its media file back. -/
example : (restoreRun (List.replicate 46 .served ++ [.raised .abort] ++
      List.replicate 10 .served)).map
    (fun x => (x.2.restore.status, (x.2.media "products/1.png").isSome)) =
      some (.rolledBack, false) := by
  decide +kernel

end NexaPos.Backups
