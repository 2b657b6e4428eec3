import NexaPos.Backups.RestoreMutation

/-!
# What the coordinator keeps

Most statements of `execute` call something that neither opens or gives back a lease, nor moves
the status, nor touches media or rows, and assign variables that no handler decides by.  What such
calls and assignments keep, whole functions of the coordinator keep; this is stated once here, for
any protocol, and used with what each protocol is about.
-/

namespace NexaPos.Backups

open Routine

/-- The calls that open or give back a lease, publish or remove media, commit, or move the
status. -/
def RestoreCall.special : RestoreCall → Bool
  | .acquireLock _ => true
  | .releaseLock _ _ => true
  | .publishOne _ => true
  | .unlinkCreated _ _ => true
  | .commitMutation _ => true
  | .transitionRestore _ _ => true
  | _ => false

/-- The variables that the handlers decide by are the same. -/
def SameDecisions (l l' : ExecuteLocals) : Prop :=
  l'.lock = l.lock ∧ l'.mutationStarted = l.mutationStarted ∧
    l'.mutationCommitted = l.mutationCommitted ∧ l'.createdTargets = l.createdTargets

variable {γ : Type}

/-- The property is kept by the calls that are not special, by the moves to the statuses of `T`,
and by assignments. -/
structure Respects (T : RestoreStatus → Prop)
    (P : Protocol γ RestoreCall RestoreCall.Result Fault) (I : ExecuteLocals → γ → Prop) :
    Prop where
  call : ∀ c, c.special = false → ∀ l g, I l g →
    P.may g c ∧ ∀ r g', P.next g c r g' → I l g'
  move : ∀ target, T target → ∀ code l g, I l g → P.may g (.transitionRestore target code) ∧
    ∀ r g', P.next g (.transitionRestore target code) r g' → I l g'
  assign : ∀ l l' g, SameDecisions l l' → I l g → I l' g

variable {T : RestoreStatus → Prop} {P : Protocol γ RestoreCall RestoreCall.Result Fault}
  {I : ExecuteLocals → γ → Prop}

namespace Respects

lemma keeps_ask (h : Respects T P I) {c : RestoreCall} (hc : c.special = false) :
    Keeps P I (ask c) := keeps_perform (h.call c hc)

lemma keeps_attempt (h : Respects T P I) (step : RestoreStep) : Keeps P I (attempt step) :=
  h.keeps_ask rfl

lemma keeps_activity (h : Respects T P I) (event : RestoreEvent) : Keeps P I (activity event) :=
  h.keeps_attempt _

lemma keeps_heartbeat (h : Respects T P I) (lock : ℕ) : Keeps P I (heartbeat lock) :=
  keeps_bind (keeps_bind (h.keeps_ask rfl) fun _ => h.keeps_ask rfl) fun _ =>
    keeps_ite keeps_pure keeps_throw

lemma keeps_assign (h : Respects T P I) {f : ExecuteLocals → ExecuteLocals}
    (hf : ∀ l, SameDecisions l (f l)) : Keeps P I (modify f : Execute PUnit) :=
  keeps_modify fun l g hI => h.assign l (f l) g (hf l) hI

lemma keeps_bindRestore (h : Respects T P I) (row : RestoreOperation) :
    Keeps P I (bindRestore row) := h.keeps_assign fun _ => ⟨rfl, rfl, rfl, rfl⟩

lemma keeps_moveRestore (h : Respects T P I) {target : RestoreStatus} (ht : T target)
    (code : FailureCode) : Keeps P I (moveRestore target code) :=
  keeps_bind (keeps_perform (h.move target ht code)) fun row => h.keeps_bindRestore row

/-! ## Before the mutation -/

lemma keeps_prepareRestoreState (h : Respects T P I) (ht : T .authorizing)
    (restore : RestoreOperation) : Keeps P I (prepareRestoreState restore) := by
  unfold prepareRestoreState
  split
  · exact keeps_ite (keeps_bind (h.keeps_attempt _) fun _ => keeps_pure) keeps_throw
  · refine keeps_bind (keeps_tryCatch (h.keeps_ask rfl) fun _ => ?_) fun row => ?_
    · exact keeps_ite keeps_throw keeps_throw
    · exact keeps_bind (h.keeps_bindRestore row) fun _ => keeps_pure
  · exact keeps_bind (h.keeps_moveRestore ht _) fun _ => keeps_pure
  · exact keeps_bind (h.keeps_bindRestore _) fun _ => keeps_pure
  · exact keeps_throw

lemma keeps_createSafetyBackup (h : Respects T P I) (lock : ℕ) :
    Keeps P I (createSafetyBackup lock) := by
  have hrun (safety : ℕ) : Keeps P I (runSafetyBackup lock safety) :=
    keeps_bind (h.keeps_heartbeat lock) fun _ => keeps_bind (h.keeps_ask rfl) fun _ =>
      keeps_bind (h.keeps_heartbeat lock) fun _ => h.keeps_ask rfl
  have hearlier : Keeps P I earlierSafetyBackup := by
    refine keeps_bind (h.keeps_ask rfl) fun current => ?_
    split
    · exact keeps_bind (h.keeps_ask rfl) fun _ => keeps_pure
    · exact keeps_pure
  refine keeps_bind hearlier fun earlier => ?_
  split
  · exact keeps_pure
  · refine keeps_bind (h.keeps_ask rfl) fun safety => ?_
    refine keeps_bind (keeps_tryCatch (hrun safety) fun e => keeps_ite keeps_throw keeps_throw) ?_
    intro _
    refine keeps_bind (h.keeps_ask rfl) fun result => ?_
    exact keeps_unless keeps_throw fun _ => keeps_bind (h.keeps_ask rfl) fun _ => keeps_pure

lemma keeps_safeguardTenant (h : Respects T P I) (ht : T .safetyBackup) (lock : ℕ) :
    Keeps P I (safeguardTenant lock) := by
  refine keeps_bind (h.keeps_activity _) fun _ => ?_
  refine keeps_bind (h.keeps_attempt _) fun _ => ?_
  refine keeps_bind (h.keeps_assign fun _ => ⟨rfl, rfl, rfl, rfl⟩) fun _ => ?_
  refine keeps_bind (h.keeps_heartbeat lock) fun _ => ?_
  refine keeps_bind (h.keeps_activity _) fun _ => ?_
  refine keeps_bind (h.keeps_moveRestore ht _) fun _ => ?_
  refine keeps_bind (h.keeps_activity _) fun _ => ?_
  refine keeps_bind (h.keeps_attempt _) fun _ => ?_
  refine keeps_bind (h.keeps_createSafetyBackup lock) fun safety => ?_
  refine keeps_bind (h.keeps_assign fun _ => ⟨rfl, rfl, rfl, rfl⟩) fun _ => ?_
  refine keeps_bind (h.keeps_attempt _) fun _ => ?_
  exact keeps_bind (h.keeps_heartbeat lock) fun _ => h.keeps_activity _

lemma keeps_validateRestore (h : Respects T P I) (hvalid : T .validating) (hrest : T .restoring)
    (hstart : ∀ l g, I l g → I { l with mutationStarted := true } g) (lock : ℕ) :
    Keeps P I (validateRestore lock) := by
  refine keeps_bind (h.keeps_moveRestore hvalid _) fun _ => ?_
  refine keeps_bind (h.keeps_attempt _) fun _ => ?_
  refine keeps_bind (h.keeps_ask rfl) fun _ => ?_
  refine keeps_bind (h.keeps_ask rfl) fun _ => ?_
  refine keeps_bind (h.keeps_ask rfl) fun staged => ?_
  refine keeps_bind (h.keeps_assign fun _ => ⟨rfl, rfl, rfl, rfl⟩) fun _ => ?_
  refine keeps_bind (h.keeps_heartbeat lock) fun _ => ?_
  refine keeps_bind (h.keeps_moveRestore hrest _) fun _ => ?_
  exact keeps_bind (keeps_modify hstart) fun _ => keeps_pure

/-! ## After the mutation -/

lemma keeps_finishRestore (h : Respects T P I) (ht : T .succeeded) :
    Keeps P I finishRestore := by
  refine keeps_bind (h.keeps_activity _) fun _ => ?_
  refine keeps_bind (h.keeps_attempt _) fun _ => ?_
  refine keeps_bind (h.keeps_assign fun _ => ⟨rfl, rfl, rfl, rfl⟩) fun _ => ?_
  refine keeps_bind (h.keeps_attempt _) fun _ => ?_
  refine keeps_bind (h.keeps_assign fun _ => ⟨rfl, rfl, rfl, rfl⟩) fun _ => ?_
  exact keeps_bind (h.keeps_moveRestore ht _) fun _ => h.keeps_activity _

/-! ## Failures -/

lemma keeps_markPreMutationFailure (h : Respects T P I) (ht : T .failed) (cause : Fault) :
    Keeps P I (markPreMutationFailure cause) :=
  keeps_bind (h.keeps_ask rfl) fun _ =>
    keeps_ite (h.keeps_moveRestore ht _) (h.keeps_bindRestore _)

lemma keeps_markRolledBack (h : Respects T P I) (hback : T .rollingBack) (ht : T .rolledBack) :
    Keeps P I markRolledBack := by
  refine keeps_bind (h.keeps_ask rfl) fun current => ?_
  refine keeps_bind (h.keeps_bindRestore _) fun _ => ?_
  refine keeps_when (h.keeps_moveRestore hback _) fun _ => ?_
  exact keeps_bind keeps_get fun l => keeps_ite (h.keeps_moveRestore ht _) keeps_pure

lemma keeps_markRecoveryRequired (h : Respects T P I) (ht : T .indeterminate) :
    Keeps P I markRecoveryRequired :=
  keeps_bind (h.keeps_ask rfl) fun _ =>
    keeps_ite (h.keeps_moveRestore ht _) (h.keeps_bindRestore _)

lemma keeps_setSafeError (h : Respects T P I) (e : Fault) : Keeps P I (setSafeError e) :=
  h.keeps_assign fun _ => ⟨rfl, rfl, rfl, rfl⟩

lemma keeps_setAborted (h : Respects T P I) : Keeps P I setAborted :=
  h.keeps_assign fun _ => ⟨rfl, rfl, rfl, rfl⟩

/-- A failure after which recovery is required. -/
lemma keeps_requireRecovery (h : Respects T P I) (ht : T .indeterminate) :
    Keeps P I
      (do
        markRecoveryRequired
        setSafeError .engine
        activity .recoveryRequired) :=
  keeps_bind (h.keeps_markRecoveryRequired ht) fun _ =>
    keeps_bind (h.keeps_setSafeError _) fun _ => h.keeps_activity _

lemma keeps_markFailure (h : Respects T P I) (hfailed : T .failed) (hrolling : T .rollingBack)
    (hrolled : T .rolledBack) (hind : T .indeterminate) (cause : Fault) :
    Keeps P I (markFailure cause) := by
  refine keeps_bind keeps_get fun l => keeps_ite ?_ (keeps_ite ?_ (h.keeps_requireRecovery hind))
  · exact keeps_bind (h.keeps_markPreMutationFailure hfailed _) fun _ => h.keeps_activity _
  · exact keeps_bind (h.keeps_markRolledBack hrolling hrolled) fun _ => h.keeps_activity _

/-- What recording a failure keeps, when marking it keeps it. -/
lemma keeps_recordFailure (h : Respects T P I) {cause : Fault}
    (hmark : Keeps P I (markFailure cause)) : Keeps P I (recordFailure cause) := by
  refine keeps_tryCatch hmark fun e => keeps_ite keeps_throw ?_
  exact keeps_bind keeps_get fun l => keeps_ite (h.keeps_setSafeError _) keeps_pure

lemma keeps_rollbackMedia (h : Respects T P I) {targets : List (String × ℕ)}
    (hunlink : ∀ x ∈ targets, Keeps P I (ask (.unlinkCreated x.1 x.2) : Execute Unit)) :
    Keeps P I (rollbackMedia targets) := by
  induction targets with
  | nil => exact h.keeps_attempt _
  | cons x rest ih =>
    refine keeps_bind (hunlink x List.mem_cons_self) fun _ => ?_
    exact ih fun y hy => hunlink y (List.mem_cons_of_mem x hy)

/-- A rollback keeps what the removal of the created files keeps. -/
lemma keeps_proveRollback (h : Respects T P I)
    (hroll : ∀ l g, I l g → ∀ x ∈ l.createdTargets,
      Keeps P I (ask (.unlinkCreated x.1 x.2) : Execute Unit)) : Keeps P I proveRollback := by
  intro l g hI
  rw [proveRollback, meets_bind, meets_get]
  refine keeps_ite (keeps_tryCatch ?_ fun e => ?_) keeps_pure l g hI
  · exact keeps_when (h.keeps_rollbackMedia (hroll l g hI)) fun _ =>
      h.keeps_assign fun _ => ⟨rfl, rfl, rfl, rfl⟩
  · refine keeps_when h.keeps_setAborted fun _ => ?_
    exact keeps_bind (h.keeps_setSafeError _) fun _ =>
      h.keeps_assign fun _ => ⟨rfl, rfl, rfl, rfl⟩

/-- What the failure of the body keeps, when the rollback and the mark keep it. -/
lemma keeps_settleFailure (h : Respects T P I) (hroll : Keeps P I proveRollback)
    (hmark : ∀ cause, Keeps P I (markFailure cause)) (e : Fault) :
    Keeps P I (settleFailure e) := by
  dsimp only [settleFailure]
  refine keeps_when h.keeps_setAborted fun _ => ?_
  refine keeps_bind (h.keeps_setSafeError _) fun _ => ?_
  refine keeps_bind hroll fun _ => ?_
  exact keeps_bind keeps_get fun l => h.keeps_recordFailure (hmark _)

/-! ## The end -/

lemma keeps_cleanUpRestore (h : Respects T P I) (ht : T .indeterminate) :
    Keeps P I cleanUpRestore := by
  have hclean (step : RestoreStep) : Keeps P I (cleanUp step) :=
    keeps_tryCatch (keeps_bind (h.keeps_attempt _) fun _ => keeps_pure) fun _ =>
      keeps_ite (keeps_bind h.keeps_setAborted fun _ => keeps_pure) keeps_pure
  have hrest (mediaFailed preflightFailed : Bool) : Keeps P I
      (do
        let l ← get
        if (mediaFailed || preflightFailed) ∧ l.safeError.isNone then
          setSafeError .engine
          markRecoveryRequired) :=
    keeps_bind keeps_get fun l => keeps_ite
      (keeps_bind (h.keeps_setSafeError _) fun _ => h.keeps_markRecoveryRequired ht) keeps_pure
  refine keeps_bind keeps_get fun l => keeps_either (hclean _) keeps_pure fun mediaFailed => ?_
  exact keeps_either (hclean _) keeps_pure fun preflightFailed => hrest mediaFailed preflightFailed

lemma keeps_concludeRestore : Keeps P I concludeRestore := by
  refine keeps_bind keeps_get fun l => keeps_when keeps_throw fun _ => ?_
  split
  · exact keeps_throw
  · exact keeps_ite keeps_pure keeps_throw

/-- The end of a restore keeps what the release of its lease keeps. -/
lemma keeps_endRestore (h : Respects T P I) (ht : T .indeterminate)
    (hrelease : ∀ lock now, Keeps P I (ask (.releaseLock lock now) : Execute Bool)) :
    Keeps P I endRestore := by
  refine keeps_bind (h.keeps_cleanUpRestore ht) fun _ => keeps_bind ?_ fun _ =>
    keeps_concludeRestore
  refine keeps_bind keeps_get fun l => ?_
  split
  · exact keeps_pure
  · refine keeps_tryCatch ?_ fun e => keeps_ite h.keeps_setAborted ?_
    · refine keeps_bind ?_ fun _ => keeps_ite keeps_pure keeps_throw
      exact keeps_bind (h.keeps_ask rfl) fun now => hrelease _ now
    · exact keeps_ite (h.keeps_setSafeError _) keeps_pure

end Respects

/-- Publishing all files keeps what publishing each keeps. -/
lemma keeps_publishAll {items : List StagedObject}
    (h : ∀ item ∈ items, Keeps P I (publishTarget item)) : Keeps P I (publishAll items) := by
  induction items with
  | nil => exact keeps_pure
  | cons item items ih =>
    refine keeps_bind (h item List.mem_cons_self) fun _ => ?_
    exact ih fun x hx => h x (List.mem_cons_of_mem item hx)

end NexaPos.Backups
