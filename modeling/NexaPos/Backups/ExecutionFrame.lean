import NexaPos.Backups.Execution

/-!
# What an execution keeps

Most calls of an execution touch neither the record nor the durable storage and are no calls of
the storage provider.  What such calls, the moves of the record to given statuses, and assignments
of the other variables keep, the stages of an execution keep.
-/

namespace NexaPos.Backups

/-- The calls that change the record, publish or remove an object, or register or revalidate
one. -/
def ExecutionCall.special : ExecutionCall → Bool
  | .transitionBackup _ _ _ => true
  | .setBackupIntegrity _ => true
  | .updateStored _ => true
  | .linkObject _ => true
  | .removeOwned _ => true
  | .putObject => true
  | .completeUpload => true
  | .register _ _ => true
  | .validateStored _ => true
  | _ => false

/-- The calls that are neither special nor made by a storage provider. -/
def ExecutionCall.ordinary : ExecutionCall → Bool
  | .getBackup => true
  | .readClock => true
  | .acquireLock _ => true
  | .inheritLock _ _ _ => true
  | .heartbeatLock _ _ => true
  | .releaseLock _ _ => true
  | .attempt _ => true
  | .encrypt => true
  | _ => false

/-- The calls of a storage provider, but for its registrations. -/
def ExecutionCall.provided : ExecutionCall → Bool
  | .store _ => true
  | .newReference => true
  | .linkObject _ => true
  | .removeOwned _ => true
  | .headObject => true
  | .putObject => true
  | .completeUpload => true
  | .verifyReference _ => true
  | _ => false

/-- The calls of a worker outside the coordinator. -/
def ExecutionCall.clerical : ExecutionCall → Bool
  | .getBackup => true
  | .attempt _ => true
  | .transitionBackup .failed _ _ => true
  | _ => false

lemma ExecutionCall.not_special_of_ordinary {c : ExecutionCall} (h : c.ordinary = true) :
    c.special = false := by
  cases c <;> first | rfl | exact Bool.noConfusion h

/-- A call that is not special changes neither the record nor what was published, registered or
revalidated. -/
lemma exec_of_not_special (setup : ExecutionSetup) (who : ℕ) (s : BackupSite) {c : ExecutionCall}
    (hc : c.special = false) :
    (c.exec setup who s).2.record = s.record ∧ (c.exec setup who s).2.history = s.history ∧
      (c.exec setup who s).2.objects = s.objects ∧
      (c.exec setup who s).2.registered = s.registered ∧
      (c.exec setup who s).2.validated = s.validated := by
  cases c
  case acquireLock read =>
    simp only [ExecutionCall.exec]
    split <;> exact ⟨rfl, rfl, rfl, rfl, rfl⟩
  case inheritLock operation lock read =>
    simp only [ExecutionCall.exec]
    split <;> exact ⟨rfl, rfl, rfl, rfl, rfl⟩
  case heartbeatLock lock read =>
    simp only [ExecutionCall.exec]
    split <;> exact ⟨rfl, rfl, rfl, rfl, rfl⟩
  case headObject =>
    simp only [ExecutionCall.exec]
    split <;> exact ⟨rfl, rfl, rfl, rfl, rfl⟩
  all_goals first | exact ⟨rfl, rfl, rfl, rfl, rfl⟩ | exact Bool.noConfusion hc

namespace BackupExecution

open Routine

variable {γ : Type}

/-- The property is kept by the ordinary calls, by the moves to the statuses of `T`
with the row bound, by a look at the record, and by assignments of variables that no handler looks
at. -/
structure Respects (T : BackupStatus → Prop)
    (P : Protocol γ ExecutionCall ExecutionCall.Result ExecutionFault) (I : Locals → γ → Prop) :
    Prop where
  call : ∀ c, c.ordinary = true → ∀ l g, I l g →
    P.may g c ∧ ∀ r g', P.next g c r g' → I l g'
  move : ∀ target, T target → ∀ code summary l g, I l g →
    P.may g (.transitionBackup target code summary) ∧
    (∀ e g', P.next g (.transitionBackup target code summary) (.error e) g' → I l g') ∧
    ∀ row g', P.next g (.transitionBackup target code summary) (.ok row) g' →
      I { l with backup := row } g'
  read : ∀ l g row g', I l g → P.next g .getBackup (.ok row) g' → I { l with backup := row } g'
  assign : ∀ l l' g, l'.stored = l.stored → l'.persisted = l.persisted → l'.backup = l.backup →
    l'.lock = l.lock → I l g → I l' g

variable {T : BackupStatus → Prop}
  {P : Protocol γ ExecutionCall ExecutionCall.Result ExecutionFault} {I : Locals → γ → Prop}

/-- Errors are dropped without harm. -/
lemma keeps_dropErrors {L : Type} {I : L → γ → Prop} {x : Code L Unit} (h : Keeps P I x) :
    Keeps P I (dropErrors x) :=
  keeps_tryCatch h fun _ => keeps_ite keeps_throw keeps_pure

namespace Respects

lemma keeps_ask (h : Respects T P I) {c : ExecutionCall} (hc : c.ordinary = true) :
    Keeps P I (ask c) := keeps_perform (h.call c hc)

lemma keeps_attempt (h : Respects T P I) (step : ExecutionStep) : Keeps P I (attempt step) :=
  h.keeps_ask rfl

lemma keeps_activity (h : Respects T P I) (event : BackupEvent) : Keeps P I (activity event) :=
  h.keeps_attempt _

lemma keeps_heartbeat (h : Respects T P I) (lock : ℕ) : Keeps P I (heartbeat lock) :=
  keeps_bind (keeps_bind (h.keeps_ask rfl) fun _ => h.keeps_ask rfl) fun _ =>
    keeps_ite keeps_pure keeps_throw

lemma keeps_endStage (h : Respects T P I) (lock : ℕ) (event : BackupEvent) :
    Keeps P I (endStage lock event) :=
  keeps_bind (h.keeps_activity _) fun _ => keeps_bind (h.keeps_attempt _) fun _ =>
    h.keeps_heartbeat lock

lemma keeps_assign (h : Respects T P I) {f : Locals → Locals}
    (hs : ∀ l, (f l).stored = l.stored) (hp : ∀ l, (f l).persisted = l.persisted)
    (hb : ∀ l, (f l).backup = l.backup) (hl : ∀ l, (f l).lock = l.lock) :
    Keeps P I (modify f : Execute PUnit) :=
  keeps_modify fun l g hI => h.assign l (f l) g (hs l) (hp l) (hb l) (hl l) hI

lemma keeps_enterStage (h : Respects T P I) (stage : Stage) : Keeps P I (enterStage stage) :=
  h.keeps_assign (fun _ => rfl) (fun _ => rfl) (fun _ => rfl) fun _ => rfl

/-- A move of the record binds the row that it answers. -/
lemma keeps_moveTo (h : Respects T P I) {target : BackupStatus} (ht : T target)
    (code summary : String) : Keeps P I
      (do
        let row ← ask (.transitionBackup target code summary)
        bindBackup row) := by
  intro l g hI
  obtain ⟨hmay, herr, hok⟩ := h.move target ht code summary l g hI
  exact meets_perform_bind hmay herr hok

lemma keeps_moveBackup (h : Respects T P I) {target : BackupStatus} (ht : T target) :
    Keeps P I (moveBackup target) := h.keeps_moveTo ht _ _

lemma keeps_resolveBackup (h : Respects T P I) : Keeps P I resolveBackup := by
  intro l g hI
  have hcall := h.call .getBackup rfl l g hI
  rw [resolveBackup, meets_bind, resolveRequest]
  refine meets_perform_bind hcall.1 (fun e g' hn => hcall.2 _ g' hn) fun row g' hn => ?_
  have hbound := h.read l g row g' hI hn
  have hkept : I l g' := hcall.2 _ g' hn
  split
  · exact hkept
  · split
    · exact hbound
    · exact hkept

/-! ## Stages -/

lemma keeps_takeLease (h : Respects T P I) (lease : Option (ℕ × ℕ)) :
    Keeps P I (takeLease lease) := by
  cases lease with
  | none =>
    refine keeps_tryCatch (keeps_bind (h.keeps_ask rfl) fun _ => h.keeps_ask rfl) fun e => ?_
    exact keeps_ite (keeps_bind (h.keeps_activity _) fun _ => keeps_throw) keeps_throw
  | some x => exact keeps_bind (h.keeps_ask rfl) fun _ => h.keeps_ask rfl

lemma keeps_buildPackage (h : Respects T P I) (hsnap : T .snapshotting) (hpack : T .packaging)
    (lock : ℕ) : Keeps P I (buildPackage lock) := by
  refine keeps_bind (h.keeps_enterStage _) fun _ => ?_
  refine keeps_bind (h.keeps_moveBackup hsnap) fun _ => ?_
  refine keeps_bind (h.keeps_attempt _) fun _ => keeps_bind (h.keeps_endStage lock _) fun _ => ?_
  refine keeps_bind (h.keeps_enterStage _) fun _ => ?_
  refine keeps_bind (h.keeps_attempt _) fun _ => keeps_bind (h.keeps_endStage lock _) fun _ => ?_
  refine keeps_bind (h.keeps_enterStage _) fun _ => ?_
  refine keeps_bind (h.keeps_attempt _) fun _ => keeps_bind (h.keeps_endStage lock _) fun _ => ?_
  refine keeps_bind (h.keeps_enterStage _) fun _ => ?_
  refine keeps_bind (h.keeps_moveBackup hpack) fun _ => ?_
  refine keeps_bind (h.keeps_attempt _) fun _ => keeps_bind (h.keeps_endStage lock _) fun _ => ?_
  refine keeps_bind (h.keeps_enterStage _) fun _ => ?_
  exact keeps_bind (h.keeps_attempt _) fun _ => h.keeps_endStage lock _

lemma keeps_encryptPackage (h : Respects T P I) (lock : ℕ) :
    Keeps P I (encryptPackage lock) := by
  refine keeps_bind (h.keeps_enterStage _) fun _ => keeps_bind (h.keeps_ask rfl) fun _ => ?_
  refine keeps_bind (h.keeps_attempt _) fun _ => keeps_bind (h.keeps_attempt _) fun _ => ?_
  exact keeps_bind (h.keeps_endStage lock _) fun _ => keeps_pure

lemma keeps_executeRetention (h : Respects T P I) : Keeps P I executeRetention :=
  keeps_bind (h.keeps_attempt _) fun _ =>
    keeps_bind (keeps_dropErrors (h.keeps_attempt _)) fun _ => h.keeps_activity _

/-- The last stage keeps what its changes of the integrity keep. -/
lemma keeps_finishBackup (h : Respects T P I) (hver : T .verifying) (hsucc : T .succeeded)
    (hintegrity : ∀ target, target ≠ .failed → Keeps P I (moveIntegrity target)) (lock : ℕ) :
    Keeps P I (finishBackup lock) := by
  refine keeps_bind (h.keeps_enterStage _) fun _ => ?_
  refine keeps_bind (h.keeps_moveBackup hver) fun _ => ?_
  refine keeps_bind (hintegrity .verifying (by decide)) fun _ => ?_
  refine keeps_bind (hintegrity .verified (by decide)) fun _ => ?_
  refine keeps_bind (h.keeps_attempt _) fun _ => ?_
  refine keeps_bind (h.keeps_moveBackup hsucc) fun _ => ?_
  refine keeps_bind (h.keeps_attempt _) fun _ => keeps_bind (h.keeps_attempt _) fun _ => ?_
  exact keeps_bind (h.keeps_endStage lock _) fun _ => h.keeps_executeRetention

/-! ## Failures -/

lemma keeps_markIntegrityFailed (h : Respects T P I)
    (hintegrity : Keeps P I (ask (.setBackupIntegrity .failed) : Execute BackupRecord))
    (current : BackupRecord) : Keeps P I (markIntegrityFailed current) := by
  refine keeps_ite (keeps_tryCatch ?_ fun e => keeps_ite keeps_throw ?_) keeps_pure
  · exact keeps_bind hintegrity fun _ => keeps_pure
  · exact keeps_bind (h.keeps_ask rfl) fun _ => keeps_pure

lemma keeps_markFailed (h : Respects T P I) (hfailed : T .failed)
    (hintegrity : Keeps P I (ask (.setBackupIntegrity .failed) : Execute BackupRecord))
    (code summary : String) : Keeps P I (markFailed code summary) := by
  intro l g hI
  have hcall := h.call .getBackup rfl l g hI
  refine meets_perform_bind hcall.1 (fun e g' hn => hcall.2 _ g' hn) fun row g' hn => ?_
  have hbound := h.read l g row g' hI hn
  have hkept : I l g' := hcall.2 _ g' hn
  split
  · exact keeps_bind (h.keeps_markIntegrityFailed hintegrity row)
      (fun _ => h.keeps_moveTo hfailed code summary) l g' hkept
  · exact hbound

lemma keeps_recordFailure (h : Respects T P I) (hfailed : T .failed)
    (hintegrity : Keeps P I (ask (.setBackupIntegrity .failed) : Execute BackupRecord))
    (e : ExecutionFault) : Keeps P I (recordFailure e) := by
  refine keeps_bind keeps_get fun l => keeps_ite (keeps_dropErrors ?_) keeps_pure
  exact keeps_bind (h.keeps_markFailed hfailed hintegrity _ _) fun _ => h.keeps_activity _

/-- What is done at the end, however the run ended. -/
lemma keeps_cleanUp (h : Respects T P I) (lease : Option (ℕ × ℕ)) :
    Keeps P I (ensure cleanupTransients (releaseLease lease)) := by
  refine keeps_ensure ?_ ?_
  · refine keeps_tryCatch (h.keeps_attempt _) fun e => keeps_ite keeps_throw ?_
    exact h.keeps_assign (fun _ => rfl) (fun _ => rfl) (fun _ => rfl) fun _ => rfl
  · refine keeps_bind keeps_get fun l => ?_
    split
    · exact keeps_pure
    · refine keeps_when (keeps_dropErrors (h.keeps_activity _)) fun _ => ?_
      refine keeps_ite (keeps_bind (keeps_bind (h.keeps_ask rfl) fun _ => ?_) fun _ =>
        keeps_pure) keeps_pure
      exact h.keeps_ask rfl

end Respects

/-! ## Storage providers -/

/-- What every call of a storage provider keeps that registers nothing. -/
abbrev Provides (P : Protocol γ ExecutionCall ExecutionCall.Result ExecutionFault)
    (I : Locals → γ → Prop) : Prop :=
  ∀ c : ExecutionCall, c.provided = true → Keeps P I (ask c : Execute c.Result)

lemma keeps_uploadParts (h : Provides P I) (parts : List ℕ) : Keeps P I (uploadParts parts) := by
  induction parts with
  | nil => exact keeps_pure
  | cons n rest ih => exact keeps_bind (h _ rfl) fun _ => ih

lemma keeps_publishS3 (h : Provides P I) (c : S3Configuration) (a : EncryptedArtifact) :
    Keeps P I (publishS3 c a) := by
  refine keeps_bind (h _ rfl) fun _ => keeps_bind ?_ fun found => ?_
  · refine keeps_bind (h _ rfl) fun _ => ?_
    split
    · exact keeps_pure
    · exact keeps_bind (h _ rfl) fun _ => keeps_pure
  · split
    · exact keeps_pure
    · refine keeps_either ?_ ?_ fun _ => keeps_pure
      · refine keeps_bind (h _ rfl) fun _ => keeps_tryCatch ?_ fun e => ?_
        · refine keeps_bind (keeps_uploadParts h _) fun _ => ?_
          exact keeps_bind (h _ rfl) fun _ => h _ rfl
        · exact keeps_bind (keeps_dropErrors (h _ rfl)) fun _ => keeps_throw
      · exact keeps_bind (h _ rfl) fun _ => keeps_bind (h _ rfl) fun _ => keeps_pure

/-- What the calls of a provider and its registrations keep, the provider keeps. -/
lemma keeps_storeEncryptedArtifact (h : Provides P I)
    (hregister : ∀ occasion r, Keeps P I (ask (.register occasion r) : Execute Unit))
    (provider : StorageProvider) (a : EncryptedArtifact) :
    Keeps P I (storeEncryptedArtifact provider a) := by
  have hclean (r : StoredBackupObjectResult) : Keeps P I (cleanStaging r) := by
    refine keeps_bind (keeps_tryCatch (keeps_bind (h _ rfl) fun _ => keeps_pure) fun _ => ?_) ?_
    · exact keeps_ite keeps_pure keeps_throw
    · exact fun _ => keeps_ite (keeps_bind (hregister _ _) fun _ => keeps_pure) keeps_pure
  cases provider with
  | localPrivate =>
    refine keeps_bind (keeps_bind (h _ rfl) fun n => keeps_tryCatch ?_ fun e => ?_) fun r => ?_
    · refine keeps_bind (h _ rfl) fun _ => keeps_bind (h _ rfl) fun _ => ?_
      exact keeps_bind (h _ rfl) fun _ => keeps_bind (hregister _ _) fun _ => keeps_pure
    · exact keeps_bind (keeps_tryCatch (h _ rfl) fun _ => keeps_pure) fun _ => keeps_throw
    · exact keeps_tryCatch (keeps_bind (h _ rfl) fun _ => hclean r) fun _ => keeps_throw
  | s3 c =>
    refine keeps_tryCatch (keeps_bind (keeps_publishS3 h c a) fun _ => ?_) fun _ => keeps_throw
    exact keeps_bind (h _ rfl) fun _ => keeps_bind (hregister _ _) fun _ => hclean _

/-! ## Workers -/

/-- A runner follows a protocol that its executions follow, and that admits its other calls and
does not move on with them. -/
theorem follows_runner {g₀ : γ} {provider : StorageProvider}
    (hmay : ∀ c : ExecutionCall, c.clerical = true → ∀ g, P.may g c)
    (hstay : ∀ c : ExecutionCall, c.clerical = true → ∀ r g, P.next g₀ c r g → g = g₀)
    (hexecute : ∀ lease, Meets P (execute provider lease) (fun _ _ _ => True) (fun _ _ _ => True)
      {} g₀) (p : Runner) : (p.code provider).Follows P (fun _ _ => True) g₀ := by
  have htrue {c : ExecutionCall} (hc : c.clerical = true) :
      Keeps P (fun _ _ => True) (ask c : Task c.Result) :=
    keeps_perform fun _ g _ => ⟨hmay c hc g, fun _ _ _ => trivial⟩
  have hstart {c : ExecutionCall} (hc : c.clerical = true) :
      Keeps P (fun _ g => g = g₀) (ask c : Task c.Result) := by
    refine keeps_perform fun _ g hg => ⟨hmay c hc g, fun r g' hn => ?_⟩
    subst hg
    exact hstay c hc r g' hn
  have hblocked (I : Unit → γ → Prop) (h : ∀ {c : ExecutionCall}, c.clerical = true →
      Keeps P I (ask c : Task c.Result)) (backup : BackupRecord) (code : String) :
      Keeps P I (markExecutionBlocked backup code) :=
    keeps_ite (keeps_bind (h rfl) fun _ => h rfl) (h rfl)
  have hrequest : Meets P (requestBackupExecution provider) (fun _ _ _ => True)
      (fun _ _ _ => True) () g₀ := by
    refine (hstart rfl).meets_bind rfl (fun _ _ _ _ => trivial) fun _ l g h => ?_
    refine (hstart rfl).meets_bind h (fun _ _ _ _ => trivial) fun _ l g h => ?_
    refine (hstart rfl).meets_bind h (fun _ _ _ _ => trivial) ?_
    rintro _ l g rfl
    rw [meets_withLocals]
    exact hexecute none
  have hfailure (lastRetry : Bool) (e : ExecutionFault) :
      Keeps P (fun _ _ => True) (handleFailure lastRetry e) := by
    cases e
    case runtime r =>
      refine keeps_bind (htrue rfl) fun backup => keeps_ite keeps_throw ?_
      exact keeps_when (hblocked _ htrue _ _) fun _ => keeps_bind (htrue rfl) fun _ => keeps_throw
    all_goals exact keeps_throw
  have hdelivery (lastRetry : Bool) : Meets P (executeBackup provider lastRetry)
      (fun _ _ _ => True) (fun _ _ _ => True) () g₀ := by
    refine (hstart rfl).meets_bind rfl (fun _ _ _ _ => trivial) fun backup l g h => ?_
    refine (keeps_tryCatch (hstart rfl) fun e => keeps_ite ?_ keeps_throw).meets_bind h
      (fun _ _ _ _ => trivial) ?_
    · exact keeps_bind (hblocked _ hstart _ _) fun _ => keeps_bind (hstart rfl) fun _ => keeps_throw
    · rintro _ l g rfl
      have hend : Keeps P (fun _ _ => True)
          (do
            let _ ← ask .getBackup
            attempt .recordOutcome : Task Unit) :=
        keeps_bind (htrue rfl) fun _ => htrue rfl
      rw [meets_bind, meets_tryCatch]
      refine hrequest.mono (fun _ l g _ => hend l g trivial) fun e l g _ => ?_
      exact (hfailure lastRetry e l g trivial).mono (fun _ l g _ => hend l g trivial)
        fun _ _ _ _ => trivial
  cases p with
  | delivery lastRetry =>
    exact Prog.follows_bind.mpr (Prog.Follows.mono (hdelivery lastRetry) fun _ _ _ => trivial)
  | direct lease =>
    exact Prog.follows_bind.mpr (Prog.Follows.mono (hexecute lease) fun _ _ _ => trivial)

end BackupExecution

end NexaPos.Backups
