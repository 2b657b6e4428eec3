import NexaPos.Backups.ExecutionFrame

/-!
# The execution that owns a backup

The move from `QUEUED` to `PREPARING` can be made once, and only the execution that made it goes
on: it alone stores an object, revalidates it, writes it to the record and ends in `SUCCEEDED`.

The failure handlers are the exception.  `_mark_failed` reads the record anew and marks whatever it
finds, and `_mark_execution_blocked` decides by a record that was read before; neither asks whose
record it is.  The leases keep them off the record of another execution only as long as they are
given while nobody works on the record, and no execution goes on after another was given one.
-/

namespace NexaPos.Backups

/-! ## Histories -/

/-- Who moved the record out of `QUEUED`. -/
def leaver (history : List RecordChange) : Option ℕ :=
  (history.find? (·.leavesQueue)).map (·.who)

/-- At most one change moved the record out of `QUEUED`, and who made it made all later ones. -/
def OneOwner (history : List RecordChange) : Prop :=
  (history.filter (·.leavesQueue)).length ≤ 1 ∧
    history.Pairwise fun c d => d.leavesQueue = true → c.who = d.who

instance (history : List RecordChange) : Decidable (OneOwner history) :=
  inferInstanceAs (Decidable (_ ∧ _))

lemma leaver_eq_none {history : List RecordChange} (h : leaver history = none) :
    ∀ c ∈ history, c.leavesQueue ≠ true := by
  rw [leaver, Option.map_eq_none_iff, List.find?_eq_none] at h
  exact h

lemma leaver_cons_leaves {history : List RecordChange} {c : RecordChange}
    (hc : c.leavesQueue = true) : leaver (c :: history) = some c.who := by
  rw [leaver, List.find?_cons_of_pos hc]
  rfl

lemma leaver_cons_stays {history : List RecordChange} {c : RecordChange}
    (hc : c.leavesQueue = false) : leaver (c :: history) = leaver history := by
  rw [leaver, List.find?_cons_of_neg (by simp [hc])]
  rfl

/-- With at most one leaving change, any such change is the leaver's. -/
lemma OneOwner.leaver_eq {history : List RecordChange} (h : OneOwner history) {d : RecordChange}
    (hd : d ∈ history) (hleaves : d.leavesQueue = true) : leaver history = some d.who := by
  have hmem : d ∈ history.filter (·.leavesQueue) := List.mem_filter.mpr ⟨hd, hleaves⟩
  obtain ⟨c, hc⟩ := List.length_eq_one_iff.mp
    (Nat.le_antisymm h.1 (List.length_pos_of_mem hmem))
  rw [leaver, ← List.head?_filter, hc]
  rw [hc, List.mem_singleton] at hmem
  rw [hmem]
  rfl

/-- A change that is the first to leave, or made by the leaver. -/
lemma OneOwner.cons {history : List RecordChange} {c : RecordChange} (h : OneOwner history)
    (hfirst : c.leavesQueue = true → leaver history = none)
    (hown : ∀ w, leaver history = some w → c.who = w) : OneOwner (c :: history) := by
  refine ⟨?_, List.pairwise_cons.mpr ⟨fun d hd hleaves => hown _ (h.leaver_eq hd hleaves), h.2⟩⟩
  cases hc : c.leavesQueue with
  | false =>
    rw [List.filter_cons_of_neg (by simp [hc])]
    exact h.1
  | true =>
    have hnone : history.filter (·.leavesQueue) = [] :=
      List.filter_eq_nil_iff.mpr (leaver_eq_none (hfirst hc))
    rw [List.filter_cons_of_pos hc, hnone]
    exact Nat.le_refl 1

/-! ## What one execution may do -/

namespace BackupExecution

open Routine

/-- How far an execution has come with the record. -/
inductive Phase
  /-- It has not moved the record. -/
  | idle
  | working
  | stored (r : StoredBackupObjectResult)
  | validated (r : StoredBackupObjectResult)
  | recorded (r : StoredBackupObjectResult)
  deriving DecidableEq, Repr

/-- What an execution calls in each phase. -/
def Phase.admits (g : Phase) : ExecutionCall → Prop
  | .transitionBackup .preparing _ _ => g = .idle
  | .transitionBackup .failed _ _ => True
  | .transitionBackup .succeeded _ _ => ∃ r, g = .recorded r
  | .transitionBackup _ _ _ => g ≠ .idle
  | .setBackupIntegrity .failed => True
  | .setBackupIntegrity _ => g ≠ .idle
  | .updateStored r => g = .stored r ∨ g = .validated r
  | .register _ _ => g ≠ .idle
  | .validateStored r => g = .stored r
  | _ => True

/-- Where a call that returned leads. -/
def Phase.after (g : Phase) : ExecutionCall → Bool → Phase
  | .transitionBackup .preparing _ _, true => .working
  | .register _ r, true => .stored r
  | .validateStored r, true => .validated r
  | .updateStored r, true => if g = .validated r then .recorded r else g
  | _, _ => g

/-- An execution moves the record along, and writes what it stored and revalidated. -/
def ownership : Protocol Phase ExecutionCall ExecutionCall.Result ExecutionFault where
  may := Phase.admits
  next g c r g' := g' = g.after c r.isOk

lemma Phase.admits_of_not_special {g : Phase} {c : ExecutionCall} (hc : c.special = false) :
    g.admits c := by
  cases c <;> first | exact trivial | exact Bool.noConfusion hc

lemma Phase.after_of_not_special {g : Phase} {c : ExecutionCall} {b : Bool}
    (hc : c.special = false) : g.after c b = g := by
  cases c <;> first | rfl | exact Bool.noConfusion hc

lemma Phase.after_error {g : Phase} {c : ExecutionCall} : g.after c false = g := by
  cases c
  case transitionBackup target code summary => cases target <;> rfl
  all_goals rfl

lemma Phase.after_transition {g : Phase} {target : BackupStatus} {code summary : String} {b : Bool}
    (h : target ≠ .preparing) : g.after (.transitionBackup target code summary) b = g := by
  cases target <;> first | rfl | exact absurd rfl h

/-- A property of the phase and of what was stored, under the moves that the phase admits. -/
lemma respects_ownership {T : BackupStatus → Prop} {I : Locals → Phase → Prop}
    (hI : ∀ l l' g, l'.stored = l.stored → l'.persisted = l.persisted → I l g → I l' g)
    (hT : ∀ l g target code summary, T target → I l g →
      target ≠ .preparing ∧ g.admits (.transitionBackup target code summary)) :
    Respects T ownership I where
  call c hc l g h := ⟨Phase.admits_of_not_special (c.not_special_of_ordinary hc), fun r g' hn => by
    have hg : g' = g := hn.trans (Phase.after_of_not_special (c.not_special_of_ordinary hc))
    rw [hg]
    exact h⟩
  move target ht code summary l g h := by
    obtain ⟨hne, hadm⟩ := hT l g target code summary ht h
    refine ⟨hadm, fun e g' hn => ?_, fun row g' hn => ?_⟩
    · have hg : g' = g := hn.trans (Phase.after_transition hne)
      rw [hg]
      exact h
    · have hg : g' = g := hn.trans (Phase.after_transition hne)
      rw [hg]
      exact hI l _ g rfl rfl h
  read l g row g' h hn := by
    have hg : g' = g := hn
    rw [hg]
    exact hI l _ g rfl rfl h
  assign l l' g hs hp _ _ h := hI l l' g hs hp h

/-! ## The storage providers -/

/-- Nothing is stored as far as the variables go, and the phase is one of the given. -/
def Unstored (φ : Phase → Prop) (l : Locals) (g : Phase) : Prop := l.stored = none ∧ φ g

lemma respects_unstored (φ : Phase → Prop) :
    Respects (fun _ => False) ownership (Unstored φ) :=
  respects_ownership (fun _ _ _ hs _ h => ⟨hs.trans h.1, h.2⟩) fun _ _ _ _ _ h => h.elim

/-- A call that says nothing about the record. -/
lemma keeps_plain {φ : Phase → Prop} {c : ExecutionCall} (hadm : ∀ g : Phase, g.admits c)
    (hafter : ∀ (g : Phase) (b : Bool), g.after c b = g) :
    Keeps ownership (Unstored φ) (ask c : Execute c.Result) :=
  keeps_perform fun l g h => ⟨hadm g, fun r g' hn => by
    have hg : g' = g := hn.trans (hafter g _)
    rw [hg]
    exact h⟩

lemma provides_unstored (φ : Phase → Prop) : Provides ownership (Unstored φ) := by
  intro c hc
  refine keeps_plain ?_ ?_
  · cases c <;> first | exact fun _ => trivial | exact Bool.noConfusion hc
  · cases c <;> first | exact fun _ _ => rfl | exact Bool.noConfusion hc

lemma keeps_storeStep {φ : Phase → Prop} (step : StoreStep) :
    Keeps ownership (Unstored φ) (attemptStore step) :=
  keeps_plain (fun _ => trivial) fun _ _ => rfl

/-- A registration by the execution that works on the record. -/
lemma meets_register {occasion : Registration} {r : StoredBackupObjectResult} {l : Locals}
    {g : Phase} (h : Unstored (· ≠ .idle) l g) :
    Meets ownership (ask (.register occasion r)) (fun _ => Unstored (· = .stored r))
      (fun _ => Unstored (· ≠ .idle)) l g := by
  rw [meets_perform]
  refine ⟨h.2, fun x g' hn => ?_⟩
  cases x with
  | ok _ => exact ⟨h.1, hn⟩
  | error e =>
    have hg : g' = g := hn.trans Phase.after_error
    rw [hg]
    exact h

/-- What an execution stored is the last it registered. -/
def StoresResult (x : Execute StoredBackupObjectResult) (φ : Phase → Prop) : Prop :=
  ∀ l g, Unstored φ l g → Meets ownership x (fun r => Unstored (· = .stored r))
    (fun _ => Unstored (· ≠ .idle)) l g

lemma stores_cleanStaging (r : StoredBackupObjectResult) :
    StoresResult (cleanStaging r) (· = .stored r) := by
  intro l g h
  have hstored : ∀ l g, Unstored (· = .stored r) l g → Unstored (· ≠ .idle) l g := by
    rintro l g ⟨hl, rfl⟩
    exact ⟨hl, nofun⟩
  have hclean : Keeps ownership (Unstored (· = .stored r))
      (tryCatch
        (do
          attemptStore .cleanupStaging
          pure true)
        (fun e => if e = .cleanup then pure false else throw e) : Execute Bool) :=
    keeps_tryCatch (keeps_bind (keeps_storeStep _) fun _ => keeps_pure)
      fun _ => keeps_ite keeps_pure keeps_throw
  refine hclean.meets_bind h (fun _ => hstored) fun cleaned l g h => ?_
  split
  · rw [meets_bind]
    exact (meets_register (hstored l g h)).mono (fun _ _ _ h => h) fun _ _ _ h => h
  · exact h

/-- A handler that only gives the exception another name. -/
lemma StoresResult.rename {x : Execute StoredBackupObjectResult} {φ : Phase → Prop}
    (h : StoresResult x φ) :
    StoresResult (tryCatch x fun e => throw (storageError e)) φ := by
  intro l g hφ
  rw [meets_tryCatch]
  exact h l g hφ

lemma stores_publishLocal (a : EncryptedArtifact) :
    StoresResult (publishLocal a) (· ≠ .idle) := by
  intro l g h
  refine (keeps_plain (c := .newReference) (fun _ => trivial) fun _ _ => rfl).meets_bind h
    (fun _ _ _ h => h) fun n l g h => ?_
  rw [meets_tryCatch]
  have hremove : Keeps ownership (Unstored (· ≠ .idle))
      (tryCatch (ask (.removeOwned n)) fun _ => pure () : Execute Unit) :=
    keeps_tryCatch (keeps_plain (fun _ => trivial) fun _ _ => rfl) fun _ => keeps_pure
  have hpublish : Meets ownership
      (do
        attemptStore .prepare
        ask (.linkObject n)
        attemptStore .checkPublished
        ask (.register .stored (storedResult localBackend { key := .uuid n } a))
        pure (storedResult localBackend { key := .uuid n } a) : Execute StoredBackupObjectResult)
      (fun r => Unstored (· = .stored r)) (fun _ => Unstored (· ≠ .idle)) l g := by
    refine (keeps_storeStep _).meets_bind h (fun _ _ _ h => h) fun _ l g h => ?_
    refine (keeps_plain (c := .linkObject n) (fun _ => trivial) fun _ _ => rfl).meets_bind h
      (fun _ _ _ h => h) fun _ l g h => ?_
    refine (keeps_storeStep _).meets_bind h (fun _ _ _ h => h) fun _ l g h => ?_
    rw [meets_bind]
    exact meets_register h
  refine hpublish.mono (fun _ _ _ h => h) fun e l g h => ?_
  exact hremove.meets_bind h (fun _ _ _ h => h) fun _ _ _ h => h

lemma stores_storeLocal (a : EncryptedArtifact) : StoresResult (storeLocal a) (· ≠ .idle) := by
  intro l g h
  rw [storeLocal, meets_bind]
  refine (stores_publishLocal a l g h).mono (fun r l g h => ?_) fun _ _ _ h => h
  refine StoresResult.rename (φ := (· = .stored r)) (fun l g h => ?_) l g h
  refine (keeps_storeStep _).meets_bind h ?_ ?_
  · rintro _ l g ⟨hl, rfl⟩
    exact ⟨hl, nofun⟩
  · exact fun _ => stores_cleanStaging r

lemma stores_storeS3 (c : S3Configuration) (a : EncryptedArtifact) :
    StoresResult (storeS3 c a) (· ≠ .idle) := by
  refine StoresResult.rename fun l g h => ?_
  refine (keeps_publishS3 (provides_unstored _) c a).meets_bind h (fun _ _ _ h => h)
    fun reference l g h => ?_
  have hverify : Keeps ownership (Unstored (· ≠ .idle)) (ask (.verifyReference reference)) :=
    keeps_plain (fun _ => trivial) fun _ _ => rfl
  refine hverify.meets_bind h (fun _ _ _ h => h) fun version l g h => ?_
  rw [meets_bind]
  exact (meets_register h).mono (fun _ l g h => stores_cleanStaging _ l g h) fun _ _ _ h => h

lemma stores_storeEncryptedArtifact (provider : StorageProvider) (a : EncryptedArtifact) :
    StoresResult (storeEncryptedArtifact provider a) (· ≠ .idle) := by
  cases provider with
  | localPrivate => exact stores_storeLocal a
  | s3 c => exact stores_storeS3 c a

/-! ## The coordinator -/

/-- What was stored and is not persisted yet is still the last that was stored. -/
def Pending (l : Locals) (g : Phase) : Prop :=
  ∀ r, l.stored = some r → l.persisted = false → g = .stored r ∨ g = .validated r

lemma pending_of_unstored {φ : Phase → Prop} {l : Locals} {g : Phase} (h : Unstored φ l g) :
    Pending l g := by
  intro r hr
  rw [h.1] at hr
  exact nomatch hr

lemma respects_pending : Respects (· = .failed) ownership Pending :=
  respects_ownership
    (fun _ _ _ hs hp h r hr hnot => h r (hs.symm.trans hr) (hp.symm.trans hnot))
    fun _ _ _ _ _ ht _ => ht ▸ ⟨nofun, trivial⟩

lemma meets_beginExecution (lease : Option (ℕ × ℕ)) {l : Locals} {g : Phase}
    (h : Unstored (· = .idle) l g) :
    Meets ownership (beginExecution lease) (fun _ => Unstored (· ≠ .idle)) (fun _ => Pending)
      l g := by
  have hr := respects_unstored (· = .idle)
  have hw := respects_unstored (· ≠ .idle)
  refine (hr.keeps_takeLease lease).meets_bind h (fun _ _ _ => pending_of_unstored) ?_
  intro lock l g h
  refine (keeps_modify (I := Unstored (· = .idle)) fun l g h => ⟨h.1, h.2⟩).meets_bind h
    (fun _ _ _ => pending_of_unstored) fun _ l g h => ?_
  refine hr.keeps_resolveBackup.meets_bind h (fun _ _ _ => pending_of_unstored) fun _ l g h => ?_
  refine (hr.keeps_attempt _).meets_bind h (fun _ _ _ => pending_of_unstored) fun _ l g h => ?_
  refine (hr.keeps_attempt _).meets_bind h (fun _ _ _ => pending_of_unstored) fun _ l g h => ?_
  have hmove : Meets ownership (moveBackup .preparing) (fun _ => Unstored (· ≠ .idle))
      (fun _ => Pending) l g := by
    refine meets_perform_bind h.2 (fun e g' hn => ?_) fun row g' hn => ?_
    · have hg : g' = g := hn
      rw [hg]
      exact pending_of_unstored h
    · have hg : g' = .working := hn
      rw [hg]
      exact ⟨h.1, nofun⟩
  rw [meets_bind]
  refine hmove.mono (fun _ l g h => ?_) fun _ _ _ h => h
  refine (hw.keeps_endStage lock _).meets_bind h (fun _ _ _ => pending_of_unstored) ?_
  exact fun _ _ _ h => h

/-- The moves of an execution that works on the record. -/
lemma respects_working :
    Respects (· ∈ [BackupStatus.snapshotting, .packaging, .uploading]) ownership
      (Unstored (· ≠ .idle)) := by
  refine respects_ownership (fun _ _ _ hs _ h => ⟨hs.trans h.1, h.2⟩) ?_
  intro l g target code summary ht h
  simp only [List.mem_cons, List.not_mem_nil, or_false] at ht
  rcases ht with rfl | rfl | rfl
  all_goals exact ⟨nofun, h.2⟩

/-- The result is bound, and is the last that was stored. -/
def Bound (r : StoredBackupObjectResult) (l : Locals) (g : Phase) : Prop :=
  l.stored = some r ∧ g = .stored r

lemma Bound.pending {r : StoredBackupObjectResult} {l : Locals} {g : Phase} (h : Bound r l g) :
    Pending l g := by
  intro r' hr _
  obtain rfl := Option.some.inj (h.1.symm.trans hr)
  exact .inl h.2

lemma respects_bound (r : StoredBackupObjectResult) :
    Respects (fun _ => False) ownership (Bound r) :=
  respects_ownership (fun _ _ _ hs _ h => ⟨hs.trans h.1, h.2⟩) fun _ _ _ _ _ h => h.elim

lemma meets_storeArtifact (provider : StorageProvider) (a : EncryptedArtifact) {l : Locals}
    {g : Phase} (h : Unstored (· ≠ .idle) l g) :
    Meets ownership (storeArtifact provider a) (fun r => Bound r) (fun _ => Pending) l g := by
  rw [storeArtifact, meets_bind]
  refine (stores_storeEncryptedArtifact provider a l g h).mono (fun r l g h => ?_)
    fun _ _ _ => pending_of_unstored
  rw [meets_bind, bindStored, meets_modify]
  have hbound : Bound r { l with stored := some r } g := ⟨rfl, h.2⟩
  split
  · rw [retryStagingCleanup, meets_bind, meets_bind]
    refine ((respects_bound r).keeps_attempt _ _ _ hbound).mono (fun _ l g h => ?_)
      fun _ _ _ h => h.pending
    rw [meets_bind, meets_perform]
    refine ⟨h.2 ▸ nofun, fun x g' hn => ?_⟩
    cases x with
    | ok _ => exact ⟨rfl, hn⟩
    | error e =>
      have hg : g' = g := hn.trans Phase.after_error
      rw [hg]
      exact h.pending
  · exact hbound

/-- The result was revalidated, and is not persisted by a statement that went well. -/
def Validated (r : StoredBackupObjectResult) (l : Locals) (g : Phase) : Prop :=
  l.stored = some r ∧ g = .validated r

lemma Validated.pending {r : StoredBackupObjectResult} {l : Locals} {g : Phase}
    (h : Validated r l g) : Pending l g := by
  intro r' hr _
  obtain rfl := Option.some.inj (h.1.symm.trans hr)
  exact .inr h.2

/-- The result was revalidated and persisted. -/
def Recorded (l : Locals) (g : Phase) : Prop := l.persisted = true ∧ ∃ r, g = .recorded r

lemma Recorded.pending {l : Locals} {g : Phase} (h : Recorded l g) : Pending l g := by
  intro r _ hp
  rw [h.1] at hp
  exact nomatch hp

/-- What persisting a result leads to, from where the result may be persisted. -/
lemma meets_persist {r : StoredBackupObjectResult} {Q : Unit → Locals → Phase → Prop}
    {E : ExecutionFault → Locals → Phase → Prop} {l : Locals} {g : Phase}
    (hmay : g = .stored r ∨ g = .validated r) (herr : ∀ e, E e l g)
    (hok : ∀ row, Q () { l with backup := row } (g.after (.updateStored r) true)) :
    Meets ownership (persistDurableMetadata r) Q E l g := by
  rw [persistDurableMetadata, meets_bind, meets_get]
  split
  · refine meets_perform_bind hmay (fun e g' hn => ?_) fun row g' hn => ?_
    · have hg : g' = g := hn
      rw [hg]
      exact herr e
    · have hg : g' = g.after (.updateStored r) true := hn
      rw [hg]
      exact hok row
  · exact herr _

lemma meets_recordStored (lock : ℕ) {r : StoredBackupObjectResult} {l : Locals} {g : Phase}
    (h : Bound r l g) :
    Meets ownership (recordStored lock r) (fun _ => Recorded) (fun _ => Pending) l g := by
  have hvalid : Respects (fun _ => False) ownership (Validated r) :=
    respects_ownership (fun _ _ _ hs _ h => ⟨hs.trans h.1, h.2⟩) fun _ _ _ _ _ h => h.elim
  have hrec : Respects (fun _ => False) ownership Recorded :=
    respects_ownership (fun _ _ _ _ hp h => ⟨hp.trans h.1, h.2⟩) fun _ _ _ _ _ h => h.elim
  refine ((respects_bound r).keeps_attempt _).meets_bind h (fun _ _ _ h => h.pending) ?_
  intro _ l g h
  refine meets_perform_bind h.2 (fun e g' hn => ?_) fun _ g' hn => ?_
  · have hg : g' = g := hn
    rw [hg]
    exact h.pending
  · have hval : Validated r l g' := ⟨h.1, hn⟩
    refine (hvalid.keeps_attempt _).meets_bind hval (fun _ _ _ h => h.pending) fun _ l g h => ?_
    rw [meets_bind]
    refine meets_persist (.inr h.2) (fun _ => h.pending) fun row => ?_
    have hdone : Recorded { l with backup := row, persisted := true }
        (g.after (.updateStored r) true) :=
      ⟨rfl, r, if_pos h.2⟩
    rw [meets_bind, meets_modify]
    refine (hrec.keeps_activity _).meets_bind hdone (fun _ _ _ h => h.pending) fun _ l g h => ?_
    exact (hrec.keeps_heartbeat lock l g h).mono (fun _ _ _ h => h) fun _ _ _ h => h.pending

/-- The last stage is for an execution whose result is on the record. -/
lemma keeps_recorded_finishBackup (lock : ℕ) : Keeps ownership Recorded (finishBackup lock) := by
  have hr : Respects (· ∈ [BackupStatus.verifying, .succeeded]) ownership Recorded := by
    refine respects_ownership (fun _ _ _ _ hp h => ⟨hp.trans h.1, h.2⟩) ?_
    intro l g target code summary ht h
    simp only [List.mem_cons, List.not_mem_nil, or_false] at ht
    rcases ht with rfl | rfl
    · obtain ⟨-, r, rfl⟩ := h
      exact ⟨nofun, nofun⟩
    · exact ⟨nofun, h.2⟩
  refine hr.keeps_finishBackup (by simp) (by simp) (fun target ht => ?_) lock
  intro l g h
  have hadm : g.admits (.setBackupIntegrity target) := by
    obtain ⟨-, r, rfl⟩ := h
    cases target with
    | failed => exact absurd rfl ht
    | _ => exact nofun
  refine meets_perform_bind hadm (fun e g' hn => ?_) fun row g' hn => ?_
  · have hg : g' = g := hn
    rw [hg]
    exact h
  · have hg : g' = g := hn
    rw [hg]
    exact h

lemma meets_executeBody (provider : StorageProvider) (lease : Option (ℕ × ℕ)) {l : Locals}
    {g : Phase} (h : Unstored (· = .idle) l g) :
    Meets ownership (executeBody provider lease) (fun _ => Pending) (fun _ => Pending) l g := by
  rw [executeBody, meets_bind]
  refine (meets_beginExecution lease h).mono (fun lock l g h => ?_) fun _ _ _ h => h
  refine (respects_working.keeps_buildPackage (by simp) (by simp) lock).meets_bind h
    (fun _ _ _ => pending_of_unstored) fun _ l g h => ?_
  refine (respects_working.keeps_encryptPackage lock).meets_bind h
    (fun _ _ _ => pending_of_unstored) fun a l g h => ?_
  rw [storeDurably, meets_bind]
  refine (respects_working.keeps_enterStage _).meets_bind h (fun _ _ _ => pending_of_unstored) ?_
  intro _ l g h
  refine (respects_working.keeps_moveBackup (by simp)).meets_bind h
    (fun _ _ _ => pending_of_unstored) fun _ l g h => ?_
  rw [meets_bind]
  refine (meets_storeArtifact provider a h).mono (fun r l g h => ?_) fun _ _ _ h => h
  refine (meets_recordStored lock h).mono (fun _ l g h => ?_) fun _ _ _ h => h
  exact (keeps_recorded_finishBackup lock l g h).mono (fun _ _ _ h => h.pending)
    fun _ _ _ h => h.pending

/-- The handlers write nothing but what was stored last, and mark a failure. -/
lemma keeps_settleFailure (e : ExecutionFault) : Keeps ownership Pending (settleFailure e) := by
  have hint : Keeps ownership Pending (ask (.setBackupIntegrity .failed) : Execute BackupRecord) :=
    keeps_perform fun l g h => ⟨trivial, fun r g' hn => by
      have hg : g' = g := hn
      rw [hg]
      exact h⟩
  refine keeps_bind ?_ fun _ => keeps_ite keeps_throw ?_
  · intro l g h
    rw [persistPending, meets_bind, meets_get]
    split
    case h_1 r hr =>
      split
      case isTrue => exact h
      case isFalse hp =>
        rw [Bool.not_eq_true] at hp
        rw [dropErrors, meets_tryCatch, meets_bind]
        refine meets_persist (h r hr hp) (fun e => ?_) fun row => ?_
        · split <;> exact h
        · intro r' _ hp'
          exact Bool.noConfusion hp'
    case h_2 => exact h
  · exact keeps_bind (respects_pending.keeps_recordFailure rfl hint e) fun _ => keeps_throw

lemma meets_execute (provider : StorageProvider) (lease : Option (ℕ × ℕ)) :
    Meets ownership (execute provider lease) (fun _ _ _ => True) (fun _ _ _ => True) {} .idle := by
  have hr := respects_unstored (· = .idle)
  have hstart : Unstored (· = .idle) {} .idle := ⟨rfl, rfl⟩
  refine (hr.keeps_attempt _).meets_bind hstart (fun _ _ _ _ => trivial) fun _ l g h => ?_
  refine hr.keeps_resolveBackup.meets_bind h (fun _ _ _ _ => trivial) fun _ l g h => ?_
  rw [meets_ensure]
  have hbody : Meets ownership (tryCatch (executeBody provider lease) settleFailure)
      (fun _ => Pending) (fun _ => Pending) l g := by
    rw [meets_tryCatch]
    exact (meets_executeBody provider lease h).mono (fun _ _ _ h => h)
      fun e l g h => keeps_settleFailure e l g h
  have hclean := respects_pending.keeps_cleanUp lease
  exact hbody.mono
    (fun _ l g h => (hclean l g h).mono (fun _ _ _ _ => trivial) fun _ _ _ _ => trivial)
    fun _ l g h => (hclean l g h).mono (fun _ _ _ _ => trivial) fun _ _ _ _ => trivial

/-! ## The worker -/

/-- Every runner keeps to its part. -/
lemma follows_code (provider : StorageProvider) (p : Runner) :
    (p.code provider).Follows ownership (fun _ _ => True) .idle := by
  refine follows_runner (P := ownership) (fun c hc g => ?_)
    (fun c hc r g hn => Eq.trans hn ?_) (meets_execute provider) p
  · cases c
    case transitionBackup target code summary =>
      cases target <;> trivial
    all_goals trivial
  · cases c
    case transitionBackup target code summary =>
      cases target <;> first | rfl | exact Bool.noConfusion hc
    all_goals first | rfl | exact Bool.noConfusion hc

/-! ## The record and its executions -/

/-- The record stands behind its executions: `QUEUED` as long as nobody moved it, changed by one
execution alone, and `SUCCEEDED` only with what that execution stored and revalidated. -/
structure Owned (s : BackupSite) (g : ℕ → Phase) : Prop where
  queued : s.record.status = .queued ↔ leaver s.history = none
  oneOwner : OneOwner s.history
  owner : ∀ who, g who ≠ .idle → leaver s.history = some who
  stored : ∀ who r, g who = .stored r → (who, r) ∈ s.registered
  validated : ∀ who r, g who = .validated r → (who, r) ∈ s.registered ∧ (who, r) ∈ s.validated
  recorded : ∀ who r, g who = .recorded r →
    (who, r) ∈ s.registered ∧ (who, r) ∈ s.validated ∧ s.record.Names r.object
  succeeded : s.record.status = .succeeded → ∃ who r, leaver s.history = some who ∧
    (who, r) ∈ s.registered ∧ (who, r) ∈ s.validated ∧ s.record.Names r.object

variable {s : BackupSite} {g : ℕ → Phase} {who : ℕ}

/-- It speaks of the record, its history and the registries only, and registries grow. -/
lemma Owned.grow {t : BackupSite} (h : Owned s g) (hr : t.record = s.record)
    (hh : t.history = s.history) (hreg : s.registered ⊆ t.registered)
    (hval : s.validated ⊆ t.validated) : Owned t g where
  queued := by
    rw [hr, hh]
    exact h.queued
  oneOwner := by
    rw [hh]
    exact h.oneOwner
  owner := by
    rw [hh]
    exact h.owner
  stored w r hw := hreg (h.stored w r hw)
  validated w r hw := ⟨hreg (h.validated w r hw).1, hval (h.validated w r hw).2⟩
  recorded w r hw := by
    rw [hr]
    obtain ⟨h₁, h₂, h₃⟩ := h.recorded w r hw
    exact ⟨hreg h₁, hval h₂, h₃⟩
  succeeded := by
    rw [hr, hh]
    intro hs
    obtain ⟨w, r, hw, h₁, h₂, h₃⟩ := h.succeeded hs
    exact ⟨w, r, hw, hreg h₁, hval h₂, h₃⟩

lemma Owned.same {t : BackupSite} (h : Owned s g) (hr : t.record = s.record)
    (hh : t.history = s.history) (hreg : t.registered = s.registered)
    (hval : t.validated = s.validated) : Owned t g := by
  refine h.grow hr hh ?_ ?_
  · rw [hreg]
    exact List.Subset.refl _
  · rw [hval]
    exact List.Subset.refl _

/-- An execution enters a phase. -/
lemma Owned.enter (h : Owned s g) (φ : Phase) (hown : φ ≠ .idle → leaver s.history = some who)
    (hst : ∀ r, φ = .stored r → (who, r) ∈ s.registered)
    (hval : ∀ r, φ = .validated r → (who, r) ∈ s.registered ∧ (who, r) ∈ s.validated)
    (hrec : ∀ r, φ = .recorded r →
      (who, r) ∈ s.registered ∧ (who, r) ∈ s.validated ∧ s.record.Names r.object) :
    Owned s (Function.update g who φ) where
  queued := h.queued
  oneOwner := h.oneOwner
  owner w hw := by
    rcases eq_or_ne w who with rfl | hne
    · exact hown (by simpa using hw)
    · exact h.owner w (by rwa [Function.update_of_ne hne] at hw)
  stored w r hw := by
    rcases eq_or_ne w who with rfl | hne
    · exact hst r (by simpa using hw)
    · exact h.stored w r (by rwa [Function.update_of_ne hne] at hw)
  validated w r hw := by
    rcases eq_or_ne w who with rfl | hne
    · exact hval r (by simpa using hw)
    · exact h.validated w r (by rwa [Function.update_of_ne hne] at hw)
  recorded w r hw := by
    rcases eq_or_ne w who with rfl | hne
    · exact hrec r (by simpa using hw)
    · exact h.recorded w r (by rwa [Function.update_of_ne hne] at hw)
  succeeded := h.succeeded

/-- Once the record has left `QUEUED` there is an owner. -/
lemma Owned.queued_of_leaver (h : Owned s g) {w : ℕ} (hw : leaver s.history = some w) :
    s.record.status ≠ .queued := by
  intro hs
  rw [h.queued.mp hs] at hw
  exact nomatch hw

/-- The leaver after any change. -/
lemma leaver_changed_eq (s : BackupSite) (who : ℕ) (row : BackupRecord) :
    leaver (s.changed who row).history =
      if s.record.status = .queued ∧ row.status ≠ .queued then some who
      else leaver s.history := by
  change leaver (⟨who, s.record, row⟩ :: s.history) = _
  split
  case isTrue h => exact leaver_cons_leaves (by simp [RecordChange.leavesQueue, h.1, h.2])
  case isFalse h =>
    refine leaver_cons_stays ?_
    rw [RecordChange.leavesQueue, Bool.and_eq_false_iff, beq_eq_false_iff_ne, bne_eq_false_iff_eq]
    exact (not_and_or.mp h).imp_right not_not.mp

/-- The leaver after a change by an execution that may make it. -/
lemma leaver_changed {row : BackupRecord} (h : Owned s g)
    (hown : s.record.status ≠ .queued → leaver s.history = some who)
    (hstay : row.status = .queued → s.record.status = .queued) :
    leaver (s.changed who row).history = if row.status = .queued then none else some who := by
  rw [leaver_changed_eq]
  by_cases hs : s.record.status = .queued
  · by_cases hrow : row.status = .queued
    · rw [if_neg fun h => h.2 hrow, if_pos hrow]
      exact h.queued.mp hs
    · rw [if_pos ⟨hs, hrow⟩, if_neg hrow]
  · rw [if_neg fun h => hs h.1, if_neg fun hrow => hs (hstay hrow)]
    exact hown hs

/-- A change of the record by its owner, or of a record that nobody has moved. -/
lemma Owned.changed {row : BackupRecord} (h : Owned s g)
    (hown : s.record.status ≠ .queued → leaver s.history = some who)
    (hstay : row.status = .queued → s.record.status = .queued)
    (hrec : ∀ r, g who = .recorded r → row.Names r.object)
    (hsucc : row.status = .succeeded → ∃ r, (who, r) ∈ s.registered ∧ (who, r) ∈ s.validated ∧
      row.Names r.object) : Owned (s.changed who row) g where
  queued := by
    rw [leaver_changed h hown hstay]
    change row.status = .queued ↔ _
    split <;> simp_all
  oneOwner := by
    refine h.oneOwner.cons (fun hleaves => ?_) fun w hw => ?_
    · simp only [RecordChange.leavesQueue, Bool.and_eq_true, beq_iff_eq] at hleaves
      exact h.queued.mp hleaves.1
    · exact Option.some.inj ((hown (h.queued_of_leaver hw)).symm.trans hw)
  owner w hw := by
    have hleft := h.owner w hw
    have hs := h.queued_of_leaver hleft
    rw [leaver_changed h hown hstay, if_neg fun hrow => hs (hstay hrow)]
    exact (hown hs).symm.trans hleft
  stored := h.stored
  validated := h.validated
  recorded w r hw := by
    obtain ⟨h₁, h₂, -⟩ := h.recorded w r hw
    have hleft := h.owner w (by rw [hw]; nofun)
    obtain rfl := Option.some.inj ((hown (h.queued_of_leaver hleft)).symm.trans hleft)
    exact ⟨h₁, h₂, hrec r hw⟩
  succeeded hs := by
    obtain ⟨r, h₁, h₂, h₃⟩ := hsucc hs
    refine ⟨who, r, ?_, h₁, h₂, h₃⟩
    rw [leaver_changed h hown hstay, if_neg]
    rintro hrow
    exact absurd (hs.symm.trans hrow) (by decide)

/-- The call records a failure that the lifecycle of the record admits. -/
def recordsFailure (s : BackupSite) : ExecutionCall → Bool
  | .transitionBackup .failed _ _ => decide (.failed ∈ backupTransitions s.record.status)
  | .setBackupIntegrity .failed => decide (.failed ∈ integrityTransitions s.record.integrityStatus)
  | _ => false

/-- A failure finds the record `QUEUED`, or comes from the execution that moved it. -/
def FailsOwn (s : BackupSite) (who : ℕ) (c : ExecutionCall) : Prop :=
  recordsFailure s c = true → s.record.status = .queued ∨ leaver s.history = some who

lemma preparing_transition {status : BackupStatus} (h : .preparing ∈ backupTransitions status) :
    status = .queued := by
  cases status <;> simp_all [backupTransitions]

lemma queued_not_transition {status target : BackupStatus} (h : target ∈ backupTransitions status) :
    target ≠ .queued := by
  cases status <;> cases target <;> simp_all [backupTransitions]

/-- A transition that an execution may make of a record that has left `QUEUED` is its owner's. -/
lemma Owned.transition_own (h : Owned s g) {target : BackupStatus} {code summary : String}
    (hadm : (g who).admits (.transitionBackup target code summary))
    (hmem : target ∈ backupTransitions s.record.status)
    (hfail : FailsOwn s who (.transitionBackup target code summary))
    (hs : s.record.status ≠ .queued) : leaver s.history = some who := by
  cases target with
  | preparing => exact absurd (preparing_transition hmem) hs
  | failed => exact (hfail (decide_eq_true hmem)).resolve_left hs
  | succeeded =>
    obtain ⟨r, hr⟩ := hadm
    exact h.owner who (by rw [hr]; nofun)
  | _ => exact h.owner who hadm

lemma Owned.transition (h : Owned s g) {target : BackupStatus} {code summary : String}
    (hadm : (g who).admits (.transitionBackup target code summary))
    (hmem : target ∈ backupTransitions s.record.status)
    (hfail : FailsOwn s who (.transitionBackup target code summary)) :
    Owned (s.changed who (s.record.moved target code summary)) g := by
  refine h.changed (h.transition_own hadm hmem hfail) ?_ ?_ ?_
  · intro hq
    rw [BackupRecord.moved_status] at hq
    exact absurd hq (queued_not_transition hmem)
  · intro r hr
    exact BackupRecord.moved_names.mpr (h.recorded who r hr).2.2
  · intro hs
    rw [BackupRecord.moved_status] at hs
    subst hs
    obtain ⟨r, hr⟩ := hadm
    obtain ⟨h₁, h₂, h₃⟩ := h.recorded who r hr
    exact ⟨r, h₁, h₂, BackupRecord.moved_names.mpr h₃⟩

lemma Owned.integrity (h : Owned s g) {target : IntegrityStatus}
    (hadm : (g who).admits (.setBackupIntegrity target))
    (hmem : target ∈ integrityTransitions s.record.integrityStatus)
    (hfail : FailsOwn s who (.setBackupIntegrity target)) :
    Owned (s.changed who { s.record with integrityStatus := target }) g := by
  have hown : s.record.status ≠ .queued → leaver s.history = some who := by
    intro hs
    cases target with
    | failed => exact (hfail (decide_eq_true hmem)).resolve_left hs
    | _ => exact h.owner who hadm
  refine h.changed hown (fun hq => hq) (fun r hr => (h.recorded who r hr).2.2) fun hs => ?_
  obtain ⟨w, r, hw, hr⟩ := h.succeeded hs
  obtain rfl := Option.some.inj ((hown (h.queued_of_leaver hw)).symm.trans hw)
  exact ⟨r, hr⟩

lemma Owned.store (h : Owned s g) {r : StoredBackupObjectResult}
    (hadm : g who = .stored r ∨ g who = .validated r)
    (hstatus : s.record.status.transitional = true) :
    Owned (s.changed who (s.record.stored r)) g := by
  have hown : leaver s.history = some who :=
    h.owner who (by rcases hadm with h | h <;> rw [h] <;> nofun)
  refine h.changed (fun _ => hown) (fun hq => hq) (fun r' hr => ?_) fun hs => ?_
  · rcases hadm with hg | hg
    all_goals exact nomatch hg.symm.trans hr
  · have hs : s.record.status = .succeeded := hs
    rw [hs] at hstatus
    exact absurd hstatus (by decide)

/-- A call that leaves the phase, when it leaves what it speaks of. -/
lemma Owned.kept (h : Owned s g) {φ : Phase} (hφ : φ = g who) :
    Owned s (Function.update g who φ) := by
  rw [hφ, Function.update_eq_self]
  exact h

/-- An upload touches nothing but the storage. -/
lemma owned_upload (setup : ExecutionSetup) (h : Owned s g) :
    Owned (uploadObject setup who s).2 g ∧
      Owned (uploadObject setup who s).2 (Function.update g who (g who)) := by
  have hsame : Owned (uploadObject setup who s).2 g := by
    unfold uploadObject
    split
    · exact h.same rfl rfl rfl rfl
    · exact h
  exact ⟨hsame, hsame.kept rfl⟩

/-- What every admitted call keeps, whether the execution hears of its effect or not. -/
lemma owned_exec (setup : ExecutionSetup) {c : ExecutionCall} (h : Owned s g)
    (hadm : (g who).admits c) (hfail : FailsOwn s who c) :
    Owned (c.exec setup who s).2 g ∧
      Owned (c.exec setup who s).2
        (Function.update g who ((g who).after c (c.exec setup who s).1.isOk)) := by
  by_cases hc : c.special = false
  · obtain ⟨hr, hh, -, hreg, hval⟩ := exec_of_not_special setup who s hc
    have hsame := h.same hr hh hreg hval
    exact ⟨hsame, hsame.kept (Phase.after_of_not_special hc)⟩
  cases c
  case transitionBackup target code summary =>
    simp only [ExecutionCall.exec]
    rcases transitionBackup_cases who s target code summary with he | ⟨hmem, he⟩
    · rw [he]
      exact ⟨h, h.kept Phase.after_error⟩
    · rw [he]
      have hmoved := h.transition hadm hmem hfail
      refine ⟨hmoved, ?_⟩
      by_cases hp : target = .preparing
      · subst hp
        refine hmoved.enter _ (fun _ => ?_) (fun _ hp => by cases hp) (fun _ hp => by cases hp)
          (fun _ hp => by cases hp)
        rw [leaver_changed h (h.transition_own hadm hmem hfail), if_neg] <;> simp
      · exact hmoved.kept (Phase.after_transition hp)
  case setBackupIntegrity target =>
    simp only [ExecutionCall.exec]
    rcases setBackupIntegrity_cases who s target with he | ⟨hmem, he⟩
    · rw [he]
      exact ⟨h, h.kept rfl⟩
    · rw [he]
      exact ⟨h.integrity hadm hmem hfail, (h.integrity hadm hmem hfail).kept rfl⟩
  case updateStored r =>
    simp only [ExecutionCall.exec]
    rcases updateStored_cases who s r with he | ⟨hstatus, he⟩
    · rw [he]
      exact ⟨h, h.kept rfl⟩
    · rw [he]
      have hstored := h.store hadm hstatus
      refine ⟨hstored, ?_⟩
      change Owned _ (Function.update g who (if g who = .validated r then .recorded r else g who))
      split
      case isTrue hg =>
        refine hstored.enter _ (fun _ => ?_) (fun _ hp => by cases hp) (fun _ hp => by cases hp)
          fun r' hr => ?_
        · exact hstored.owner who (by rw [hg]; rintro ⟨⟩)
        · obtain rfl := Phase.recorded.inj hr
          obtain ⟨h₁, h₂⟩ := h.validated who r hg
          exact ⟨h₁, h₂, s.record.stored_names r⟩
      case isFalse => exact hstored.kept rfl
  case register occasion r =>
    have hgrown : Owned { s with registered := (who, r) :: s.registered } g :=
      h.grow rfl rfl (List.subset_cons_self _ _) (List.Subset.refl _)
    refine ⟨hgrown, hgrown.enter _ (fun _ => h.owner who hadm) (fun r' hr => ?_)
      (fun _ hp => by cases hp) (fun _ hp => by cases hp)⟩
    obtain rfl := Phase.stored.inj hr
    exact List.mem_cons_self
  case validateStored r =>
    simp only [ExecutionCall.exec]
    cases validateStoredObject setup who s r with
    | error e => exact ⟨h, h.kept rfl⟩
    | ok _ =>
      have hgrown : Owned { s with validated := (who, r) :: s.validated } g :=
        h.grow rfl rfl (List.Subset.refl _) (List.subset_cons_self _ _)
      have hstored : g who = .stored r := hadm
      refine ⟨hgrown, hgrown.enter _ (fun _ => ?_) (fun _ hp => by cases hp) (fun r' hr => ?_)
        (fun _ hp => by cases hp)⟩
      · exact h.owner who (by rw [hstored]; rintro ⟨⟩)
      · obtain rfl := Phase.validated.inj hr
        exact ⟨h.stored who r hstored, List.mem_cons_self⟩
  case linkObject n =>
    have hsame : Owned { s with objects := localObject n (setup.artifact who) :: s.objects } g :=
      h.same rfl rfl rfl rfl
    exact ⟨hsame, hsame.kept rfl⟩
  case removeOwned n =>
    have hsame : Owned
        { s with objects := s.objects.filter fun o => o.reference.key != .uuid n } g :=
      h.same rfl rfl rfl rfl
    exact ⟨hsame, hsame.kept rfl⟩
  case putObject => exact owned_upload setup h
  case completeUpload => exact owned_upload setup h
  all_goals exact absurd rfl hc

/-! ## Leases -/

/-- The execution would be given a lease. -/
def givesLease (setup : ExecutionSetup) (s : BackupSite) : ExecutionCall → Bool
  | .acquireLock read =>
    (acquireTenantOperationLock s.locks setup.business .backup setup.backup setup.leaseSeconds
      (min read s.now)).isOk
  | .inheritLock operation lock read =>
    (NexaPos.Backups.inheritLock setup s operation lock (min read s.now)).isOk
  | _ => false

/-- The call moves the record out of `QUEUED`, or records a failure that its lifecycle admits. -/
def decides (s : BackupSite) : ExecutionCall → Bool
  | .transitionBackup target _ _ =>
    decide (target ∈ backupTransitions s.record.status) &&
      (s.record.status == .queued || target == .failed)
  | .setBackupIntegrity target =>
    target == .failed && decide (.failed ∈ integrityTransitions s.record.integrityStatus)
  | _ => false

/-- An execution is given a lease only while nobody works on the record.  It moves the record out
of `QUEUED`, or records a failure, only as long as no other execution was given a lease after it,
or at all if it was given none. -/
def KeepsLease (setup : ExecutionSetup) (s : BackupSite) (who : ℕ) (c : ExecutionCall) : Prop :=
  (givesLease setup s c = true → s.record.status.working = false) ∧
    (decides s c = true → ∀ last ∈ s.leased.head?, last = who)

/-- How far an execution has come with its lease. -/
inductive Tenure
  /-- It was given none. -/
  | fresh
  | leased
  /-- After it was given its lease it found the record transitional. -/
  | seen
  deriving DecidableEq, Repr

/-- What an execution calls only under a lease. -/
def Tenure.admits (g : Tenure) : ExecutionCall → Prop
  | .transitionBackup .preparing _ _ => g ≠ .fresh
  | .setBackupIntegrity .failed => g = .seen
  | _ => True

/-- An acquisition that raised may have opened a lease; what was read before it counts no more. -/
def Tenure.acquired (g : Tenure) (ok : Bool) : Tenure :=
  if ok = true ∨ g ≠ .fresh then .leased else .fresh

/-- Where an answer leads. -/
def Tenure.after (g : Tenure) : (c : ExecutionCall) → Except ExecutionFault c.Result → Tenure
  | .acquireLock _, r => g.acquired r.isOk
  | .inheritLock _ _ _, r => g.acquired r.isOk
  | .getBackup, .ok row => if row.status.transitional = true ∧ g ≠ .fresh then .seen else g
  | _, _ => g

/-- An execution moves the record under a lease, and marks its integrity when it found the record
transitional under that lease. -/
def tenure : Protocol Tenure ExecutionCall ExecutionCall.Result ExecutionFault where
  may := Tenure.admits
  next g c r g' := g' = g.after c r

lemma Tenure.after_ne_fresh {g : Tenure} {c : ExecutionCall} {r : Except ExecutionFault c.Result}
    (h : g ≠ .fresh) : g.after c r ≠ .fresh := by
  have hacquired (ok : Bool) : g.acquired ok ≠ .fresh := by
    rw [Tenure.acquired, if_pos (.inr h)]
    nofun
  cases c
  case acquireLock read => exact hacquired _
  case inheritLock operation lock read => exact hacquired _
  case getBackup =>
    cases r with
    | error e => exact h
    | ok row =>
      rw [Tenure.after]
      split
      · nofun
      · exact h
  all_goals exact h

/-! ### The coordinator under its lease -/

/-- Every call but a mark on the integrity keeps a lease. -/
lemma keeps_leased {c : ExecutionCall} (hc : c ≠ .setBackupIntegrity .failed) :
    Keeps tenure (fun _ g => g ≠ .fresh) (ask c : Execute c.Result) := by
  refine keeps_perform fun _ g h => ⟨?_, fun r g' hn => ?_⟩
  · cases c
    case transitionBackup target code summary => cases target <;> first | exact h | trivial
    case setBackupIntegrity target => cases target <;> first | contradiction | trivial
    all_goals trivial
  · obtain rfl : g' = g.after c r := hn
    exact Tenure.after_ne_fresh h

/-- A lease that the variable names was given. -/
def Named (l : Locals) (g : Tenure) : Prop := l.lock.isSome = true → g ≠ .fresh

lemma respects_leased : Respects (fun _ => True) tenure (fun _ g => g ≠ .fresh) where
  call c hc l g h := by
    have hne : c ≠ .setBackupIntegrity .failed := by rintro rfl; exact Bool.noConfusion hc
    refine ⟨(meets_perform.mp (keeps_leased hne l g h)).1, fun r g' hn => ?_⟩
    obtain rfl : g' = g.after c r := hn
    exact Tenure.after_ne_fresh h
  move target _ code summary l g h := by
    refine ⟨?_, fun e g' hn => ?_, fun row g' hn => ?_⟩
    · cases target <;> first | exact h | trivial
    · obtain rfl : g' = _ := hn
      exact h
    · obtain rfl : g' = _ := hn
      exact h
  read l g row g' h hn := by
    obtain rfl : g' = g.after .getBackup (.ok row) := hn
    exact Tenure.after_ne_fresh h
  assign _ _ _ _ _ _ _ h := h

lemma respects_named : Respects (· ≠ .preparing) tenure Named where
  call c hc l g h := by
    refine ⟨?_, fun r g' hn hl => ?_⟩
    · cases c <;> first | contradiction | trivial
    · obtain rfl : g' = g.after c r := hn
      exact Tenure.after_ne_fresh (h hl)
  move target ht code summary l g h := by
    refine ⟨?_, fun e g' hn => ?_, fun row g' hn => ?_⟩
    · cases target <;> first | contradiction | trivial
    · obtain rfl : g' = _ := hn
      exact h
    · obtain rfl : g' = _ := hn
      exact h
  read l g row g' h hn hl := by
    obtain rfl : g' = g.after .getBackup (.ok row) := hn
    exact Tenure.after_ne_fresh (h hl)
  assign l l' g _ _ _ hl h hlock := h (hl ▸ hlock)
/-- Who was given a lease has one; when it was not, the variable names none either. -/
lemma meets_acquired {c : ExecutionCall} (hmay : ∀ g : Tenure, g.admits c)
    (hafter : ∀ (g : Tenure) r, g.after c r = g.acquired r.isOk) {l : Locals} {g : Tenure}
    (h : Named l g) :
    Meets tenure (ask c : Execute c.Result) (fun _ _ g' => g' ≠ .fresh) (fun _ => Named) l g := by
  rw [meets_perform]
  refine ⟨hmay g, fun r g' hn => ?_⟩
  obtain rfl : g' = g.after c r := hn
  cases r with
  | ok lock =>
    rw [hafter]
    nofun
  | error e => exact fun hl => Tenure.after_ne_fresh (h hl)

lemma meets_takeLease (lease : Option (ℕ × ℕ)) {l : Locals} {g : Tenure} (h : Named l g) :
    Meets tenure (takeLease lease) (fun _ _ g' => g' ≠ .fresh) (fun _ => Named) l g := by
  have hr := respects_named
  cases lease with
  | none =>
    rw [takeLease, meets_tryCatch]
    have hfail (e : ExecutionFault) (l : Locals) (g : Tenure) (h : Named l g) :
        Meets tenure
          (if e = .locked then do
            activity .failed
            throw (.runtime .lockUnavailable)
          else throw e : Execute ℕ) (fun _ _ g' => g' ≠ .fresh) (fun _ => Named) l g := by
      split
      · exact (hr.keeps_activity _).meets_bind h (fun _ _ _ h => h) fun _ _ _ h => h
      · exact h
    refine (hr.keeps_ask rfl).meets_bind h hfail fun now l g h => ?_
    refine (meets_acquired (c := .acquireLock now) (fun _ => trivial) (fun _ _ => rfl) h).mono ?_ hfail
    exact fun _ _ _ h => h
  | some x =>
    refine (hr.keeps_ask rfl).meets_bind h (fun _ _ _ h => h) fun now l g h => ?_
    exact meets_acquired (c := .inheritLock x.1 x.2 now) (fun _ => trivial) (fun _ _ => rfl) h

lemma named_of_leased {l : Locals} {g : Tenure} (h : g ≠ .fresh) : Named l g := fun _ => h

lemma keeps_persist (r : StoredBackupObjectResult) :
    Keeps tenure Named (persistDurableMetadata r) := by
  have hupdate : Keeps tenure Named (ask (.updateStored r) : Execute BackupRecord) :=
    keeps_perform fun _ _ h => ⟨trivial, fun _ _ hn hl => hn ▸ h hl⟩
  refine keeps_bind keeps_get fun l => keeps_ite ?_ keeps_throw
  exact keeps_bind hupdate fun row => keeps_modify fun _ _ h => h

/-- From the move to `PREPARING` on, the body only keeps its lease. -/
lemma meets_executeBody_leased (provider : StorageProvider) (lease : Option (ℕ × ℕ)) {l : Locals}
    {g : Tenure} (h : Named l g) :
    Meets tenure (executeBody provider lease) (fun _ => Named) (fun _ => Named) l g := by
  have hr := respects_leased
  have hprovides : Provides tenure (fun (_ : Locals) g => g ≠ .fresh) :=
    fun c hc => keeps_leased (by rintro rfl; exact Bool.noConfusion hc)
  have hbind (r : StoredBackupObjectResult) :
      Keeps tenure (fun _ g => g ≠ .fresh) (bindStored r) := keeps_modify fun _ _ h => h
  have hregister (occasion : Registration) (r : StoredBackupObjectResult) :
      Keeps tenure (fun _ g => g ≠ .fresh) (ask (.register occasion r) : Execute Unit) :=
    keeps_leased nofun
  have hstore (a : EncryptedArtifact) :
      Keeps tenure (fun _ g => g ≠ .fresh) (storeArtifact provider a) := by
    refine keeps_bind (keeps_storeEncryptedArtifact hprovides hregister provider a) fun r => ?_
    refine keeps_bind (hbind r) fun _ => keeps_ite (keeps_bind ?_ fun _ => ?_) keeps_pure
    · exact keeps_bind (hr.keeps_attempt _) fun _ => keeps_bind (hregister _ _) fun _ => keeps_pure
    · exact keeps_bind (hbind _) fun _ => keeps_pure
  have hpersist (r : StoredBackupObjectResult) :
      Keeps tenure (fun _ g => g ≠ .fresh) (persistDurableMetadata r) := by
    refine keeps_bind keeps_get fun l => keeps_ite ?_ keeps_throw
    exact keeps_bind (keeps_leased nofun) fun row => keeps_modify fun _ _ h => h
  have hrecord (lock : ℕ) (r : StoredBackupObjectResult) :
      Keeps tenure (fun _ g => g ≠ .fresh) (recordStored lock r) := by
    refine keeps_bind (hr.keeps_attempt _) fun _ => keeps_bind (keeps_leased nofun) fun _ => ?_
    refine keeps_bind (hr.keeps_attempt _) fun _ => keeps_bind (hpersist r) fun _ => ?_
    refine keeps_bind (keeps_modify fun _ _ h => h) fun _ => ?_
    exact keeps_bind (hr.keeps_activity _) fun _ => hr.keeps_heartbeat lock
  have hfinish (lock : ℕ) : Keeps tenure (fun _ g => g ≠ .fresh) (finishBackup lock) := by
    refine hr.keeps_finishBackup trivial trivial (fun target ht => ?_) lock
    exact keeps_bind (keeps_leased fun h => ht (ExecutionCall.setBackupIntegrity.inj h))
      fun row => keeps_modify fun _ _ h => h
  rw [executeBody, meets_bind, beginExecution, meets_bind]
  refine (meets_takeLease lease h).mono (fun lock l g h => ?_) fun _ _ _ h => h
  have hrest : Keeps tenure (fun _ g => g ≠ .fresh)
      (do
        modify fun l => { l with lock := some lock }
        resolveBackup
        attempt .resolveScope
        attempt .createWorkspace
        moveBackup .preparing
        endStage lock .executionStarted
        pure lock : Execute ℕ) := by
    refine keeps_bind (keeps_modify fun _ _ h => h) fun _ => ?_
    refine keeps_bind hr.keeps_resolveBackup fun _ => keeps_bind (hr.keeps_attempt _) fun _ => ?_
    refine keeps_bind (hr.keeps_attempt _) fun _ => ?_
    refine keeps_bind (hr.keeps_moveBackup trivial) fun _ => ?_
    exact keeps_bind (hr.keeps_endStage lock _) fun _ => keeps_pure
  have hE (e : ExecutionFault) (l : Locals) (g : Tenure) (h : g ≠ .fresh) : Named l g :=
    named_of_leased h
  refine (hrest l g h).mono (fun lock l g h => ?_) hE
  refine (hr.keeps_buildPackage trivial trivial lock).meets_bind h hE fun _ l g h => ?_
  refine (hr.keeps_encryptPackage lock).meets_bind h hE fun a l g h => ?_
  refine Keeps.meets_bind ?_ h hE fun _ l g h => (hfinish lock l g h).mono ?_ hE
  · refine keeps_bind (hr.keeps_enterStage _) fun _ => keeps_bind (hr.keeps_moveBackup trivial) ?_
    exact fun _ => keeps_bind (hstore a) fun r => hrecord lock r
  · exact fun _ _ _ h => named_of_leased h

/-- Under its lease an execution marks what it finds transitional. -/
lemma keeps_markFailed_leased (code summary : String) :
    Keeps tenure (fun _ g => g ≠ .fresh) (markFailed code summary) := by
  intro l g h
  refine meets_perform_bind trivial (fun e g' hn => ?_) fun row g' hn => ?_
  · obtain rfl : g' = g := hn
    exact h
  · obtain rfl : g' = g.after .getBackup (.ok row) := hn
    split
    case isTrue htrans =>
      have hseen : g.after .getBackup (.ok row) = .seen := if_pos ⟨htrans, h⟩
      rw [hseen]
      have hread : Keeps tenure (fun _ g => g = .seen) (ask .getBackup : Execute BackupRecord) := by
        refine keeps_perform fun _ g hg => ⟨trivial, fun r g' hn => ?_⟩
        obtain rfl : g' = g.after .getBackup r := hn
        cases r with
        | ok row =>
          rw [hg, Tenure.after]
          split <;> rfl
        | error e => exact hg
      have hmark : Keeps tenure (fun _ g => g = .seen) (markIntegrityFailed row) := by
        refine keeps_ite (keeps_tryCatch (keeps_bind ?_ fun _ => keeps_pure) fun e => ?_) keeps_pure
        · exact keeps_perform fun _ g hg => ⟨hg, fun r g' hn => Eq.trans hn hg⟩
        · exact keeps_ite keeps_throw (keeps_bind hread fun _ => keeps_pure)
      refine hmark.meets_bind rfl (fun e l g hg => hg ▸ nofun) fun _ l g hg => ?_
      exact respects_leased.keeps_moveTo trivial code summary l g (hg ▸ nofun)
    case isFalse => exact Tenure.after_ne_fresh h

lemma keeps_settleFailure_named (e : ExecutionFault) :
    Keeps tenure Named (settleFailure e) := by
  have hr := respects_named
  refine keeps_bind (keeps_bind keeps_get fun l => ?_) fun _ => keeps_ite keeps_throw ?_
  · split
    · refine keeps_ite keeps_pure (keeps_dropErrors ?_)
      exact keeps_bind (keeps_persist _) fun _ => keeps_modify fun _ _ h => h
    · exact keeps_pure
  · refine keeps_bind ?_ fun _ => keeps_throw
    intro l g h
    rw [recordFailure, meets_bind, meets_get]
    split
    case isTrue hl =>
      have hmark : Keeps tenure (fun _ g => g ≠ .fresh)
          (dropErrors (do
            markFailed (failureCode l.stage e) l.stage.failure.2
            activity .failed)) :=
        keeps_dropErrors (keeps_bind (keeps_markFailed_leased _ _) fun _ =>
          respects_leased.keeps_activity _)
      exact (hmark l g (h hl)).mono (fun _ _ _ h => named_of_leased h)
        fun _ _ _ h => named_of_leased h
    case isFalse => exact h

lemma meets_execute_leased (provider : StorageProvider) (lease : Option (ℕ × ℕ)) :
    Meets tenure (execute provider lease) (fun _ _ _ => True) (fun _ _ _ => True) {} .fresh := by
  have hr := respects_named
  have hstart : Named {} .fresh := nofun
  refine (hr.keeps_attempt _).meets_bind hstart (fun _ _ _ _ => trivial) fun _ l g h => ?_
  refine hr.keeps_resolveBackup.meets_bind h (fun _ _ _ _ => trivial) fun _ l g h => ?_
  rw [meets_ensure]
  have hbody : Meets tenure (tryCatch (executeBody provider lease) settleFailure)
      (fun _ => Named) (fun _ => Named) l g := by
    rw [meets_tryCatch]
    exact (meets_executeBody_leased provider lease h).mono (fun _ _ _ h => h)
      fun e l g h => keeps_settleFailure_named e l g h
  have hclean := hr.keeps_cleanUp lease
  exact hbody.mono
    (fun _ l g h => (hclean l g h).mono (fun _ _ _ _ => trivial) fun _ _ _ _ => trivial)
    fun _ l g h => (hclean l g h).mono (fun _ _ _ _ => trivial) fun _ _ _ _ => trivial

lemma follows_tenure (provider : StorageProvider) (p : Runner) :
    (p.code provider).Follows tenure (fun _ _ => True) .fresh := by
  refine follows_runner (P := tenure) (fun c hc g => ?_) (fun c hc r g hn => Eq.trans hn ?_)
    (meets_execute_leased provider) p
  · cases c
    case transitionBackup target code summary => cases target <;> first | contradiction | trivial
    all_goals first | contradiction | trivial
  · cases c
    case getBackup =>
      cases r with
      | ok row => exact if_neg fun h => h.2 rfl
      | error e => rfl
    all_goals first | rfl | contradiction

/-! ### The record and its leases -/

/-- While the record is worked on, who moved it is the last that was given a lease.  Who was the
last and found the record transitional under its lease is the one that moved it, if anybody has. -/
structure Tenured (s : BackupSite) (g : ℕ → Tenure) : Prop where
  queued : s.record.status = .queued ↔ leaver s.history = none
  held : ∀ who, g who ≠ .fresh → who ∈ s.leased
  working : s.record.status.working = true → leaver s.history = s.leased.head?
  seen : ∀ who w, g who = .seen → s.leased.head? = some who → leaver s.history = some w → w = who

variable {g : ℕ → Tenure}

lemma Tenured.same {t : BackupSite} (h : Tenured s g) (hr : t.record = s.record)
    (hh : t.history = s.history) (hl : t.leased = s.leased) : Tenured t g := by
  refine ⟨?_, ?_, ?_, ?_⟩
  · rw [hr, hh]
    exact h.queued
  · rw [hl]
    exact h.held
  · rw [hr, hh, hl]
    exact h.working
  · rw [hh, hl]
    exact h.seen

/-- An execution comes further with its lease. -/
lemma Tenured.enter (h : Tenured s g) {φ : Tenure} (hheld : φ ≠ .fresh → who ∈ s.leased)
    (hseen : φ = .seen → s.leased.head? = some who → ∀ w, leaver s.history = some w → w = who) :
    Tenured s (Function.update g who φ) where
  queued := h.queued
  held x hx := by
    rcases eq_or_ne x who with rfl | hne
    · exact hheld (by simpa using hx)
    · exact h.held x (by rwa [Function.update_of_ne hne] at hx)
  working := h.working
  seen x w hx hlast hw := by
    rcases eq_or_ne x who with rfl | hne
    · exact hseen (by simpa using hx) hlast w hw
    · exact h.seen x w (by rwa [Function.update_of_ne hne] at hx) hlast hw

lemma Tenured.kept (h : Tenured s g) {φ : Tenure} (hφ : φ = g who) :
    Tenured s (Function.update g who φ) := by
  rw [hφ, Function.update_eq_self]
  exact h

/-- A call that raised without effect. -/
lemma Tenured.raised (h : Tenured s g) {c : ExecutionCall} {e : ExecutionFault} :
    Tenured s (Function.update g who ((g who).after c (.error e))) := by
  have hacquired : Tenured s (Function.update g who ((g who).acquired false)) := by
    rw [Tenure.acquired]
    split
    case isTrue hg => exact h.enter (fun _ => h.held who (hg.resolve_left nofun)) nofun
    case isFalse => exact h.enter (fun hne => absurd rfl hne) nofun
  cases c
  case acquireLock read => exact hacquired
  case inheritLock operation lock read => exact hacquired
  all_goals exact h.kept rfl

/-- A lease that an execution was given while nobody worked on the record. -/
lemma Tenured.give (h : Tenured s g) (hidle : s.record.status.working = false) {φ : Tenure}
    (hφ : φ ≠ .seen) {locks : Locks} :
    Tenured { s with locks := locks, leased := who :: s.leased } (Function.update g who φ) where
  queued := h.queued
  held x hx := by
    rcases eq_or_ne x who with rfl | hne
    · exact List.mem_cons_self
    · exact List.mem_cons_of_mem _ (h.held x (by rwa [Function.update_of_ne hne] at hx))
  working hw := by
    have hw : s.record.status.working = true := hw
    rw [hidle] at hw
    exact Bool.noConfusion hw
  seen x w hx hlast _ := by
    obtain rfl : who = x := Option.some.inj hlast
    rw [Function.update_self] at hx
    exact absurd hx hφ

/-- A change of the record that leaves its status. -/
lemma Tenured.amend (h : Tenured s g) {row : BackupRecord} (hrow : row.status = s.record.status) :
    Tenured (s.changed who row) g := by
  have hleaver : leaver (s.changed who row).history = leaver s.history := by
    rw [leaver_changed_eq, if_neg]
    rintro ⟨hq, hne⟩
    exact hne (hrow.trans hq)
  refine ⟨?_, h.held, fun hw => ?_, fun x w hx hlast hw => ?_⟩
  · rw [hleaver]
    exact (iff_of_eq (congrArg (· = _) hrow)).trans h.queued
  · rw [hleaver]
    exact h.working (hrow ▸ hw)
  · exact h.seen x w hx hlast (hleaver ▸ hw)

/-- A transition by the last that was given a lease, when it moves the record out of `QUEUED`. -/
lemma Tenured.move (h : Tenured s g) {target : BackupStatus} {row : BackupRecord}
    (hrow : row.status = target) (hmem : target ∈ backupTransitions s.record.status)
    (hlast : s.record.status = .queued → ∀ last ∈ s.leased.head?, last = who)
    (hheld : target = .preparing → who ∈ s.leased) : Tenured (s.changed who row) g := by
  have hne := queued_not_transition hmem
  by_cases hq : s.record.status = .queued
  · have hleaver : leaver (s.changed who row).history = some who := by
      rw [leaver_changed_eq, if_pos ⟨hq, hrow ▸ hne⟩]
    refine ⟨?_, h.held, fun hw => ?_, fun x w _ hx hw => ?_⟩
    · rw [hleaver]
      exact ⟨fun hs => absurd (hrow.symm.trans hs) hne, nofun⟩
    · have hw : target.working = true := hrow ▸ hw
      have hpreparing : target = .preparing := by
        rw [hq] at hmem
        cases target <;> simp_all [backupTransitions, BackupStatus.working]
      obtain ⟨last, rest, hl⟩ := List.exists_cons_of_ne_nil (List.ne_nil_of_mem (hheld hpreparing))
      rw [hleaver]
      change _ = s.leased.head?
      rw [hl, List.head?_cons, hlast hq last (by rw [hl]; rfl)]
    · obtain rfl := Option.some.inj (hleaver.symm.trans hw)
      exact (hlast hq x hx).symm
  · have hleaver : leaver (s.changed who row).history = leaver s.history := by
      rw [leaver_changed_eq, if_neg fun h => hq h.1]
    refine ⟨?_, h.held, fun hw => ?_, fun x w hx hlast hw => h.seen x w hx hlast (hleaver ▸ hw)⟩
    · rw [hleaver, ← h.queued]
      exact ⟨fun hs => absurd (hrow.symm.trans hs) hne, fun hs => absurd hs hq⟩
    · rw [hleaver]
      refine h.working ?_
      have hw : target.working = true := hrow ▸ hw
      cases hs : s.record.status <;> cases target <;>
        simp_all [backupTransitions, BackupStatus.working]

/-- The calls that change the record, or give a lease. -/
def changes : ExecutionCall → Bool
  | .acquireLock _ => true
  | .inheritLock _ _ _ => true
  | .transitionBackup _ _ _ => true
  | .setBackupIntegrity _ => true
  | .updateStored _ => true
  | _ => false

lemma exec_of_not_changes (setup : ExecutionSetup) (who : ℕ) (s : BackupSite) {c : ExecutionCall}
    (hc : changes c = false) :
    (c.exec setup who s).2.record = s.record ∧ (c.exec setup who s).2.history = s.history ∧
      (c.exec setup who s).2.leased = s.leased := by
  cases c
  case acquireLock => exact Bool.noConfusion hc
  case inheritLock => exact Bool.noConfusion hc
  case transitionBackup => exact Bool.noConfusion hc
  case setBackupIntegrity => exact Bool.noConfusion hc
  case updateStored => exact Bool.noConfusion hc
  case heartbeatLock lock read =>
    simp only [ExecutionCall.exec]
    split <;> exact ⟨rfl, rfl, rfl⟩
  case headObject =>
    simp only [ExecutionCall.exec]
    split <;> exact ⟨rfl, rfl, rfl⟩
  case validateStored r =>
    simp only [ExecutionCall.exec]
    split <;> exact ⟨rfl, rfl, rfl⟩
  case putObject =>
    simp only [ExecutionCall.exec, uploadObject]
    split <;> exact ⟨rfl, rfl, rfl⟩
  case completeUpload =>
    simp only [ExecutionCall.exec, uploadObject]
    split <;> exact ⟨rfl, rfl, rfl⟩
  all_goals exact ⟨rfl, rfl, rfl⟩

lemma Tenured.unchanged {setup : ExecutionSetup} {c : ExecutionCall} (h : Tenured s g)
    (hc : changes c = false) : Tenured (c.exec setup who s).2 g := by
  obtain ⟨hr, hh, hl⟩ := exec_of_not_changes setup who s hc
  exact h.same hr hh hl

/-- A record that an execution found transitional under the last lease was moved by it, if at
all. -/
lemma Tenured.read (h : Tenured s g) {row : BackupRecord} (hrow : row = s.record) :
    Tenured s (Function.update g who ((g who).after .getBackup (.ok row))) := by
  subst hrow
  rw [Tenure.after]
  split
  case isTrue hread =>
    refine h.enter (fun _ => h.held who hread.2) fun _ hlast w hw => ?_
    have hworking : s.record.status.working = true := by
      have htrans := hread.1
      have hqueued : s.record.status ≠ .queued := fun hq => nomatch (h.queued.mp hq).symm.trans hw
      cases hs : s.record.status <;> simp_all [BackupStatus.transitional, BackupStatus.working]
    exact Option.some.inj (hw.symm.trans ((h.working hworking).trans hlast))
  case isFalse => exact h.kept rfl

/-- What a call does under its lease, whether the execution hears of its effect or not. -/
lemma tenured_exec {setup : ExecutionSetup} {c : ExecutionCall} (h : Tenured s g)
    (hadm : (g who).admits c) (hkeeps : KeepsLease setup s who c) :
    Tenured (c.exec setup who s).2
        (Function.update g who ((g who).after c (c.exec setup who s).1)) ∧
      ∀ e, Tenured (c.exec setup who s).2
        (Function.update g who ((g who).after c (.error e))) := by
  have hacquired (ok : Bool) : (g who).acquired ok ≠ .seen := by
    rw [Tenure.acquired]
    split <;> nofun
  cases c
  case acquireLock read =>
    have hgives := hkeeps.1
    simp only [ExecutionCall.exec, givesLease] at hgives ⊢
    split
    case h_1 lock locks hacq =>
      have hidle := hgives (by rw [hacq]; rfl)
      exact ⟨h.give hidle (hacquired true), fun _ => h.give hidle (hacquired false)⟩
    all_goals exact ⟨h.raised, fun _ => h.raised⟩
  case inheritLock operation lock read =>
    have hgives := hkeeps.1
    simp only [ExecutionCall.exec, givesLease] at hgives ⊢
    split
    case h_1 lock hinherit =>
      have hidle := hgives (by rw [hinherit]; rfl)
      exact ⟨h.give hidle (hacquired true), fun _ => h.give hidle (hacquired false)⟩
    case h_2 => exact ⟨h.raised, fun _ => h.raised⟩
  case transitionBackup target code summary =>
    simp only [ExecutionCall.exec]
    rcases transitionBackup_cases who s target code summary with he | ⟨hmem, he⟩
    · rw [he]
      exact ⟨h.raised, fun _ => h.raised⟩
    · rw [he]
      have hmoved : Tenured (s.changed who (s.record.moved target code summary)) g := by
        refine h.move (s.record.moved_status target code summary) hmem (fun hq => ?_) ?_
        · exact hkeeps.2 (Bool.and_eq_true_iff.mpr ⟨decide_eq_true hmem, by simp [hq]⟩)
        · rintro rfl
          exact h.held who hadm
      exact ⟨hmoved.kept rfl, fun _ => hmoved.kept rfl⟩
  case setBackupIntegrity target =>
    simp only [ExecutionCall.exec]
    rcases setBackupIntegrity_cases who s target with he | ⟨-, he⟩
    · rw [he]
      exact ⟨h.raised, fun _ => h.raised⟩
    · rw [he]
      have hamended : Tenured (s.changed who { s.record with integrityStatus := target }) g :=
        h.amend rfl
      exact ⟨hamended.kept rfl, fun _ => hamended.kept rfl⟩
  case updateStored r =>
    simp only [ExecutionCall.exec]
    rcases updateStored_cases who s r with he | ⟨-, he⟩
    · rw [he]
      exact ⟨h.raised, fun _ => h.raised⟩
    · rw [he]
      have hamended : Tenured (s.changed who (s.record.stored r)) g := h.amend rfl
      exact ⟨hamended.kept rfl, fun _ => hamended.kept rfl⟩
  case getBackup => exact ⟨h.read rfl, fun _ => h.raised⟩
  all_goals exact ⟨(h.unchanged rfl).kept rfl, fun _ => (h.unchanged rfl).kept rfl⟩

/-- Under the leases, a failure finds the record `QUEUED`, or comes from the execution that moved
it. -/
lemma Tenured.failsOwn {setup : ExecutionSetup} {c : ExecutionCall} (h : Tenured s g)
    (hadm : (g who).admits c) (hkeeps : KeepsLease setup s who c) : FailsOwn s who c := by
  intro hfails
  by_cases hq : s.record.status = .queued
  · exact .inl hq
  right
  obtain ⟨w, hw⟩ := Option.ne_none_iff_exists'.mp fun hnone => hq (h.queued.mpr hnone)
  cases c
  case transitionBackup target code summary =>
    cases target with
    | failed =>
      have hmem : .failed ∈ backupTransitions s.record.status := of_decide_eq_true hfails
      have hworking : s.record.status.working = true := by
        cases hs : s.record.status <;> simp_all [backupTransitions, BackupStatus.working]
      have hlast := hkeeps.2 (by simp [decides, hmem])
      rw [hw, hlast w ((h.working hworking).symm.trans hw)]
    | _ => exact Bool.noConfusion hfails
  case setBackupIntegrity target =>
    cases target with
    | failed =>
      have hseen : g who = .seen := hadm
      obtain ⟨last, rest, hl⟩ := List.exists_cons_of_ne_nil
        (List.ne_nil_of_mem (h.held who (by rw [hseen]; nofun)))
      have hhead : s.leased.head? = some who := by
        rw [hl, List.head?_cons, hkeeps.2 (by simpa [decides, recordsFailure] using hfails) last
          (by rw [hl]; rfl)]
      rw [hw, h.seen who w hseen hhead hw]
    | _ => exact Bool.noConfusion hfails
  all_goals exact Bool.noConfusion hfails

/-- Every execution is given leases, moves the record and records failures as the leases allow. -/
def KeepsLeases (setup : ExecutionSetup) (w : ExecutionPool) (m : ExecutionMove) : Prop :=
  ∀ x ∈ System.calls w m, x.2.2.effective = true → KeepsLease setup w.shared x.1 x.2.1

instance (setup : ExecutionSetup) (w : ExecutionPool) (m : ExecutionMove) :
    Decidable (KeepsLeases setup w m) :=
  inferInstanceAs (Decidable (∀ x ∈ System.calls w m,
    x.2.2.effective = true → ((_ = true → _) ∧ (_ = true → ∀ last ∈ w.shared.leased.head?, _))))

/-! ## The pool -/

/-- What happens beside the executions touches neither the record nor the registries. -/
lemma beside_same (s : BackupSite) (x : Beside) :
    (x.apply s).record = s.record ∧ (x.apply s).history = s.history ∧
      (x.apply s).registered = s.registered ∧ (x.apply s).validated = s.validated ∧
      (x.apply s).leased = s.leased := by
  cases x
  case tick d => exact ⟨rfl, rfl, rfl, rfl, rfl⟩
  all_goals
    simp only [Beside.apply]
    repeat' split
    all_goals exact ⟨rfl, rfl, rfl, rfl, rfl⟩

/-- Every execution keeps to its part, the record stands behind them, and so do the leases. -/
def PoolOwned (w : ExecutionPool) : Prop :=
  System.Kept ownership .idle Owned w ∧ System.Kept tenure .fresh Tenured w

lemma poolOwned_step {setup : ExecutionSetup} {w : ExecutionPool} {m : ExecutionMove}
    (hm : KeepsLeases setup w m) (h : PoolOwned w) : PoolOwned (executionStep setup w m) := by
  obtain ⟨howned, htenured⟩ := h
  have hfails : ∀ x ∈ System.calls w m, x.2.2.effective = true →
      FailsOwn w.shared x.1 x.2.1 := by
    obtain ⟨g, hg, hfollows⟩ := htenured
    exact fun x hx heff => hg.failsOwn (System.may_of_calls hfollows hx) (hm x hx heff)
  constructor
  · refine System.follows_step (S := executionSystem setup) (follows_code setup.provider) ?_ ?_
      howned
    · intro g who c a hcall hJ hadm
      cases a with
      | served => exact ⟨_, rfl, (owned_exec setup hJ hadm (hfails _ hcall rfl)).2⟩
      | raised e => exact ⟨_, rfl, hJ.kept Phase.after_error⟩
      | lost e =>
        refine ⟨_, rfl, Owned.kept ?_ Phase.after_error⟩
        exact (owned_exec setup hJ hadm (hfails _ hcall rfl)).1
    · intro g x _ hJ
      obtain ⟨hr, hh, hreg, hval, -⟩ := beside_same w.shared x
      exact hJ.same hr hh hreg hval
  · refine System.follows_step (S := executionSystem setup) (follows_tenure setup.provider) ?_ ?_
      htenured
    · intro g who c a hcall hJ hadm
      cases a with
      | served => exact ⟨_, rfl, (tenured_exec hJ hadm (hm _ hcall rfl)).1⟩
      | raised e => exact ⟨_, rfl, hJ.raised⟩
      | lost e => exact ⟨_, rfl, (tenured_exec hJ hadm (hm _ hcall rfl)).2 e⟩
    · intro g x _ hJ
      obtain ⟨hr, hh, -, -, hl⟩ := beside_same w.shared x
      exact hJ.same hr hh hl

/-- Backups in local storage, each execution with an artifact of its own. -/
def localSetup : ExecutionSetup where
  provider := .localPrivate
  artifact n := ⟨10 + n, if n = 0 then "3f" else "9c"⟩

/-- The next `n` calls of an execution, all of them served. -/
def servedCalls (who n : ℕ) : List ExecutionMove := List.replicate n (.turn who .served)

/-- The site after the moves. -/
def siteAfter (moves : List ExecutionMove) : BackupSite :=
  (Trace.run (executionStep localSetup) { shared := {} } moves).shared

/-- Both deliveries find the record `QUEUED`; the second gets the lease when the first is done. -/
def lateDelivery : List ExecutionMove :=
  [.start 0 (.delivery false), .start 1 (.delivery false)] ++ servedCalls 1 7 ++
    servedCalls 0 80 ++ servedCalls 1 20

/-- Delivery 0 is at its snapshot when its lease runs out.  Delivery 1, which found the record
`QUEUED` before, takes the lease, finds the record no longer `QUEUED` and marks it `FAILED`. -/
def takenOver : List ExecutionMove :=
  [.start 0 (.delivery false), .start 1 (.delivery false)] ++ servedCalls 1 7 ++
    servedCalls 0 20 ++ [.outside (.tick 21600000000)] ++ servedCalls 1 10

end BackupExecution

end NexaPos.Backups
