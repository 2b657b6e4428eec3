import NexaPos.Properties.BackupOwner

/-!
# No stored object is lost track of

An execution in which one step fails leaves in durable storage no object that its record does not
name, as long as the step is none of those between the publication of the object and the return of
the provider.  The local provider removes what it published while it has not registered it; the
coordinator persists what a provider returned, in its handlers if need be.  In between there is
nobody: an upload whose answer is lost, or a failure of the verification, the registration or the
staging clean-up after it, leaves an object that only the provider knew of.
-/

namespace NexaPos.Backups.BackupExecution.Tracking

open Routine

/-! ## The steps that lose track -/

/-- Durable storage holds an object that it did not hold before. -/
def published (before s : BackupSite) : Bool := s.objects.any fun o => !before.objects.contains o

/-- The failure of a staging clean-up, which a provider leaves to a retry. -/
def leftToRetry : Answer ExecutionFault → Bool
  | .raised .cleanup => true
  | .lost .cleanup => true
  | _ => false

/-- The step failed while only the provider knew of the object. -/
def losesTrack (provider : StorageProvider) (before : BackupSite)
    (i : Incident BackupSite ExecutionCall ExecutionFault) : Bool :=
  match i.call, provider with
  | .putObject, _ => i.answer.effective
  | .completeUpload, _ => i.answer.effective
  | .store .checkPublished, .s3 _ => published before i.state
  | .verifyReference _, _ => published before i.state
  | .register .stored _, .s3 _ => published before i.state
  | .store .stagingHook, _ => published before i.state
  | .store .cleanupStaging, _ => !leftToRetry i.answer && published before i.state
  | .register .staged _, _ => published before i.state
  | _, _ => false

/-- A run of an execution and the step that failed in it, if one did. -/
abbrev Progress := BackupSite × Option (Incident BackupSite ExecutionCall ExecutionFault)

lemma published_iff {before s : BackupSite} :
    published before s = true ↔ ∃ o ∈ s.objects, o ∉ before.objects := by
  simp [published, List.any_eq_true]

lemma losesTrack_ordinary {provider : StorageProvider} {before : BackupSite}
    {i : Incident BackupSite ExecutionCall ExecutionFault} (h : i.call.ordinary = true) :
    losesTrack provider before i = false := by
  obtain ⟨u, c, a⟩ := i
  cases c <;> first | rfl | exact Bool.noConfusion h

variable (setup : ExecutionSetup) (who : ℕ) (s : BackupSite)

/-- The protocol of an execution in which at most one step fails. -/
abbrev single : Protocol Progress ExecutionCall ExecutionCall.Result ExecutionFault :=
  (executionMachine setup).once who

/-- Every new object is named by the record, and no step lost track. -/
def Tracked (g : Progress) : Prop :=
  (∀ o ∈ g.1.objects, o ∉ s.objects → g.1.record.Names o) ∧
    ∀ i ∈ g.2, losesTrack setup.provider s i = false

/-- A new object is there, the record names none, and a step lost track. -/
def Lost (g : Progress) : Prop :=
  published s g.1 = true ∧ g.1.record.Blank ∧ ∃ i ∈ g.2, losesTrack setup.provider s i = true

/-- Nothing that was stored waits for a handler. -/
def Closed (l : Locals) (g : Progress) : Prop :=
  (l.stored = none ∨ l.persisted = true) ∧ (Tracked setup s g ∨ Lost setup s g)

/-- Nothing has been stored yet. -/
structure Untouched (l : Locals) (g : Progress) : Prop where
  stored : l.stored = none
  persisted : l.persisted = false
  bound : l.backup.Blank
  blank : g.1.record.Blank
  objects : g.1.objects = s.objects
  quiet : ∀ i ∈ g.2, losesTrack setup.provider s i = false

variable {setup} {who} {s}

/-! ## One call -/

/-- In a run in which at most one step fails, a call is served, or it is the one that fails. -/
lemma single_next {c : ExecutionCall} {g g' : Progress} {r : Except ExecutionFault c.Result}
    (h : (single setup who).next g c r g') :
    (c.exec setup who g.1 = (r, g'.1) ∧ g'.2 = g.2) ∨
    (g.2 = none ∧ ∃ e a, r = .error e ∧ g'.2 = some ⟨g.1, c, a⟩ ∧
      (a = .raised e ∧ g'.1 = g.1 ∨ a = .lost e ∧ g'.1 = (c.exec setup who g.1).2)) := by
  rcases h with ⟨hexec, hf⟩ | ⟨hnone, a, ha, hexec, hf⟩
  · exact .inl ⟨hexec, hf⟩
  · cases a with
    | served => exact absurd rfl ha
    | raised e =>
      obtain ⟨hr, hv⟩ := Prod.mk.inj hexec
      exact .inr ⟨hnone, e, _, hr.symm, hf, .inl ⟨rfl, hv.symm⟩⟩
    | lost e =>
      obtain ⟨hr, hv⟩ := Prod.mk.inj hexec
      exact .inr ⟨hnone, e, _, hr.symm, hf, .inr ⟨rfl, hv.symm⟩⟩

lemma meets_single {L : Type} {c : ExecutionCall} {Q : c.Result → L → Progress → Prop}
    {E : ExecutionFault → L → Progress → Prop} {l : L} {g : Progress}
    (hok : ∀ a v, c.exec setup who g.1 = (.ok a, v) → Q a l (v, g.2))
    (herr : ∀ e v, c.exec setup who g.1 = (.error e, v) → E e l (v, g.2))
    (hfail : g.2 = none → ∀ e a v, (a = .raised e ∧ v = g.1 ∨
      a = .lost e ∧ v = (c.exec setup who g.1).2) → E e l (v, some ⟨g.1, c, a⟩)) :
    Meets (single setup who) (ask c) Q E l g := by
  rw [meets_perform]
  refine ⟨trivial, fun r g' hn => ?_⟩
  obtain ⟨v, f⟩ := g'
  rcases single_next hn with ⟨hexec, rfl⟩ | ⟨hnone, e, a, rfl, rfl, hv⟩
  · cases r with
    | ok a => exact hok a v hexec
    | error e => exact herr e v hexec
  · exact hfail hnone e a v hv

/-- No incident becomes one, when it is none that loses track. -/
lemma quiet_some {i : Incident BackupSite ExecutionCall ExecutionFault}
    (h : losesTrack setup.provider s i = false) :
    ∀ j ∈ some i, losesTrack setup.provider s j = false := by
  rintro j hj
  obtain rfl := Option.mem_some.mp hj
  exact h

lemma Tracked.of_subset {g : Progress} (h : ∀ o ∈ g.1.objects, o ∈ s.objects)
    (hquiet : ∀ i ∈ g.2, losesTrack setup.provider s i = false) : Tracked setup s g :=
  ⟨fun o ho hnot => absurd (h o ho) hnot, hquiet⟩

lemma Untouched.closed {l : Locals} {g : Progress} (h : Untouched setup s l g) :
    Closed setup s l g :=
  ⟨.inl h.stored, .inl (.of_subset (fun _ ho => h.objects ▸ ho) h.quiet)⟩

/-- What speaks of the objects and the record only, and no incident, is kept by a call that leaves
both and loses no track. -/
lemma tracked_or_lost_congr {u v : BackupSite}
    {f f' : Option (Incident BackupSite ExecutionCall ExecutionFault)}
    (hobj : v.objects = u.objects) (hnames : ∀ o, u.record.Names o → v.record.Names o)
    (hblank : u.record.Blank → v.record.Blank)
    (hf : ∀ i, i ∈ f' → i ∈ f ∨ losesTrack setup.provider s i = false) (hf' : ∀ i ∈ f, i ∈ f')
    (h : Tracked setup s (u, f) ∨ Lost setup s (u, f)) :
    Tracked setup s (v, f') ∨ Lost setup s (v, f') := by
  rcases h with ⟨htracked, hquiet⟩ | ⟨hpub, hrec, i, hi, hlose⟩
  · refine .inl ⟨fun o ho hnot => hnames o (htracked o (hobj ▸ ho) hnot), fun i hi => ?_⟩
    exact (hf i hi).elim (hquiet i) id
  · refine .inr ⟨?_, hblank hrec, i, hf' i hi, hlose⟩
    rw [published_iff] at hpub ⊢
    obtain ⟨o, ho, hnot⟩ := hpub
    exact ⟨o, hobj.symm ▸ ho, hnot⟩

/-- A call whose failure loses no track leaves the incidents quiet. -/
lemma quiet_next {c : ExecutionCall} {g g' : Progress} {r : Except ExecutionFault c.Result}
    (h : (single setup who).next g c r g')
    (hc : ∀ a, losesTrack setup.provider s ⟨g.1, c, a⟩ = false) :
    (∀ i ∈ g'.2, i ∈ g.2 ∨ losesTrack setup.provider s i = false) ∧ ∀ i ∈ g.2, i ∈ g'.2 := by
  rcases single_next h with ⟨-, hf⟩ | ⟨hnone, e, a, -, hf, -⟩
  · rw [hf]
    exact ⟨fun i hi => .inl hi, fun i hi => hi⟩
  · rw [hf, hnone]
    refine ⟨fun i hi => .inr ?_, fun i hi => absurd hi (Option.not_mem_none i)⟩
    obtain rfl := Option.mem_some.mp hi
    exact hc a

/-- Where a call leads: to the state it leaves, or the state it found. -/
lemma state_next {c : ExecutionCall} {g g' : Progress} {r : Except ExecutionFault c.Result}
    (h : (single setup who).next g c r g') :
    g'.1 = g.1 ∨ g'.1 = (c.exec setup who g.1).2 := by
  rcases single_next h with ⟨hexec, -⟩ | ⟨-, e, a, -, -, ⟨-, hv⟩ | ⟨-, hv⟩⟩
  · exact .inr (by rw [hexec])
  · exact .inl hv
  · exact .inr hv

/-! ## What is settled stays settled -/

/-- What a call leaves settled: the objects stay, and the record names what it named. -/
lemma Closed.next {c : ExecutionCall} {l l' : Locals} {g g' : Progress}
    {r : Except ExecutionFault c.Result} (h : Closed setup s l g)
    (hn : (single setup who).next g c r g')
    (hc : ∀ a, losesTrack setup.provider s ⟨g.1, c, a⟩ = false)
    (hs : l'.stored = l.stored) (hp : l'.persisted = l.persisted)
    (hobj : (c.exec setup who g.1).2.objects = g.1.objects)
    (hnames : ∀ o, g.1.record.Names o → (c.exec setup who g.1).2.record.Names o)
    (hblank : g.1.record.Blank → (c.exec setup who g.1).2.record.Blank) :
    Closed setup s l' g' := by
  obtain ⟨hquiet, hold⟩ := quiet_next hn hc
  refine ⟨by rw [hs, hp]; exact h.1, ?_⟩
  refine tracked_or_lost_congr (u := g.1) (f := g.2) ?_ ?_ ?_ hquiet hold h.2
  · rcases state_next hn with hv | hv <;> rw [hv]
    exact hobj
  · rcases state_next hn with hv | hv <;> rw [hv]
    · exact fun o ho => ho
    · exact hnames
  · rcases state_next hn with hv | hv <;> rw [hv]
    · exact id
    · exact hblank

variable (setup who) in
/-- A transition keeps the objects and the storage fields. -/
lemma exec_transition (target : BackupStatus) (code summary : String) (u : BackupSite) :
    let v := ((ExecutionCall.transitionBackup target code summary).exec setup who u).2
    v.objects = u.objects ∧ (∀ o, v.record.Names o ↔ u.record.Names o) ∧
      (v.record.Blank ↔ u.record.Blank) := by
  simp only [ExecutionCall.exec]
  rcases transitionBackup_cases who u target code summary with he | ⟨-, he⟩
  · rw [he]
    exact ⟨rfl, fun _ => Iff.rfl, Iff.rfl⟩
  · rw [he]
    exact ⟨rfl, fun _ => BackupRecord.moved_names, BackupRecord.moved_blank⟩

variable (setup who) in
lemma exec_integrity (target : IntegrityStatus) (u : BackupSite) :
    let v := ((ExecutionCall.setBackupIntegrity target).exec setup who u).2
    v.objects = u.objects ∧ (∀ o, v.record.Names o ↔ u.record.Names o) ∧
      (v.record.Blank ↔ u.record.Blank) := by
  simp only [ExecutionCall.exec]
  rcases setBackupIntegrity_cases who u target with he | ⟨-, he⟩
  · rw [he]
    exact ⟨rfl, fun _ => Iff.rfl, Iff.rfl⟩
  · rw [he]
    exact ⟨rfl, fun _ => Iff.rfl, Iff.rfl⟩

lemma respects_closed : Respects (fun _ => True) (single setup who) (Closed setup s) where
  call c hc l g h := by
    obtain ⟨hrec, -, hobj, -, -⟩ :=
      exec_of_not_special setup who g.1 (c.not_special_of_ordinary hc)
    refine ⟨trivial, fun r g' hn => h.next hn (fun _ => losesTrack_ordinary hc) rfl rfl hobj ?_ ?_⟩
    · rw [hrec]
      exact fun _ => id
    · rw [hrec]
      exact id
  move target _ code summary l g h := by
    obtain ⟨hobj, hnames, hblank⟩ :=
      exec_transition setup who target code summary g.1
    refine ⟨trivial, fun e g' hn => ?_, fun row g' hn => ?_⟩
    · exact h.next hn (fun _ => rfl) rfl rfl hobj (fun o => (hnames o).mpr) hblank.mpr
    · exact h.next hn (fun _ => rfl) rfl rfl hobj (fun o => (hnames o).mpr) hblank.mpr
  read l g row g' h hn :=
    h.next hn (fun _ => rfl) rfl rfl rfl (fun _ => id) id
  assign l l' g hs hp _ _ h := ⟨by rw [hs, hp]; exact h.1, h.2⟩

lemma keeps_closed_integrity (target : IntegrityStatus) :
    Keeps (single setup who) (Closed setup s)
      (ask (.setBackupIntegrity target) : Execute BackupRecord) := by
  obtain h := fun u => exec_integrity setup who target u
  refine keeps_perform fun l g hI => ⟨trivial, fun r g' hn => ?_⟩
  exact hI.next hn (fun _ => rfl) rfl rfl (h g.1).1 (fun o => ((h g.1).2.1 o).mpr) (h g.1).2.2.mpr

/-! ## Before anything is stored -/

lemma losesTrack_unpublished {u : BackupSite} {c : ExecutionCall} {a : Answer ExecutionFault}
    (hu : published s u = false) (hc : c.special = false) :
    losesTrack setup.provider s ⟨u, c, a⟩ = false := by
  cases hp : setup.provider <;> cases c
  case localPrivate.store step => cases step <;> simp [losesTrack, hu]
  case s3.store step => cases step <;> simp [losesTrack, hu]
  all_goals first | exact hu | rfl | exact Bool.noConfusion hc

lemma Untouched.unpublished {l : Locals} {g : Progress} (h : Untouched setup s l g) :
    published s g.1 = false := by
  rw [Bool.eq_false_iff, Ne, published_iff]
  rintro ⟨o, ho, hnot⟩
  exact hnot (h.objects ▸ ho)

/-- What a call leaves untouched. -/
lemma Untouched.next {c : ExecutionCall} {l l' : Locals} {g g' : Progress}
    {r : Except ExecutionFault c.Result} (h : Untouched setup s l g)
    (hn : (single setup who).next g c r g')
    (hc : ∀ a, losesTrack setup.provider s ⟨g.1, c, a⟩ = false)
    (hs : l'.stored = l.stored) (hp : l'.persisted = l.persisted) (hb : l'.backup.Blank)
    (hobj : (c.exec setup who g.1).2.objects = g.1.objects)
    (hblank : (c.exec setup who g.1).2.record.Blank) : Untouched setup s l' g' where
  stored := hs.trans h.stored
  persisted := hp.trans h.persisted
  bound := hb
  blank := by
    rcases state_next hn with hv | hv <;> rw [hv]
    · exact h.blank
    · exact hblank
  objects := by
    rcases state_next hn with hv | hv <;> rw [hv]
    · exact h.objects
    · exact hobj.trans h.objects
  quiet i hi := ((quiet_next hn hc).1 i hi).elim (h.quiet i) id

/-- The row that a transition answers is the row that it leaves. -/
lemma transition_row {target : BackupStatus} {code summary : String} {g g' : Progress}
    {row : BackupRecord}
    (h : (single setup who).next g (.transitionBackup target code summary) (.ok row) g') :
    g'.1.record = row ∧ row = g.1.record.moved target code summary := by
  rcases single_next h with ⟨hexec, -⟩ | ⟨-, e, a, he, -, -⟩
  · have hexec : transitionBackup who g.1 target code summary = (.ok row, g'.1) := hexec
    rcases transitionBackup_cases who g.1 target code summary with hc | ⟨-, hc⟩
    · rw [hc] at hexec
      exact nomatch (Prod.mk.inj hexec).1
    · rw [hc] at hexec
      obtain ⟨hrow, hv⟩ := Prod.mk.inj hexec
      obtain rfl := Except.ok.inj hrow
      rw [← hv]
      exact ⟨rfl, rfl⟩
  · exact nomatch he

/-- The steps of an execution before it stores anything. -/
lemma respects_untouched : Respects (fun _ => True) (single setup who) (Untouched setup s) where
  call c hc l g h := by
    obtain ⟨hrec, -, hobj, -, -⟩ :=
      exec_of_not_special setup who g.1 (c.not_special_of_ordinary hc)
    refine ⟨trivial, fun r g' hn => ?_⟩
    exact h.next hn (fun _ => losesTrack_ordinary hc) rfl rfl h.bound hobj (hrec ▸ h.blank)
  move target _ code summary l g h := by
    obtain ⟨hobj, -, hblank⟩ :=
      exec_transition setup who target code summary g.1
    refine ⟨trivial, fun e g' hn => ?_, fun row g' hn => ?_⟩
    · exact h.next hn (fun _ => rfl) rfl rfl h.bound hobj (hblank.mpr h.blank)
    · refine h.next hn (fun _ => rfl) rfl rfl ?_ hobj (hblank.mpr h.blank)
      rw [(transition_row hn).2]
      exact BackupRecord.moved_blank.mpr h.blank
  read l g row g' h hn := by
    refine h.next hn (fun _ => rfl) rfl rfl ?_ rfl h.blank
    rcases single_next hn with ⟨hexec, -⟩ | ⟨-, e, a, he, -, -⟩
    · obtain rfl := Except.ok.inj (Prod.mk.inj hexec).1
      exact h.blank
    · exact nomatch he
  assign l l' g hs hp hb _ h :=
    { h with
      stored := hs.trans h.stored
      persisted := hp.trans h.persisted
      bound := hb ▸ h.bound }

/-! ## The handlers -/

/-- A result waits for a handler: the record would take it, and it is all that is new. -/
structure Pending (setup : ExecutionSetup) (s : BackupSite) (r : StoredBackupObjectResult)
    (l : Locals) (g : Progress) : Prop where
  stored : l.stored = some r
  persisted : l.persisted = false
  accepts : acceptsReference r = true
  bound : l.backup.admits r.object.reference = true
  admits : g.1.record.admits r.object.reference = true
  active : g.1.record.status.transitional = true
  objects : ∀ o ∈ g.1.objects, o ∈ s.objects ∨ o = r.object
  quiet : ∀ i ∈ g.2, losesTrack setup.provider s i = false

/-- What an exception leaves to the handlers. -/
def Handed (setup : ExecutionSetup) (s : BackupSite) (l : Locals) (g : Progress) : Prop :=
  Closed setup s l g ∨ ∃ r, Pending setup s r l g ∧ g.2.isSome = true

/-- The record takes a result that waits. -/
lemma Pending.exec_update (who : ℕ) {r : StoredBackupObjectResult} {l : Locals} {g : Progress}
    (h : Pending setup s r l g) :
    (ExecutionCall.updateStored r).exec setup who g.1 =
      (.ok (g.1.record.stored r), g.1.changed who (g.1.record.stored r)) := by
  simp only [ExecutionCall.exec, updateStored]
  exact if_pos (Bool.and_eq_true_iff.mpr ⟨h.active, h.admits⟩)

/-- A record that names the result would take it again. -/
lemma admits_stored (b : BackupRecord) (r : StoredBackupObjectResult) :
    (b.stored r).admits r.object.reference = true := by
  simp [BackupRecord.admits, BackupRecord.stored]

/-- Persisting a result: the record names it, or the step failed and the result still waits. -/
lemma meets_persist {r : StoredBackupObjectResult} {l : Locals} {g : Progress}
    (h : Pending setup s r l g) :
    Meets (single setup who) (persistDurableMetadata r) (fun _ _ g' => Tracked setup s g')
      (fun _ l' g' => g.2 = none ∧ Pending setup s r l' g' ∧ g'.2.isSome = true)
      l g := by
  have hexec := h.exec_update who
  rw [persistDurableMetadata, meets_bind, meets_get, if_pos (by simp [h.accepts, h.bound]),
    meets_bind]
  refine meets_single (fun row v he => ?_) (fun e v he => ?_) fun hnone e a v hv => ?_
  · rw [hexec] at he
    obtain ⟨-, rfl⟩ := Prod.mk.inj he
    refine ⟨fun o ho hnot => ?_, h.quiet⟩
    obtain rfl := (h.objects o ho).resolve_left hnot
    exact g.1.record.stored_names r
  · rw [hexec] at he
    cases (Prod.mk.inj he).1
  · rw [hexec] at hv
    refine ⟨hnone, ?_, rfl⟩
    rcases hv with ⟨-, rfl⟩ | ⟨-, rfl⟩
    · exact { h with quiet := quiet_some rfl }
    · exact
        { h with
          admits := admits_stored _ r
          quiet := quiet_some rfl }

/-- The handlers persist what waits, and then everything is settled. -/
lemma meets_persistPending {l : Locals} {g : Progress} (h : Handed setup s l g) :
    Meets (single setup who) persistPending (fun _ => Closed setup s)
      (fun _ => Closed setup s) l g := by
  rw [persistPending, meets_bind, meets_get]
  rcases h with h | ⟨r, h, hsome⟩
  · split
    case h_1 r hr =>
      have hp : l.persisted = true := h.1.resolve_left (by rw [hr]; rintro ⟨⟩)
      rw [if_pos hp]
      exact h
    case h_2 => exact h
  · rw [h.stored]
    dsimp only
    rw [if_neg (by simp [h.persisted]), dropErrors, meets_tryCatch, meets_bind]
    refine (meets_persist h).mono (fun _ l' g' ht => ⟨.inr rfl, .inl ht⟩) ?_
    rintro e l' g' ⟨hnone, -⟩
    rw [hnone] at hsome
    cases hsome

lemma meets_settleFailure (e : ExecutionFault) {l : Locals} {g : Progress}
    (h : Handed setup s l g) :
    Meets (single setup who) (settleFailure e) (fun _ => Closed setup s)
      (fun _ => Closed setup s) l g := by
  rw [settleFailure, meets_bind]
  refine (meets_persistPending h).mono (fun _ l g h => ?_) fun _ _ _ h => h
  split
  · exact h
  · rw [meets_bind]
    exact (respects_closed.keeps_recordFailure trivial (keeps_closed_integrity _) e l g h).mono
      (fun _ _ _ h => h) fun _ _ _ h => h

/-! ## The storage providers -/

/-- Ready to store: the record is on its way. -/
def Ready (setup : ExecutionSetup) (s : BackupSite) (l : Locals) (g : Progress) : Prop :=
  Untouched setup s l g ∧ g.1.record.status.transitional = true

lemma keeps_ready {c : ExecutionCall} (hc : c.special = false) :
    Keeps (single setup who) (Ready setup s) (ask c : Execute c.Result) := by
  refine keeps_perform fun l g h => ⟨trivial, fun r g' hn => ?_⟩
  obtain ⟨hrec, -, hobj, -, -⟩ :=
    exec_of_not_special setup who g.1 hc
  refine ⟨h.1.next hn (fun _ => losesTrack_unpublished h.1.unpublished hc) rfl rfl h.1.bound hobj
    (hrec ▸ h.1.blank), ?_⟩
  rcases state_next hn with hv | hv <;> rw [hv]
  · exact h.2
  · rw [hrec]
    exact h.2

/-- The object is in storage, with the artifact of the execution, and may be all that is new. -/
structure Holds (setup : ExecutionSetup) (s : BackupSite) (o : StoredObject) (l : Locals)
    (g : Progress) : Prop where
  stored : l.stored = none
  persisted : l.persisted = false
  bound : l.backup.Blank
  blank : g.1.record.Blank
  active : g.1.record.status.transitional = true
  objects : ∀ x ∈ g.1.objects, x ∈ s.objects ∨ x = o
  found : findObject g.1.objects o.reference = some o
  quiet : ∀ i ∈ g.2, losesTrack setup.provider s i = false

/-- A step that fails while the object is held settles the matter, when it loses track of an object
that is new. -/
lemma Holds.closed {o : StoredObject} {l : Locals} {g : Progress} (h : Holds setup s o l g)
    {v : BackupSite} (hobj : v.objects = g.1.objects) (hrec : v.record = g.1.record)
    {i : Incident BackupSite ExecutionCall ExecutionFault}
    (hi : losesTrack setup.provider s i = published s g.1) : Closed setup s l (v, some i) := by
  refine ⟨.inl h.stored, ?_⟩
  cases hpub : published s g.1 with
  | false =>
    refine .inl (.of_subset (fun o ho => ?_) (quiet_some (hi.trans hpub)))
    by_contra hnot
    rw [Bool.eq_false_iff, Ne, published_iff] at hpub
    exact hpub ⟨o, hobj ▸ ho, hnot⟩
  | true =>
    refine .inr ⟨?_, hrec ▸ h.blank, i, rfl, hi.trans hpub⟩
    rw [published_iff] at hpub ⊢
    obtain ⟨x, hx, hnot⟩ := hpub
    exact ⟨x, hobj.symm ▸ hx, hnot⟩

/-- The registry of the execution has the result, where the provider asks it. -/
def Known (setup : ExecutionSetup) (who : ℕ) (r : StoredBackupObjectResult) (u : BackupSite) :
    Prop :=
  (match setup.provider with
    | .localPrivate => (u.registered.find? fun x => x.1 == who) == some (who, r)
    | .s3 _ => true) = true

lemma known_registered (r : StoredBackupObjectResult) (u : BackupSite) :
    Known setup who r { u with registered := (who, r) :: u.registered } := by
  unfold Known
  split
  · simp
  · rfl

/-- A result that a provider may return. -/
structure HoldsResult (setup : ExecutionSetup) (who : ℕ) (s : BackupSite)
    (r : StoredBackupObjectResult) (l : Locals) (g : Progress) : Prop extends
    Holds setup s r.object l g where
  known : Known setup who r g.1
  accepts : acceptsReference r = true

/-- A registration while the object is held. -/
lemma meets_register {occasion : Registration} {r : StoredBackupObjectResult} {l : Locals}
    {g : Progress} (h : Holds setup s r.object l g) (haccepts : acceptsReference r = true)
    (hlose : ∀ a, losesTrack setup.provider s ⟨g.1, .register occasion r, a⟩ =
      published s g.1) :
    Meets (single setup who) (ask (.register occasion r)) (fun _ => HoldsResult setup who s r)
      (fun _ => Closed setup s) l g := by
  refine meets_single (fun x v he => ?_) (fun e v he => ?_) fun _ e a v hv => ?_
  · obtain ⟨-, rfl⟩ := Prod.mk.inj he
    exact
      { h with
        known := known_registered r g.1
        accepts := haccepts }
  · exact nomatch (Prod.mk.inj he).1
  · rcases hv with ⟨-, rfl⟩ | ⟨-, rfl⟩
    · exact h.closed rfl rfl (hlose a)
    · exact h.closed rfl rfl (hlose a)

lemma meets_cleanStaging {r : StoredBackupObjectResult} {l : Locals} {g : Progress}
    (h : HoldsResult setup who s r l g) :
    Meets (single setup who) (cleanStaging r) (fun r' => HoldsResult setup who s r')
      (fun _ => Closed setup s) l g := by
  rw [cleanStaging, meets_bind, meets_tryCatch, meets_bind]
  have hrest : ∀ l g, HoldsResult setup who s r l g →
      Meets (single setup who)
        (do
          ask (.register .staged { r with stagingCleanupIncomplete := false })
          pure { r with stagingCleanupIncomplete := false } : Execute StoredBackupObjectResult)
        (fun r' => HoldsResult setup who s r') (fun _ => Closed setup s) l g := by
    intro l g h
    rw [meets_bind]
    refine meets_register (r := { r with stagingCleanupIncomplete := false }) h.toHolds ?_ ?_
    · exact h.accepts
    · intro a
      cases hp : setup.provider <;> rfl
  refine meets_single (fun x v he => ?_) (fun e v he => ?_) fun _ e a v hv => ?_
  · obtain ⟨-, rfl⟩ := Prod.mk.inj he
    exact hrest l g h
  · exact nomatch (Prod.mk.inj he).1
  · have hsame : v = g.1 := hv.elim And.right And.right
    subst hsame
    split
    case isTrue hclean =>
      subst hclean
      rw [meets_pure, if_neg Bool.false_ne_true]
      refine { h with quiet := quiet_some ?_ }
      rcases hv with ⟨rfl, -⟩ | ⟨rfl, -⟩
      all_goals cases hp : setup.provider <;> rfl
    case isFalse hother =>
      refine h.toHolds.closed rfl rfl ?_
      have hleft : leftToRetry a = false := by
        rcases hv with ⟨rfl, -⟩ | ⟨rfl, -⟩
        all_goals cases e <;> first | rfl | exact absurd rfl hother
      cases hp : setup.provider <;> simp [losesTrack, hleft]

/-- What a provider does when it goes well, and what it leaves when it raises. -/
def Stores (setup : ExecutionSetup) (who : ℕ) (s : BackupSite) (I : Locals → Progress → Prop)
    (x : Execute StoredBackupObjectResult) : Prop :=
  ∀ l g, I l g → Meets (single setup who) x (fun r => HoldsResult setup who s r)
    (fun _ => Closed setup s) l g

/-- A handler that only gives the exception another name. -/
lemma Stores.rename {I : Locals → Progress → Prop} {x : Execute StoredBackupObjectResult}
    (h : Stores setup who s I x) :
    Stores setup who s I (tryCatch x fun e => throw (storageError e)) := by
  intro l g hI
  rw [meets_tryCatch]
  exact h l g hI

/-! ### The local provider -/

/-- Something may have been published under the given reference, and nothing else. -/
structure Opened (setup : ExecutionSetup) (s : BackupSite) (n : ℕ) (l : Locals) (g : Progress) :
    Prop where
  stored : l.stored = none
  objects : ∀ x ∈ g.1.objects, x ∈ s.objects ∨ x.reference.key = .uuid n
  failed : g.2.isSome = true
  quiet : ∀ i ∈ g.2, losesTrack setup.provider s i = false

/-- Before it is registered, what was published is removed. -/
lemma meets_removeOwned {n : ℕ} {e : ExecutionFault} {l : Locals} {g : Progress}
    (h : Opened setup s n l g) :
    Meets (single setup who)
      (do
        tryCatch (ask (.removeOwned n)) fun _ => pure ()
        throw (storageError e) : Execute StoredBackupObjectResult)
      (fun r => HoldsResult setup who s r) (fun _ => Closed setup s) l g := by
  rw [meets_bind, meets_tryCatch]
  refine meets_single (fun x v he => ?_) (fun e v he => ?_) fun hnone e a v hv => ?_
  · obtain ⟨-, rfl⟩ := Prod.mk.inj he
    refine ⟨.inl h.stored, .inl (.of_subset (fun o ho => ?_) h.quiet)⟩
    obtain ⟨hmem, hkey⟩ := List.mem_filter.mp ho
    exact (h.objects o hmem).resolve_right (by simpa using hkey)
  · exact nomatch (Prod.mk.inj he).1
  · have hsome := h.failed
    rw [hnone] at hsome
    exact nomatch hsome

lemma findObject_head (o : StoredObject) (objects : List StoredObject) :
    findObject (o :: objects) o.reference = some o := by
  simp [findObject]

/-- A step of a provider is served, or it is the one that fails; the site stays. -/
lemma meets_storeStep {step : StoreStep} {Q : Unit → Locals → Progress → Prop}
    {E : ExecutionFault → Locals → Progress → Prop} {l : Locals} {g : Progress} (hok : Q () l g)
    (hfail : g.2 = none → ∀ e a, (a = .raised e ∨ a = .lost e) →
      E e l (g.1, some ⟨g.1, .store step, a⟩)) :
    Meets (single setup who) (attemptStore step) Q E l g := by
  refine meets_single (fun x v he => ?_) (fun e v he => ?_) fun hnone e a v hv => ?_
  · obtain ⟨-, rfl⟩ := Prod.mk.inj he
    exact hok
  · exact nomatch (Prod.mk.inj he).1
  · have hsame : v = g.1 := hv.elim And.right And.right
    rw [hsame]
    exact hfail hnone e a (hv.imp And.left And.left)

lemma Ready.opened {n : ℕ} {l : Locals} {g : Progress} (h : Ready setup s l g) {v : BackupSite}
    (hv : ∀ x ∈ v.objects, x ∈ s.objects ∨ x.reference.key = .uuid n)
    {i : Incident BackupSite ExecutionCall ExecutionFault}
    (hi : losesTrack setup.provider s i = false) : Opened setup s n l (v, some i) where
  stored := h.1.stored
  objects := hv
  failed := rfl
  quiet := quiet_some hi

/-- The object that the local provider links is the only new one. -/
lemma mem_linked {l : Locals} {g : Progress} (h : Ready setup s l g) {n : ℕ}
    {a : EncryptedArtifact} {x : StoredObject} (hx : x ∈ localObject n a :: g.1.objects) :
    x ∈ s.objects ∨ x = localObject n a := by
  rcases List.mem_cons.mp hx with rfl | hx
  · exact .inr rfl
  · exact .inl (h.1.objects ▸ hx)

lemma meets_publishLocal (hp : setup.provider = .localPrivate) {l : Locals} {g : Progress}
    (h : Ready setup s l g) :
    Meets (single setup who) (publishLocal (setup.artifact who))
      (fun r => HoldsResult setup who s r) (fun _ => Closed setup s) l g := by
  refine (keeps_ready (c := .newReference) rfl).meets_bind h (fun _ _ _ h => h.1.closed) ?_
  intro n l g h
  rw [meets_tryCatch]
  refine Meets.mono (E := fun _ => Opened setup s n) ?_ (fun _ _ _ h => h)
    fun e l g h => meets_removeOwned h
  have hold : ∀ x ∈ g.1.objects, x ∈ s.objects ∨ x.reference.key = .uuid n :=
    fun x hx => .inl (h.1.objects ▸ hx)
  have hnew : ∀ x ∈ localObject n (setup.artifact who) :: g.1.objects,
      x ∈ s.objects ∨ x.reference.key = .uuid n := by
    intro x hx
    rcases mem_linked h hx with hx | rfl
    · exact .inl hx
    · exact .inr rfl
  have hlocal : ∀ (u : BackupSite) (a : Answer ExecutionFault) (step : StoreStep),
      step = .prepare ∨ step = .checkPublished →
      losesTrack setup.provider s ⟨u, .store step, a⟩ = false := by
    rintro u a step (rfl | rfl)
    all_goals rw [hp]; rfl
  rw [meets_bind]
  refine meets_storeStep ?_ fun _ e a _ => h.opened hold (hlocal _ _ _ (.inl rfl))
  rw [meets_bind]
  refine meets_single (fun x v he => ?_) (fun e v he => ?_) fun _ e a v hv => ?_
  · obtain ⟨-, rfl⟩ := Prod.mk.inj he
    have hheld : Holds setup s (localObject n (setup.artifact who)) l
        ({ g.1 with objects := localObject n (setup.artifact who) :: g.1.objects }, g.2) :=
      { stored := h.1.stored
        persisted := h.1.persisted
        bound := h.1.bound
        blank := h.1.blank
        active := h.2
        objects := fun x hx => mem_linked h hx
        found := findObject_head _ _
        quiet := h.1.quiet }
    rw [meets_bind]
    refine meets_storeStep ?_ fun _ e a _ => h.opened hnew (hlocal _ _ _ (.inr rfl))
    rw [meets_bind]
    refine meets_single (fun x v he => ?_) (fun e v he => ?_) fun _ e a v hv => ?_
    · obtain ⟨-, rfl⟩ := Prod.mk.inj he
      exact
        { hheld with
          known := known_registered _ _
          accepts := rfl }
    · exact nomatch (Prod.mk.inj he).1
    · have hquiet : losesTrack setup.provider s
          ⟨{ g.1 with objects := localObject n (setup.artifact who) :: g.1.objects },
            .register .stored (storedResult localBackend { key := .uuid n } (setup.artifact who)),
            a⟩ = false := by
        rw [hp]
        rfl
      rcases hv with ⟨-, rfl⟩ | ⟨-, rfl⟩
      · exact h.opened hnew hquiet
      · exact h.opened hnew hquiet
  · exact nomatch (Prod.mk.inj he).1
  · rcases hv with ⟨-, rfl⟩ | ⟨-, rfl⟩
    · exact h.opened hold rfl
    · exact h.opened hnew rfl

lemma stores_storeLocal (hp : setup.provider = .localPrivate) :
    Stores setup who s (Ready setup s) (storeLocal (setup.artifact who)) := by
  intro l g h
  rw [storeLocal, meets_bind]
  refine (meets_publishLocal hp h).mono (fun r l g h => ?_) fun _ _ _ h => h
  refine Stores.rename (I := HoldsResult setup who s r) (fun l g h => ?_) l g h
  rw [meets_bind]
  refine meets_storeStep (meets_cleanStaging h) fun _ e a _ => ?_
  refine h.toHolds.closed rfl rfl ?_
  rw [hp]
  rfl

/-! ### The S3-compatible provider -/

lemma findObject_some {objects : List StoredObject} {r : StoredReference} {o : StoredObject}
    (h : findObject objects r = some o) :
    o.reference.key = r.key ∧ o.reference.bucket = r.bucket ∧
      (r.version = none ∨ o.reference.version = r.version) := by
  have hmatch := List.find?_some h
  simpa [Bool.and_eq_true, Bool.or_eq_true, and_assoc] using hmatch

/-- No object lies under the key. -/
def Free (c : S3Configuration) (objects : List StoredObject) : Prop :=
  findObject objects ⟨.path c.objectKey, c.bucket, none⟩ = none

lemma Free.not_mem {c : S3Configuration} {objects : List StoredObject} (h : Free c objects)
    {o : StoredObject} (hkey : o.reference.key = .path c.objectKey)
    (hbucket : o.reference.bucket = c.bucket) : o ∉ objects := by
  intro ho
  rw [Free, findObject, List.find?_eq_none] at h
  exact h o ho (by simp [hkey, hbucket])

/-- The reference finds an object that holds the artifact of the execution. -/
structure Located (setup : ExecutionSetup) (who : ℕ) (s : BackupSite) (c : S3Configuration)
    (reference : StoredReference) (o : StoredObject) (l : Locals) (g : Progress) : Prop extends
    Holds setup s o l g where
  looked : findObject g.1.objects reference = some o
  named : { reference with version := reference.version <|> o.reference.version } = o.reference
  byteCount : o.byteCount = (setup.artifact who).byteCount
  sha256 : o.sha256 = (setup.artifact who).sha256
  key : o.reference.key = .path c.objectKey
  bucket : o.reference.bucket = c.bucket

/-- What an upload leaves: a new object under the key, and otherwise what was there. -/
lemma uploadObject_spec (who : ℕ) {c : S3Configuration} (hp : setup.provider = .s3 c) (u : BackupSite) :
    ∃ o rest version v, uploadObject setup who u = (.ok version, v) ∧ v.objects = o :: rest ∧
      v.record = u.record ∧ (∀ x ∈ rest, x ∈ u.objects) ∧ o.reference.key = .path c.objectKey ∧
      o.reference.bucket = c.bucket ∧ o.byteCount = (setup.artifact who).byteCount ∧
      o.sha256 = (setup.artifact who).sha256 ∧
      (version = none ∨ version = o.reference.version) := by
  unfold uploadObject
  rw [hp]
  refine ⟨_, _, _, _, rfl, rfl, rfl, fun x hx => ?_, rfl, rfl, rfl, rfl, ?_⟩
  · split at hx
    · exact hx
    · exact (List.mem_filter.mp hx).1
  · by_cases hv : c.announcesVersion = true
    · exact .inr (if_pos hv)
    · exact .inl (if_neg hv)

/-- After an upload its reference finds the object. -/
lemma Ready.located {c : S3Configuration} {l : Locals} {g : Progress} (h : Ready setup s l g)
    {o : StoredObject} {rest : List StoredObject} {version : Option ℕ} {v : BackupSite}
    (hobj : v.objects = o :: rest) (hrec : v.record = g.1.record)
    (hrest : ∀ x ∈ rest, x ∈ g.1.objects) (hkey : o.reference.key = .path c.objectKey)
    (hbucket : o.reference.bucket = c.bucket)
    (hbytes : o.byteCount = (setup.artifact who).byteCount)
    (hsha : o.sha256 = (setup.artifact who).sha256)
    (hversion : version = none ∨ version = o.reference.version) :
    Located setup who s c ⟨.path c.objectKey, c.bucket, version⟩ o l (v, g.2) where
  stored := h.1.stored
  persisted := h.1.persisted
  bound := h.1.bound
  blank := hrec ▸ h.1.blank
  active := hrec ▸ h.2
  objects x hx := by
    rw [hobj] at hx
    rcases List.mem_cons.mp hx with rfl | hx
    · exact .inr rfl
    · exact .inl (h.1.objects ▸ hrest x hx)
  found := by
    rw [hobj]
    exact findObject_head o rest
  quiet := h.1.quiet
  looked := by
    rw [hobj]
    rcases hversion with rfl | rfl
    all_goals simp [findObject, hkey, hbucket]
  named := by
    obtain ⟨⟨k, b, w⟩, n, sha⟩ := o
    obtain rfl : k = .path c.objectKey := hkey
    obtain rfl : b = c.bucket := hbucket
    rcases hversion with rfl | rfl
    · rfl
    · cases version <;> rfl
  byteCount := hbytes
  sha256 := hsha
  key := hkey
  bucket := hbucket

/-- An upload that takes effect and fails loses track of a new object. -/
lemma Ready.lost {c : S3Configuration} {l : Locals} {g : Progress} (h : Ready setup s l g)
    (hfree : Free c s.objects) {o : StoredObject} {rest : List StoredObject} {v : BackupSite}
    (hobj : v.objects = o :: rest) (hrec : v.record = g.1.record)
    (hkey : o.reference.key = .path c.objectKey) (hbucket : o.reference.bucket = c.bucket)
    {i : Incident BackupSite ExecutionCall ExecutionFault}
    (hi : losesTrack setup.provider s i = true) : Closed setup s l (v, some i) := by
  refine ⟨.inl h.1.stored, .inr ⟨?_, hrec ▸ h.1.blank, i, rfl, hi⟩⟩
  rw [published_iff]
  exact ⟨o, by rw [hobj]; exact List.mem_cons_self, hfree.not_mem hkey hbucket⟩

/-- A step that fails and changes nothing, before anything is published. -/
lemma Ready.closed_some {l : Locals} {g : Progress} (h : Ready setup s l g)
    {i : Incident BackupSite ExecutionCall ExecutionFault}
    (hi : losesTrack setup.provider s i = false) : Closed setup s l (g.1, some i) :=
  ⟨.inl h.1.stored, .inl (.of_subset (fun _ ho => h.1.objects ▸ ho) (quiet_some hi))⟩

/-- Either call that publishes the object, an upload or the completion of one. -/
lemma meets_upload {c : S3Configuration} (hp : setup.provider = .s3 c)
    (hfree : Free c s.objects) {l : Locals} {g : Progress} (h : Ready setup s l g) :
    Meets (single setup who) (ask .putObject)
        (fun version l g => ∃ o,
          Located setup who s c ⟨.path c.objectKey, c.bucket, version⟩ o l g)
        (fun _ => Closed setup s) l g ∧
      Meets (single setup who) (ask .completeUpload)
        (fun version l g => ∃ o,
          Located setup who s c ⟨.path c.objectKey, c.bucket, version⟩ o l g)
        (fun _ => Closed setup s) l g := by
  obtain ⟨o, rest, version, v, hexec, hobj, hrec, hrest, hkey, hbucket, hbytes, hsha, hversion⟩ :=
    uploadObject_spec who hp g.1
  constructor
  all_goals
    refine meets_single (fun a v' he => ?_) (fun e v' he => ?_) fun _ e a v' hv => ?_
    · obtain ⟨ha, rfl⟩ := Prod.mk.inj (hexec.symm.trans he)
      obtain rfl := Except.ok.inj ha
      exact ⟨o, h.located hobj hrec hrest hkey hbucket hbytes hsha hversion⟩
    · exact nomatch (Prod.mk.inj (hexec.symm.trans he)).1
    · change _ ∨ a = .lost e ∧ v' = (uploadObject setup who g.1).2 at hv
      rw [hexec] at hv
      rcases hv with ⟨rfl, rfl⟩ | ⟨rfl, rfl⟩
      · exact h.closed_some rfl
      · exact h.lost hfree hobj hrec hkey hbucket rfl

/-- The object that lies under the key is taken when it holds the artifact. -/
lemma meets_existingVerify {c : S3Configuration} {l : Locals} {g : Progress}
    (h : Ready setup s l g) {o : StoredObject}
    (hfind : findObject g.1.objects ⟨.path c.objectKey, c.bucket, none⟩ = some o) :
    Meets (single setup who)
      (ask (.verifyReference ⟨.path c.objectKey, c.bucket, o.reference.version⟩))
      (fun _ l g => ∃ o', Located setup who s c
        ⟨.path c.objectKey, c.bucket, o.reference.version⟩ o' l g)
      (fun _ => Closed setup s) l g := by
  refine meets_single (fun version v he => ?_) (fun e v he => ?_) fun _ e a v hv => ?_
  · obtain ⟨hverify, rfl⟩ := Prod.mk.inj he
    unfold verifyReference at hverify
    split at hverify
    case h_2 => exact nomatch hverify
    case h_1 o' hfound =>
      split at hverify
      case isFalse => exact nomatch hverify
      case isTrue hcontent =>
        obtain ⟨hkey, hbucket, hversion⟩ := findObject_some hfound
        have hsame : o'.reference = ⟨.path c.objectKey, c.bucket, o.reference.version⟩ := by
          rcases hversion with hnone | hversion
          · -- A reference without a version finds what the head found.
            have hnone : o.reference.version = none := hnone
            rw [hnone] at hfound ⊢
            obtain rfl := Option.some.inj (hfind.symm.trans hfound)
            exact StoredReference.ext hkey hbucket hnone
          · exact StoredReference.ext hkey hbucket hversion
        exact ⟨o',
          { stored := h.1.stored
            persisted := h.1.persisted
            bound := h.1.bound
            blank := h.1.blank
            active := h.2
            objects := fun x hx => .inl (h.1.objects ▸ hx)
            found := hsame ▸ hfound
            quiet := h.1.quiet
            looked := hfound
            named := by
              rw [hsame]
              cases o.reference.version <;> rfl
            byteCount := hcontent.1
            sha256 := hcontent.2
            key := hkey
            bucket := hbucket }⟩
  · obtain ⟨-, rfl⟩ := Prod.mk.inj he
    exact h.1.closed
  · have hsame : v = g.1 := hv.elim And.right And.right
    rw [hsame]
    exact h.closed_some (losesTrack_unpublished h.1.unpublished rfl)

lemma meets_existingReference {c : S3Configuration} (hp : setup.provider = .s3 c) {l : Locals}
    {g : Progress} (h : Ready setup s l g) :
    Meets (single setup who) (existingReference c)
      (fun found l g => found.elim (Ready setup s l g ∧ Free c s.objects) fun reference =>
        ∃ o, Located setup who s c reference o l g)
      (fun _ => Closed setup s) l g := by
  have hexec : (ExecutionCall.headObject).exec setup who g.1 =
      (.ok ((findObject g.1.objects ⟨.path c.objectKey, c.bucket, none⟩).map
        (·.reference.version)), g.1) := by
    simp only [ExecutionCall.exec, hp]
  rw [existingReference, meets_bind]
  refine meets_single (fun head v he => ?_) (fun e v he => ?_) fun _ e a v hv => ?_
  · obtain ⟨hhead, rfl⟩ := Prod.mk.inj (hexec.symm.trans he)
    obtain rfl := Except.ok.inj hhead
    cases hfind : findObject g.1.objects ⟨.path c.objectKey, c.bucket, none⟩ with
    | none => exact ⟨h, h.1.objects ▸ hfind⟩
    | some o =>
      dsimp only [Option.map_some]
      rw [meets_bind]
      exact meets_existingVerify h hfind
  · cases (Prod.mk.inj (hexec.symm.trans he)).1
  · have hsame : v = g.1 := by
      rw [hexec] at hv
      exact hv.elim And.right And.right
    rw [hsame]
    exact h.closed_some (losesTrack_unpublished h.1.unpublished rfl)

lemma keeps_closed_abort : Keeps (single setup who) (Closed setup s)
    (attemptStore .abortUpload : Execute Unit) :=
  keeps_perform fun _ _ h => ⟨trivial, fun _ _ hn =>
    h.next hn (fun _ => by cases setup.provider <;> rfl) rfl rfl rfl (fun _ => id) id⟩

lemma keeps_ready_parts (parts : List ℕ) :
    Keeps (single setup who) (Ready setup s) (uploadParts parts) := by
  induction parts with
  | nil => exact keeps_pure
  | cons n rest ih => exact keeps_bind (keeps_ready rfl) fun _ => ih

lemma meets_putMultipart {c : S3Configuration} {a : EncryptedArtifact}
    (hp : setup.provider = .s3 c) (hfree : Free c s.objects) {l : Locals} {g : Progress}
    (h : Ready setup s l g) :
    Meets (single setup who) (putMultipart c a)
      (fun version l g => ∃ o,
        Located setup who s c ⟨.path c.objectKey, c.bucket, version⟩ o l g)
      (fun _ => Closed setup s) l g := by
  have hclosed : ∀ (_ : ExecutionFault) l g, Ready setup s l g → Closed setup s l g :=
    fun _ _ _ h => h.1.closed
  refine (keeps_ready (c := .store .createUpload) rfl).meets_bind h hclosed fun _ l g h => ?_
  rw [meets_tryCatch]
  refine Meets.mono (E := fun _ => Closed setup s) ?_ (fun _ _ _ h => h) fun e l g h => ?_
  · refine (keeps_ready_parts _).meets_bind h hclosed fun _ l g h => ?_
    refine (keeps_ready (c := .store .checkParts) rfl).meets_bind h hclosed fun _ l g h => ?_
    exact (meets_upload hp hfree h).2
  · exact (keeps_dropErrors keeps_closed_abort).meets_bind h (fun _ _ _ h => h) fun _ _ _ h => h

lemma meets_putSingle {c : S3Configuration} (hp : setup.provider = .s3 c)
    (hfree : Free c s.objects) {l : Locals} {g : Progress} (h : Ready setup s l g) :
    Meets (single setup who) putSingle
      (fun version l g => ∃ o,
        Located setup who s c ⟨.path c.objectKey, c.bucket, version⟩ o l g)
      (fun _ => Closed setup s) l g := by
  rw [putSingle, meets_bind]
  refine (meets_upload hp hfree h).1.mono ?_ fun _ _ _ h => h
  rintro version l g ⟨o, ho⟩
  rw [meets_bind]
  refine meets_storeStep ⟨o, ho⟩ fun _ e a _ => ho.toHolds.closed rfl rfl ?_
  rw [hp]
  rfl

lemma meets_publishS3 {c : S3Configuration} (hp : setup.provider = .s3 c) {l : Locals}
    {g : Progress} (h : Ready setup s l g) :
    Meets (single setup who) (publishS3 c (setup.artifact who))
      (fun reference l g => ∃ o, Located setup who s c reference o l g)
      (fun _ => Closed setup s) l g := by
  refine (keeps_ready (c := .store .prepare) rfl).meets_bind h (fun _ _ _ h => h.1.closed) ?_
  intro _ l g h
  rw [meets_bind]
  refine (meets_existingReference hp h).mono (fun found l g h => ?_) fun _ _ _ h => h
  cases found with
  | some reference => exact h
  | none =>
    obtain ⟨h, hfree⟩ := h
    dsimp only [uploadArtifact]
    split
    · rw [meets_bind]
      exact meets_putMultipart hp hfree h
    · rw [meets_bind]
      exact meets_putSingle hp hfree h

lemma meets_registerS3 {c : S3Configuration} (hp : setup.provider = .s3 c)
    {reference : StoredReference} {o : StoredObject} {l : Locals} {g : Progress}
    (h : Located setup who s c reference o l g) :
    Meets (single setup who) (registerS3 (setup.artifact who) reference)
      (fun r => HoldsResult setup who s r) (fun _ => Closed setup s) l g := by
  have hexec : (ExecutionCall.verifyReference reference).exec setup who g.1 =
      (.ok o.reference.version, g.1) := by
    simp only [ExecutionCall.exec, verifyReference, h.looked, h.byteCount, h.sha256, and_self,
      if_true]
  rw [registerS3, meets_bind]
  refine meets_single (fun version v he => ?_) (fun e v he => ?_) fun _ e a v hv => ?_
  · obtain ⟨hversion, rfl⟩ := Prod.mk.inj (hexec.symm.trans he)
    obtain rfl := Except.ok.inj hversion
    dsimp only
    rw [h.named, meets_bind]
    have hobject : (storedResult s3Backend o.reference (setup.artifact who)).object = o := by
      obtain ⟨ref, n, sha⟩ := o
      obtain rfl : n = _ := h.byteCount
      obtain rfl : sha = _ := h.sha256
      rfl
    have haccepts : acceptsReference (storedResult s3Backend o.reference (setup.artifact who)) =
        true := by
      rw [acceptsReference, hobject, h.key, h.bucket]
      simp [storedResult, c.bucket_valid.1, c.bucket_valid.2, c.key_valid.1, c.key_valid.2]
    refine (meets_register (hobject ▸ h.toHolds) haccepts fun a => ?_).mono
      (fun _ l g h => meets_cleanStaging h) fun _ _ _ h => h
    rw [hp]
    rfl
  · cases (Prod.mk.inj (hexec.symm.trans he)).1
  · have hsame : v = g.1 := by
      rw [hexec] at hv
      exact hv.elim And.right And.right
    rw [hsame]
    refine h.toHolds.closed rfl rfl ?_
    rw [hp]
    rfl

lemma stores_storeS3 {c : S3Configuration} (hp : setup.provider = .s3 c) :
    Stores setup who s (Ready setup s) (storeS3 c (setup.artifact who)) := by
  refine Stores.rename fun l g h => ?_
  rw [meets_bind]
  refine (meets_publishS3 hp h).mono ?_ fun _ _ _ h => h
  rintro reference l g ⟨o, ho⟩
  exact meets_registerS3 hp ho

lemma stores_storeEncryptedArtifact :
    Stores setup who s (Ready setup s)
      (storeEncryptedArtifact setup.provider (setup.artifact who)) := by
  cases hp : setup.provider with
  | localPrivate => exact stores_storeLocal hp
  | s3 c => exact stores_storeS3 hp

/-! ## The coordinator -/

lemma Untouched.handed {l : Locals} {g : Progress} (h : Untouched setup s l g) :
    Handed setup s l g := .inl h.closed

lemma meets_beginExecution (lease : Option (ℕ × ℕ)) {l : Locals} {g : Progress}
    (h : Untouched setup s l g) :
    Meets (single setup who) (beginExecution lease) (fun _ => Untouched setup s)
      (fun _ => Handed setup s) l g := by
  have hr : Respects _ (single setup who) (Untouched setup s) := respects_untouched
  have hkeeps : Keeps (single setup who) (Untouched setup s) (beginExecution lease) := by
    refine keeps_bind (hr.keeps_takeLease lease) fun lock => ?_
    refine keeps_bind (keeps_modify fun _ _ h => { h with }) fun _ => ?_
    refine keeps_bind hr.keeps_resolveBackup fun _ => keeps_bind (hr.keeps_attempt _) fun _ => ?_
    refine keeps_bind (hr.keeps_attempt _) fun _ => ?_
    exact keeps_bind (hr.keeps_moveBackup trivial) fun _ =>
      keeps_bind (hr.keeps_endStage lock _) fun _ => keeps_pure
  exact (hkeeps l g h).mono (fun _ _ _ h => h) fun _ _ _ h => h.handed

/-- The artifact that is encrypted is that of the execution. -/
lemma meets_encryptPackage (lock : ℕ) {l : Locals} {g : Progress} (h : Untouched setup s l g) :
    Meets (single setup who) (encryptPackage lock)
      (fun a l g => a = setup.artifact who ∧ Untouched setup s l g)
      (fun _ => Untouched setup s) l g := by
  have hr : Respects _ (single setup who) (Untouched setup s) := respects_untouched
  refine (hr.keeps_enterStage _).meets_bind h (fun _ _ _ h => h) fun _ l g h => ?_
  rw [meets_bind]
  refine meets_single (fun a v he => ?_) (fun e v he => ?_) fun hnone e a v hv => ?_
  · obtain ⟨ha, rfl⟩ := Prod.mk.inj he
    obtain rfl := Except.ok.inj ha
    refine (hr.keeps_attempt _).meets_bind h (fun _ _ _ h => h) fun _ l g h => ?_
    refine (hr.keeps_attempt _).meets_bind h (fun _ _ _ h => h) fun _ l g h => ?_
    exact (hr.keeps_endStage lock _).meets_bind h (fun _ _ _ h => h) fun _ l g h => ⟨rfl, h⟩
  · exact nomatch (Prod.mk.inj he).1
  · have hsame : v = g.1 := hv.elim And.right And.right
    rw [hsame]
    exact { h with quiet := quiet_some (losesTrack_ordinary rfl) }

/-- After the move to `UPLOADING` the execution is ready to store. -/
lemma meets_moveUploading {l : Locals} {g : Progress} (h : Untouched setup s l g) :
    Meets (single setup who) (moveBackup .uploading) (fun _ => Ready setup s)
      (fun _ => Handed setup s) l g := by
  have hr : Respects _ (single setup who) (Untouched setup s) := respects_untouched
  obtain ⟨-, herr, hok⟩ := hr.move .uploading trivial "" "" l g h
  refine meets_perform_bind trivial (fun e g' hn => (herr e g' hn).handed) fun row g' hn => ?_
  refine ⟨hok row g' hn, ?_⟩
  obtain ⟨hrow, hmoved⟩ := transition_row hn
  rw [hrow, hmoved, BackupRecord.moved_status]
  rfl

/-- The result is in the variable, in storage and in the registry. -/
structure Bound (setup : ExecutionSetup) (who : ℕ) (s : BackupSite)
    (r : StoredBackupObjectResult) (l : Locals) (g : Progress) : Prop extends
    Pending setup s r l g where
  found : findObject g.1.objects r.object.reference = some r.object
  known : Known setup who r g.1

lemma admits_of_blank {b : BackupRecord} (h : b.Blank) (r : StoredReference) :
    b.admits r = true := by
  obtain ⟨hkey, hbucket, hversion⟩ := h
  simp [BackupRecord.admits, hkey, hbucket, hversion]

lemma HoldsResult.bind {r : StoredBackupObjectResult} {l : Locals} {g : Progress}
    (h : HoldsResult setup who s r l g) : Bound setup who s r { l with stored := some r } g where
  stored := rfl
  persisted := h.persisted
  accepts := h.accepts
  bound := admits_of_blank h.bound _
  admits := admits_of_blank h.blank _
  active := h.active
  objects := h.objects
  quiet := h.quiet
  found := h.found
  known := h.known

/-- A call that fails while a result is bound leaves it to the handlers. -/
lemma Bound.handed {r : StoredBackupObjectResult} {l : Locals} {g : Progress}
    (h : Bound setup who s r l g) {v : BackupSite} (hobj : v.objects = g.1.objects)
    (hrec : v.record = g.1.record) {i : Incident BackupSite ExecutionCall ExecutionFault}
    (hi : losesTrack setup.provider s i = false) : Handed setup s l (v, some i) :=
  .inr ⟨r,
    { h.toPending with
      admits := hrec ▸ h.admits
      active := hrec ▸ h.active
      objects := hobj ▸ h.objects
      quiet := quiet_some hi }, rfl⟩

/-- A step of the coordinator while a result is bound. -/
lemma meets_bound_attempt {r : StoredBackupObjectResult} {step : ExecutionStep} {l : Locals}
    {g : Progress} (h : Bound setup who s r l g) :
    Meets (single setup who) (attempt step) (fun _ => Bound setup who s r)
      (fun _ => Handed setup s) l g := by
  refine meets_single (fun a v he => ?_) (fun e v he => ?_) fun _ e a v hv => ?_
  · obtain ⟨-, rfl⟩ := Prod.mk.inj he
    exact h
  · exact nomatch (Prod.mk.inj he).1
  · have hsame : v = g.1 := hv.elim And.right And.right
    rw [hsame]
    exact h.handed rfl rfl (losesTrack_ordinary rfl)

lemma meets_storeArtifact {l : Locals} {g : Progress} (h : Ready setup s l g) :
    Meets (single setup who) (storeArtifact setup.provider (setup.artifact who))
      (fun r => Bound setup who s r) (fun _ => Handed setup s) l g := by
  rw [storeArtifact, meets_bind]
  refine (stores_storeEncryptedArtifact l g h).mono (fun r l g h => ?_) fun _ _ _ h => .inl h
  rw [meets_bind, bindStored, meets_modify]
  split
  case isFalse => exact h.bind
  case isTrue =>
    rw [retryStagingCleanup, meets_bind, meets_bind]
    refine (meets_bound_attempt h.bind).mono (fun _ l g hb => ?_) fun _ _ _ h => h
    rw [meets_bind]
    refine meets_single (fun a v he => ?_) (fun e v he => ?_) fun _ e a v hv => ?_
    · obtain ⟨-, rfl⟩ := Prod.mk.inj he
      exact
        { hb with
          stored := rfl
          known := known_registered _ _ }
    · cases (Prod.mk.inj he).1
    · have hquiet : losesTrack setup.provider s
          ⟨g.1, .register .retried { r with stagingCleanupIncomplete := false }, a⟩ = false := by
        cases setup.provider <;> rfl
      rcases hv with ⟨-, rfl⟩ | ⟨-, rfl⟩
      · exact hb.handed (by rfl) (by rfl) hquiet
      · exact hb.handed (by rfl) (by rfl) hquiet

lemma meets_validateStored {r : StoredBackupObjectResult} {l : Locals} {g : Progress}
    (h : Bound setup who s r l g) :
    Meets (single setup who) (ask (.validateStored r)) (fun _ => Bound setup who s r)
      (fun _ => Handed setup s) l g := by
  have hvalid : validateStoredObject setup who g.1 r = .ok () := by
    unfold validateStoredObject
    exact if_pos ⟨h.known, h.found⟩
  have hexec : (ExecutionCall.validateStored r).exec setup who g.1 =
      (.ok (), { g.1 with validated := (who, r) :: g.1.validated }) := by
    simp only [ExecutionCall.exec, hvalid]
  have hquiet : ∀ a, losesTrack setup.provider s ⟨g.1, .validateStored r, a⟩ = false := by
    intro a
    cases setup.provider <;> rfl
  refine meets_single (fun a v he => ?_) (fun e v he => ?_) fun _ e a v hv => ?_
  · obtain ⟨-, rfl⟩ := Prod.mk.inj (hexec.symm.trans he)
    exact { h with }
  · cases (Prod.mk.inj (hexec.symm.trans he)).1
  · rw [hexec] at hv
    rcases hv with ⟨-, rfl⟩ | ⟨-, rfl⟩
    · exact h.handed (by rfl) (by rfl) (hquiet a)
    · exact h.handed (by rfl) (by rfl) (hquiet a)

lemma meets_recordStored (lock : ℕ) {r : StoredBackupObjectResult} {l : Locals} {g : Progress}
    (h : Bound setup who s r l g) :
    Meets (single setup who) (recordStored lock r) (fun _ => Closed setup s)
      (fun _ => Handed setup s) l g := by
  rw [recordStored, meets_bind]
  refine (meets_bound_attempt h).mono (fun _ l g h => ?_) fun _ _ _ h => h
  rw [meets_bind]
  refine (meets_validateStored h).mono (fun _ l g h => ?_) fun _ _ _ h => h
  rw [meets_bind]
  refine (meets_bound_attempt h).mono (fun _ l g h => ?_) fun _ _ _ h => h
  rw [meets_bind]
  refine (meets_persist h.toPending).mono (fun _ l g ht => ?_) fun _ l g h => .inr ⟨r, h.2⟩
  rw [meets_bind, meets_modify]
  have hclosed : Closed setup s { l with persisted := true } g := ⟨.inr rfl, .inl ht⟩
  have hr : Respects _ (single setup who) (Closed setup s) := respects_closed
  refine (hr.keeps_activity _).meets_bind hclosed (fun _ _ _ h => .inl h) fun _ l g h => ?_
  exact (hr.keeps_heartbeat lock l g h).mono (fun _ _ _ h => h) fun _ _ _ h => .inl h

lemma keeps_closed_finishBackup (lock : ℕ) :
    Keeps (single setup who) (Closed setup s) (finishBackup lock) := by
  have hr : Respects _ (single setup who) (Closed setup s) := respects_closed
  refine hr.keeps_finishBackup trivial trivial (fun target _ => ?_) lock
  refine keeps_bind (keeps_closed_integrity target) fun row => ?_
  exact keeps_modify fun l g h => ⟨h.1, h.2⟩

lemma meets_executeBody (lease : Option (ℕ × ℕ)) {l : Locals} {g : Progress}
    (h : Untouched setup s l g) :
    Meets (single setup who) (executeBody setup.provider lease) (fun _ => Closed setup s)
      (fun _ => Handed setup s) l g := by
  have hr : Respects _ (single setup who) (Untouched setup s) := respects_untouched
  rw [executeBody, meets_bind]
  refine (meets_beginExecution lease h).mono (fun lock l g h => ?_) fun _ _ _ h => h
  refine (hr.keeps_buildPackage trivial trivial lock).meets_bind h (fun _ _ _ h => h.handed) ?_
  intro _ l g h
  rw [meets_bind]
  refine (meets_encryptPackage lock h).mono ?_ fun _ _ _ h => h.handed
  rintro a l g ⟨rfl, h⟩
  rw [meets_bind, storeDurably]
  refine (hr.keeps_enterStage _).meets_bind h (fun _ _ _ h => h.handed) fun _ l g h => ?_
  rw [meets_bind]
  refine (meets_moveUploading h).mono (fun _ l g h => ?_) fun _ _ _ h => h
  rw [meets_bind]
  refine (meets_storeArtifact h).mono (fun r l g h => ?_) fun _ _ _ h => h
  refine (meets_recordStored lock h).mono (fun _ l g h => ?_) fun _ _ _ h => h
  exact (keeps_closed_finishBackup lock l g h).mono (fun _ _ _ h => h) fun _ _ _ h => .inl h

lemma meets_execute (lease : Option (ℕ × ℕ)) {g : Progress} (h : Untouched setup s {} g) :
    Meets (single setup who) (execute setup.provider lease) (fun _ => Closed setup s)
      (fun _ => Closed setup s) {} g := by
  have hr : Respects _ (single setup who) (Untouched setup s) := respects_untouched
  refine (hr.keeps_attempt _).meets_bind h (fun _ _ _ h => h.closed) fun _ l g h => ?_
  refine hr.keeps_resolveBackup.meets_bind h (fun _ _ _ h => h.closed) fun _ l g h => ?_
  have hclean : Keeps (single setup who) (Closed setup s)
      (ensure cleanupTransients (releaseLease lease)) := respects_closed.keeps_cleanUp lease
  rw [meets_ensure, meets_tryCatch]
  refine (meets_executeBody lease h).mono (fun _ l g h => hclean l g h) fun e l g h => ?_
  exact (meets_settleFailure e h).mono (fun _ l g h => hclean l g h) fun _ l g h => hclean l g h

/-- A record that is not queued is declined before anything is stored. -/
lemma meets_execute_declined (lease : Option (ℕ × ℕ)) {g : Progress}
    (hstatus : g.1.record.status ≠ .queued) (hobj : g.1.objects = s.objects)
    (hquiet : ∀ i ∈ g.2, losesTrack setup.provider s i = false) :
    Meets (single setup who) (execute setup.provider lease) (fun _ => Closed setup s)
      (fun _ => Closed setup s) {} g := by
  have hkept : ∀ f, (∀ i ∈ f, losesTrack setup.provider s i = false) →
      Closed setup s {} (g.1, f) :=
    fun f hf => ⟨.inl rfl, .inl (.of_subset (fun _ ho => hobj ▸ ho) hf)⟩
  have hfailed : ∀ (c : ExecutionCall) (a : Answer ExecutionFault) (v : BackupSite), v = g.1 →
      c.ordinary = true → Closed setup s {} (v, some ⟨g.1, c, a⟩) := by
    rintro c a v rfl hc
    exact hkept _ (quiet_some (losesTrack_ordinary hc))
  rw [execute, meets_bind]
  refine meets_single (fun a v he => ?_) (fun e v he => ?_) fun _ e a v hv => ?_
  · obtain ⟨-, rfl⟩ := Prod.mk.inj he
    rw [meets_bind, resolveBackup, meets_bind, resolveRequest, meets_bind]
    refine meets_single (fun row v he => ?_) (fun e v he => ?_) fun _ e a v hv => ?_
    · obtain ⟨hrow, rfl⟩ := Prod.mk.inj he
      obtain rfl := Except.ok.inj hrow
      split
      · exact hkept _ hquiet
      · exact hkept _ hquiet
    · cases (Prod.mk.inj he).1
    · exact hfailed _ a v (hv.elim And.right And.right) rfl
  · cases (Prod.mk.inj he).1
  · exact hfailed _ a v (hv.elim And.right And.right) rfl

/-! ## A queued record names nothing -/

/-- A record is queued only before an execution has moved it, and then it names no object. -/
def Fresh (u : BackupSite) (g : ℕ → Phase) : Prop :=
  u.record.status = .queued → u.record.Blank ∧ ∀ who, g who = .idle

variable {u : BackupSite} {g : ℕ → Phase}

lemma not_mem_backupTransitions_queued (status : BackupStatus) :
    BackupStatus.queued ∉ backupTransitions status := by
  cases status <;> decide

lemma uploadObject_record (setup : ExecutionSetup) (who : ℕ) (u : BackupSite) :
    (uploadObject setup who u).2.record = u.record := by
  unfold uploadObject
  split <;> rfl

lemma Fresh.same {v : BackupSite} (h : Fresh u g) (hrec : v.record = u.record) : Fresh v g := by
  intro hqueued
  rw [hrec] at hqueued ⊢
  exact h hqueued

/-- What an execution that has moved the record does concerns no queued record. -/
lemma Fresh.vacuous {v : BackupSite} (h : Fresh u g) (hmoved : g who ≠ .idle)
    (hstatus : v.record.status = u.record.status) (g' : ℕ → Phase) : Fresh v g' := by
  intro hqueued
  exact absurd ((h (hstatus.symm.trans hqueued)).2 who) hmoved

lemma Fresh.kept {φ : Phase} (h : Fresh u g) (hφ : φ = g who) :
    Fresh u (Function.update g who φ) := by
  rw [hφ, Function.update_eq_self]
  exact h

/-- Every admitted call of an execution keeps a queued record blank. -/
lemma fresh_exec (setup : ExecutionSetup) {c : ExecutionCall} (h : Fresh u g)
    (hadm : (g who).admits c) :
    Fresh (c.exec setup who u).2 g ∧
      Fresh (c.exec setup who u).2
        (Function.update g who ((g who).after c (c.exec setup who u).1.isOk)) := by
  by_cases hc : c.special = false
  · have hsame := h.same (exec_of_not_special setup who u hc).1
    exact ⟨hsame, hsame.kept (Phase.after_of_not_special hc)⟩
  cases c
  case transitionBackup target code summary =>
    simp only [ExecutionCall.exec]
    rcases transitionBackup_cases who u target code summary with he | ⟨hmem, he⟩
    · rw [he]
      exact ⟨h, h.kept Phase.after_error⟩
    · rw [he]
      have hleft : (u.changed who (u.record.moved target code summary)).record.status ≠ .queued := by
        intro hqueued
        obtain rfl := (u.record.moved_status target code summary).symm.trans hqueued
        exact not_mem_backupTransitions_queued _ hmem
      exact ⟨fun hqueued => absurd hqueued hleft, fun hqueued => absurd hqueued hleft⟩
  case setBackupIntegrity target =>
    simp only [ExecutionCall.exec]
    rcases setBackupIntegrity_cases who u target with he | ⟨-, he⟩
    · rw [he]
      exact ⟨h, h.kept rfl⟩
    · rw [he]
      have hsame : Fresh (u.changed who { u.record with integrityStatus := target }) g := h
      exact ⟨hsame, hsame.kept rfl⟩
  case updateStored r =>
    have hmoved : g who ≠ .idle := by
      rcases hadm with hg | hg <;> rw [hg] <;> rintro ⟨⟩
    have hstatus : ((ExecutionCall.updateStored r).exec setup who u).2.record.status =
        u.record.status := by
      simp only [ExecutionCall.exec]
      rcases updateStored_cases who u r with he | ⟨-, he⟩
      · rw [he]
      · rw [he]
        rfl
    exact ⟨h.vacuous hmoved hstatus _, h.vacuous hmoved hstatus _⟩
  case register occasion r => exact ⟨h.vacuous hadm rfl _, h.vacuous hadm rfl _⟩
  case validateStored r =>
    have hmoved : g who ≠ .idle := by
      have hg : g who = .stored r := hadm
      rw [hg]
      rintro ⟨⟩
    have hstatus : ((ExecutionCall.validateStored r).exec setup who u).2.record.status =
        u.record.status := by
      simp only [ExecutionCall.exec]
      split <;> rfl
    exact ⟨h.vacuous hmoved hstatus _, h.vacuous hmoved hstatus _⟩
  case linkObject n => exact ⟨h, h.kept rfl⟩
  case removeOwned n => exact ⟨h, h.kept rfl⟩
  case putObject =>
    have hsame := h.same (uploadObject_record setup who u)
    exact ⟨hsame, hsame.kept rfl⟩
  case completeUpload =>
    have hsame := h.same (uploadObject_record setup who u)
    exact ⟨hsame, hsame.kept rfl⟩
  all_goals exact absurd rfl hc

lemma fresh_beside (h : Fresh u g) (x : Beside) : Fresh (x.apply u) g := by
  refine h.same ?_
  cases x
  case tick d => rfl
  all_goals
    simp only [Beside.apply]
    repeat' split
    all_goals rfl

/-- However executions of a backup are interleaved and whatever raises, a record that is still
queued names no object. -/
theorem queued_record_blank (setup : ExecutionSetup) (s : BackupSite) (hblank : s.record.Blank)
    (moves : List ExecutionMove) :
    let t := (Trace.run (executionStep setup) { shared := s } moves).shared
    t.record.status = .queued → t.record.Blank := by
  intro t
  have hstart : System.Kept ownership .idle Fresh
      ({ shared := s } : ExecutionPool) :=
    ⟨fun _ => .idle, fun _ => ⟨hblank, fun _ => rfl⟩, fun _ => rfl⟩
  have hstep : ∀ (w : ExecutionPool) (m : ExecutionMove), System.Kept ownership .idle Fresh w →
      System.Kept ownership .idle Fresh (executionStep setup w m) := by
    intro w m h
    refine System.follows_step (S := executionSystem setup) (follows_code setup.provider) ?_ ?_ h
    · intro g who c a _ hJ hadm
      cases a with
      | served => exact ⟨_, rfl, (fresh_exec setup hJ hadm).2⟩
      | raised e => exact ⟨_, rfl, hJ.kept Phase.after_error⟩
      | lost e => exact ⟨_, rfl, Fresh.kept (fresh_exec setup hJ hadm).1 Phase.after_error⟩
    · exact fun g x _ hJ => fresh_beside hJ x
  obtain ⟨g, hfresh, -⟩ := Trace.invariant hstep hstart moves
  exact fun hqueued => (hfresh hqueued).1

/-! ## The result -/

/-- In a run in which at most one step fails, the record names every object that the run leaves
in durable storage, exactly when no step failed while only the provider knew of an object. -/
theorem stored_objects_tracked (setup : ExecutionSetup) (who : ℕ) (lease : Option (ℕ × ℕ))
    (s : BackupSite) (hblank : s.record.status = .queued → s.record.Blank)
    {r : Except ExecutionFault Unit × Locals} {t : BackupSite}
    {f : Option (Incident BackupSite ExecutionCall ExecutionFault)}
    (hr : Prog.Ends ((executionMachine setup).once who) ((execute setup.provider lease).prog {})
      (s, none) r (t, f)) :
    (∀ o ∈ t.objects, o ∉ s.objects → t.record.Names o) ↔
      ∀ i ∈ f, losesTrack setup.provider s i = false := by
  have hnone : ∀ i ∈ (none : Option (Incident BackupSite ExecutionCall ExecutionFault)),
      losesTrack setup.provider s i = false := fun i hi => absurd hi (Option.not_mem_none i)
  have hmeets : Meets (single setup who) (execute setup.provider lease) (fun _ => Closed setup s)
      (fun _ => Closed setup s) {} (s, none) := by
    by_cases hqueued : s.record.status = .queued
    · exact meets_execute lease
        { stored := rfl
          persisted := rfl
          bound := ⟨rfl, rfl, rfl⟩
          blank := hblank hqueued
          objects := rfl
          quiet := hnone }
    · exact meets_execute_declined lease hqueued rfl hnone
  have hclosed : Closed setup s r.2 (t, f) := by
    have hend := hr.of_follows hmeets
    revert hend
    cases r.1 <;> exact id
  rcases hclosed.2 with ⟨hnamed, hquiet⟩ | ⟨hpub, hempty, i, hi, hlose⟩
  · exact ⟨fun _ => hquiet, fun _ => hnamed⟩
  · obtain ⟨o, ho, hnew⟩ := published_iff.mp hpub
    constructor
    · intro hnamed
      have hkey := (hnamed o ho hnew).1
      rw [hempty.1] at hkey
      exact nomatch hkey
    · intro hquiet
      rw [hquiet i hi] at hlose
      exact nomatch hlose

/-! ## Runs -/

/-- Backups in an S3-compatible store, each artifact uploaded as one object. -/
def s3Setup : ExecutionSetup where
  provider := .s3
    { bucket := "nexapos-backups"
      objectKey := "backups/7d/3f.nxbackup"
      multipartThresholdBytes := 1000
      multipartPartBytes := 500
      versioned := true
      announcesVersion := true
      bucket_valid := by decide
      key_valid := by decide }
  artifact n := ⟨10 + n, "3f"⟩

/-- A run of an execution on the fresh site whose call number `n` is answered as given, before
`rest` more calls. -/
def runFailingAt (n : ℕ) (a : Answer ExecutionFault) (rest : ℕ) :
    Option ((Except ExecutionFault Unit × Locals) × Progress) :=
  ((execute s3Setup.provider none).prog {}).playOnce (executionMachine s3Setup) 0 ({}, none)
    (List.replicate n .served ++ a :: List.replicate rest .served)

/-- The hook after the provider has returned raises. -/
theorem stored_objects_tracked_hook :
    (runFailingAt 55 (.raised .error) 8).isSome = true ∧
      ∀ x ∈ runFailingAt 55 (.raised .error) 8, x.2.1.objects ≠ [] ∧
        ∀ o ∈ x.2.1.objects, x.2.1.record.Names o := by
  refine ⟨by decide +kernel, fun x hx => ⟨?_, fun o ho => ?_⟩⟩
  · have hsome : ∀ x ∈ runFailingAt 55 (.raised .error) 8, x.2.1.objects ≠ [] := by
      decide +kernel
    exact hsome x hx
  · have hquiet : ∀ x ∈ runFailingAt 55 (.raised .error) 8,
        ∀ i ∈ x.2.2, losesTrack s3Setup.provider {} i = false := by
      decide +kernel
    have htracked := stored_objects_tracked s3Setup 0 none {} (fun _ => ⟨rfl, rfl, rfl⟩)
      (Prog.ends_of_playOnce hx)
    exact htracked.mpr (hquiet x hx) o ho (List.not_mem_nil)

/-- The verification after the upload raises: the object stays, and the `FAILED` record does not
name it. -/
theorem uploaded_object_untracked :
    ∃ r t f, Prog.Ends ((executionMachine s3Setup).once 0) ((execute s3Setup.provider none).prog {})
        ({}, none) r (t, f) ∧
      t.record.status = .failed ∧ t.record.Blank ∧ ∃ o ∈ t.objects, ¬ t.record.Names o := by
  have hrun : ∃ x ∈ runFailingAt 51 (.raised .error) 7, x.2.1.record.status = .failed ∧
      x.2.1.record.Blank ∧ ∃ o ∈ x.2.1.objects, ¬ x.2.1.record.Names o := by
    decide +kernel
  obtain ⟨⟨r, t, f⟩, hx, hleft⟩ := hrun
  exact ⟨r, t, f, Prog.ends_of_playOnce hx, hleft⟩

end NexaPos.Backups.BackupExecution.Tracking
