import NexaPos.Properties.RestoreOnce

/-!
# What the safety backup of a restore covers

A restore mutates only with a safety backup that succeeded and was verified.  The backup holds
every row that was there at its snapshot and belongs to one of its components; what is saved
afterwards it cannot hold, and a retry takes the backup of an earlier attempt as it is.  So the
rows a mutation deletes are all in the backup when their components were backed up and none of
them was saved since.
-/

namespace NexaPos.Backups

/-- The row belongs to one of the components. -/
def inComponents (keys : List ComponentKey) (r : LogicalRecord) : Bool :=
  keys.any fun key => (modelsOf key).contains r.model

/-- The export of components holds every row of theirs. -/
lemma mem_exportComponents {rows : Rows} {keys : List ComponentKey} {r : LogicalRecord}
    (hr : r ∈ rows) (hkeys : inComponents keys r = true) : r ∈ exportComponents rows keys := by
  simp only [inComponents, List.any_eq_true, List.contains_iff_mem] at hkeys
  obtain ⟨key, hkey, hmodel⟩ := hkeys
  refine List.mem_flatMap.mpr ⟨key, hkey, List.mem_flatMap.mpr ⟨r.model, hmodel, ?_⟩⟩
  rw [exportModel, List.mem_insertionSort, ofModel, List.mem_filter]
  exact ⟨hr, beq_self_eq_true r.model⟩

/-- The keys of the rows saved after the first `n`. -/
def Site.savedSince (s : Site) (n : ℕ) : List (ModelLabel × ℕ) :=
  s.saved.take (s.saved.length - n)

/-- What is saved now is saved since. -/
lemma savedSince_append {s t : Site} {new : List (ModelLabel × ℕ)} {n : ℕ}
    (ht : t.saved = new ++ s.saved) (hn : n ≤ s.saved.length) :
    t.savedSince n = new ++ s.savedSince n := by
  have hlen : (new ++ s.saved).length - n = new.length + (s.saved.length - n) := by
    rw [List.length_append]
    omega
  rw [Site.savedSince, ht, hlen, List.take_length_add_append, Site.savedSince]

/-! ## The invariant -/

/-- After its snapshot a safety backup holds every row of its components that was not saved
since. -/
def Holds (s : Site) (b : SafetyBackup) : Prop :=
  b.status ≠ .queued → b.takenAt ≤ s.saved.length ∧
    ∀ r ∈ s.rows, inComponents b.componentKeys r = true →
      r ∈ b.contents ∨ r.key ∈ s.savedSince b.takenAt

/-- A safety backup that a restore may rely on. -/
def SafetyBackup.Sound (b : SafetyBackup) : Prop :=
  b.isProtected = true ∧ b.status = .succeeded ∧ b.integrityStatus = .verified

/-- The rows that a mutation deleted are in its safety backup. -/
def Mutation.Covered (m : Mutation) : Prop :=
  ∃ b, m.safety = some b ∧ b.Sound ∧ ∀ r ∈ m.deleted, r ∈ b.contents

/-- The safety backups of a restore, and what it relies on. -/
structure SafetyKept (s : Site) : Prop where
  holds : ∀ b ∈ s.safeties, Holds s b
  sound : ∀ safety, s.restore.safetyBackup = some safety →
    ∃ b, s.safeties[safety]? = some b ∧ b.Sound
  named : s.restore.status = .validating ∨ s.restore.status = .restoring →
    s.restore.safetyBackup.isSome = true
  covered : ∀ m ∈ s.mutations, m.Covered

variable {setup : RestoreSetup} {s t : Site}

/-- Rows that go, and rows that are saved, leave a safety backup what it holds. -/
lemma Holds.of_saved {b : SafetyBackup} {new : List (ModelLabel × ℕ)} (h : Holds s b)
    (hsaved : t.saved = new ++ s.saved) (hrows : ∀ r ∈ t.rows, r ∈ s.rows ∨ r.key ∈ new) :
    Holds t b := by
  intro hstatus
  obtain ⟨hle, hrow⟩ := h hstatus
  refine ⟨hle.trans (by simp [hsaved]), fun r hr hkeys => ?_⟩
  rw [savedSince_append hsaved hle, List.mem_append]
  rcases hrows r hr with hold | hnew
  · exact (hrow r hold hkeys).imp_right .inr
  · exact .inr (.inl hnew)

/-- What changes neither the restore nor its safety backups keeps the invariant when new rows are
recorded as saved. -/
lemma SafetyKept.of_saved {new : List (ModelLabel × ℕ)} (h : SafetyKept s)
    (hrestore : t.restore = s.restore) (hsafeties : t.safeties = s.safeties)
    (hm : t.mutations = s.mutations) (hsaved : t.saved = new ++ s.saved)
    (hrows : ∀ r ∈ t.rows, r ∈ s.rows ∨ r.key ∈ new) : SafetyKept t where
  holds b hb := (h.holds b (hsafeties ▸ hb)).of_saved hsaved hrows
  sound := by
    rw [hrestore, hsafeties]
    exact h.sound
  named := hrestore ▸ h.named
  covered := hm ▸ h.covered

/-- The row of the restore changes. -/
lemma SafetyKept.of_restore (h : SafetyKept s) (row : RestoreOperation)
    (hsafety : row.safetyBackup = s.restore.safetyBackup)
    (hnamed : row.status = .validating ∨ row.status = .restoring →
      s.restore.safetyBackup.isSome = true) :
    SafetyKept { s with restore := row } where
  holds := h.holds
  sound safety hs := h.sound safety (hsafety ▸ hs)
  named hs := by
    show row.safetyBackup.isSome = true
    rw [hsafety]
    exact hnamed hs
  covered := h.covered

/-- A safety backup that is not finished yet changes. -/
lemma SafetyKept.of_safety (h : SafetyKept s) {safety : ℕ} {b : SafetyBackup}
    (hb : s.safeties[safety]? = some b) (hopen : b.status ≠ .succeeded) (b' : SafetyBackup)
    (hb' : Holds s b') : SafetyKept { s with safeties := s.safeties.set safety b' } where
  holds x hx := by
    rcases List.mem_or_eq_of_mem_set hx with hx | rfl
    · exact h.holds x hx
    · exact hb'
  sound n hn := by
    obtain ⟨x, hx, hsound⟩ := h.sound n hn
    refine ⟨x, ?_, hsound⟩
    have hne : safety ≠ n := by
      rintro rfl
      obtain rfl : b = x := Option.some.inj (hb.symm.trans hx)
      exact hopen hsound.2.1
    exact (List.getElem?_set_ne hne).trans hx
  named := h.named
  covered := h.covered

/-! ## Every move -/

/-- The mutation would delete only rows that the safety backup can hold: rows of its components,
none of them saved since its snapshot. -/
def Site.safetyCurrent (setup : RestoreSetup) (s : Site) : Bool :=
  s.safety.all fun b => (deletedRows setup.specs s.rows setup.source).all fun r =>
    inComponents b.componentKeys r && !(s.savedSince b.takenAt).contains r.key

lemma deletedRows_subset {specs : Specs} {rows : Rows} {p : PreparedLogicalRestore}
    {r : LogicalRecord} (h : r ∈ deletedRows specs rows p) : r ∈ rows := by
  unfold deletedRows at h
  split at h
  · exact (List.mem_filter.mp h).1
  · exact absurd h List.not_mem_nil

/-- A mutation that commits on a current safety backup is covered. -/
lemma SafetyKept.committed (h : SafetyKept s) (lock : ℕ) (rows : Rows)
    (hstatus : s.restore.status = .restoring) (hcurrent : s.safetyCurrent setup = true) :
    SafetyKept (s.committed setup lock rows) where
  holds b hb := by
    refine (h.holds b hb).of_saved rfl fun r hr => ?_
    by_cases hold : r ∈ s.rows
    · exact .inl hold
    · refine .inr (List.mem_map_of_mem (List.mem_filter.mpr ⟨hr, ?_⟩))
      simpa using hold
  sound := h.sound
  named hs := by
    have hstatus : (s.committed setup lock rows).restore.status = .verifying := rfl
    rw [hstatus] at hs
    exact absurd hs (by decide)
  covered := by
    refine List.forall_mem_cons.mpr ⟨?_, h.covered⟩
    obtain ⟨safety, hsafety⟩ := Option.isSome_iff_exists.mp (h.named (.inr hstatus))
    obtain ⟨b, hb, hsound⟩ := h.sound safety hsafety
    have hname : s.safety = some b := by rw [Site.safety, hsafety, Option.bind_some, hb]
    refine ⟨b, hname, hsound, fun r hr => ?_⟩
    simp only [Site.safetyCurrent, hname, Option.all_some, List.all_eq_true, Bool.and_eq_true,
      Bool.not_eq_true'] at hcurrent
    obtain ⟨hkeys, hfresh⟩ := hcurrent r hr
    have hqueued : b.status ≠ .queued := by
      rw [hsound.2.1]
      decide
    have hheld := (h.holds b (List.mem_of_getElem? hb) hqueued).2 r (deletedRows_subset hr) hkeys
    exact hheld.resolve_right (by simpa using hfresh)

/-- The call commits a mutation while the safety backup is not current. -/
def RestoreCall.commitsUncovered (setup : RestoreSetup) (s : Site) : RestoreCall → Bool
  | .commitMutation _ => !s.safetyCurrent setup
  | _ => false

/-- A call keeps the invariant, unless it commits on a safety backup that is not current. -/
lemma SafetyKept.move {c : RestoreCall} (h : SafetyKept s) (hmove : SiteMove setup s c t)
    (hcurrent : c.commitsUncovered setup s = false) : SafetyKept t := by
  cases hmove with
  | unchanged => exact h
  | moved target code hc hmem hsafe =>
    refine h.of_restore _ rfl fun hs => ?_
    have hs : target = .validating ∨ target = .restoring := hs
    rcases hs with rfl | rfl
    · have hstatus : s.restore.status = .safetyBackup := by
        revert hmem
        cases s.restore.status <;> decide
      have hsome := hsafe hstatus rfl
      rw [Site.safety] at hsome
      cases hb : s.restore.safetyBackup with
      | some safety => rfl
      | none => exact absurd (hb ▸ hsome) (by simp)
    · refine h.named (.inl ?_)
      revert hmem
      cases s.restore.status <;> decide
  | authorized hs =>
    exact h.of_restore _ rfl fun hs => absurd hs (by simp [RestoreOperation.authorized])
  | exhausted hs =>
    refine h.of_restore _ rfl fun hst => ?_
    exact h.named hst
  | recorded safety b hb hverified =>
    refine ⟨h.holds, ?_, fun _ => rfl, h.covered⟩
    rintro _ ⟨⟩
    exact ⟨b, hb, hverified⟩
  | requested =>
    refine ⟨fun b hb => ?_, fun safety hs => ?_, h.named, h.covered⟩
    · rcases List.mem_append.mp hb with hb | hb
      · exact h.holds b hb
      · rw [List.mem_singleton.mp hb]
        exact fun hq => absurd rfl hq
    · obtain ⟨b, hb, hsound⟩ := h.sound safety hs
      exact ⟨b, List.getElem?_append_left (List.getElem?_eq_some_iff.mp hb).1 ▸ hb, hsound⟩
  | taken safety b keys hb hstatus =>
    refine h.of_safety hb (by simp [hstatus]) _ fun _ => ⟨le_refl _, fun r hr hkeys => ?_⟩
    exact .inl (mem_exportComponents hr hkeys)
  | finished safety b hb hstatus =>
    refine h.of_safety hb (by simp [hstatus]) _ fun _ => ?_
    exact h.holds b (List.mem_of_getElem? hb) (by simp [hstatus])
  | leased locks _ => exact ⟨h.holds, h.sound, h.named, h.covered⟩
  | published item _ _ => exact ⟨h.holds, h.sound, h.named, h.covered⟩
  | unlinked target f _ _ => exact ⟨h.holds, h.sound, h.named, h.covered⟩
  | committed lock rows hc hstatus _ =>
    subst hc
    refine h.committed lock rows hstatus ?_
    simpa [RestoreCall.commitsUncovered] using hcurrent

/-- What happens beside the workers keeps it: a row that is saved is recorded. -/
lemma SafetyKept.outside (h : SafetyKept s) (x : Outside) : SafetyKept (x.apply s) := by
  cases x
  case saveRow r =>
    have hsaved : ((Outside.saveRow r).apply s).saved = [r.key] ++ s.saved := rfl
    refine h.of_saved rfl rfl rfl hsaved fun y hy => ?_
    simp only [Outside.apply, storeRow, List.mem_append, List.mem_filter,
      List.mem_singleton] at hy
    rcases hy with ⟨hy, -⟩ | rfl
    · exact .inl hy
    · exact .inr List.mem_cons_self
  case removeRow key =>
    have hsaved : ((Outside.removeRow key).apply s).saved = [] ++ s.saved := rfl
    exact h.of_saved rfl rfl rfl hsaved fun y hy => .inl (List.mem_filter.mp hy).1
  all_goals
    simp only [Outside.apply]
    repeat' split
    all_goals exact ⟨h.holds, h.sound, h.named, h.covered⟩

/-- The move commits no mutation on a safety backup that is not current. -/
def CommitsCovered (setup : RestoreSetup) (w : RestorePool) (m : RestoreMove) : Prop :=
  ∀ x ∈ System.calls w m, x.2.2 = .served → x.2.1.commitsUncovered setup w.shared = false

instance (setup : RestoreSetup) (w : RestorePool) (m : RestoreMove) :
    Decidable (CommitsCovered setup w m) :=
  inferInstanceAs (Decidable (∀ x ∈ System.calls w m, _))

lemma safetyKept_step {w : RestorePool} {m : RestoreMove} (hm : CommitsCovered setup w m)
    (h : SafetyKept w.shared) : SafetyKept (restoreStep setup w m).shared := by
  refine site_step (fun who c a t hcall hmove hserved h => ?_) (fun x _ h => h.outside x) h
  by_cases ha : a = .served
  · exact h.move hmove (hm _ hcall ha)
  · cases c
    case commitMutation lock =>
      rw [hserved ha rfl]
      exact h
    all_goals exact h.move hmove rfl

/-- However the deliveries and retries of a restore, the work of the tenant and changes of its
products are interleaved: when each mutation commits while the rows it deletes belong to the
components of the safety backup and none of them was saved since its snapshot, every deleted row
is in the verified safety backup of the restore, as it was. -/
theorem safety_backup_covers (setup : RestoreSetup) (s : Site) (hrestore : s.restore = {})
    (hsafeties : s.safeties = []) (hm : s.mutations = []) (moves : List RestoreMove)
    (hmoves : Trace.All (restoreStep setup) (CommitsCovered setup) { shared := s } moves) :
    ∀ m ∈ (Trace.run (restoreStep setup) { shared := s } moves).shared.mutations,
      ∃ b, m.safety = some b ∧ b.isProtected = true ∧ b.status = .succeeded ∧
        b.integrityStatus = .verified ∧ ∀ r ∈ m.deleted, r ∈ b.contents := by
  have hstart : SafetyKept s := by
    refine ⟨?_, ?_, ?_, ?_⟩
    · simp [hsafeties]
    · simp [hrestore]
    · simp [hrestore]
    · simp [hm]
  have hkept : SafetyKept (Trace.run (restoreStep setup) { shared := s } moves).shared :=
    Trace.invariant_of_all (I := fun w : RestorePool => SafetyKept w.shared)
      (fun _ _ hm h => safetyKept_step hm h) hstart hmoves
  intro m hmem
  obtain ⟨b, hb, ⟨hprotected, hstatus, hverified⟩, hrows⟩ := hkept.covered m hmem
  exact ⟨b, hb, hprotected, hstatus, hverified, hrows⟩

/-! ## Runs -/

/-- A product of the tenant. -/
def soldProduct : LogicalRecord := { model := .product, publicId := 1, fields := [] }

/-- A product is saved before the restore, and the restore deletes it. -/
def restoreAfterSale : List RestoreMove :=
  [.outside (.saveRow soldProduct), .start 0 (.delivery false)] ++ served 0 70

theorem safety_backup_covers_sale :
    (restoredSite restoreAfterSale).mutations.map (·.deleted) = [[soldProduct]] ∧
      ∀ m ∈ (restoredSite restoreAfterSale).mutations,
        ∃ b, m.safety = some b ∧ b.isProtected = true ∧ b.status = .succeeded ∧
          b.integrityStatus = .verified ∧ ∀ r ∈ m.deleted, r ∈ b.contents := by
  rw [restoredSite]
  refine ⟨by decide +kernel, ?_⟩
  exact safety_backup_covers emptyRestoreSetup {} rfl rfl rfl restoreAfterSale (by decide +kernel)

/-- A first delivery takes the safety backup and fails before the mutation; a product is saved,
and the next delivery goes on with the safety backup it finds. -/
def restoreAfterRetry : List RestoreMove :=
  [.start 0 (.delivery false)] ++ served 0 41 ++ [.turn 0 (.raised .engine)] ++ served 0 20 ++
    [.outside (.saveRow soldProduct), .start 1 (.delivery false)] ++ served 1 70

theorem safety_backup_misses_row :
    (restoredSite restoreAfterRetry).mutations.map
      (fun m => (m.deleted, m.safety.map (·.contents))) = [([soldProduct], some [])] := by
  decide +kernel

end NexaPos.Backups
