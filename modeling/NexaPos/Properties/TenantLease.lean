import NexaPos.Backups.CoordinatorFrame
import NexaPos.Properties.RestoreOnce

/-!
# Leases of the tenant

At most one lease of a business stands, and a lease that is over stays over: that holds whatever
the workers do.  A restore works under the lease it opened, and gives back no other.  It looks at
that lease for the last time before it turns to `RESTORING`; when the mutation commits while the
time of the lease is not over, the lease still stands.
-/

namespace NexaPos.Backups

open Routine

/-! ## The table of leases -/

/-- What any call does to the leases, the clock and the leases of others. -/
lemma SiteMove.leases {setup : RestoreSetup} {s t : Site} {c : RestoreCall}
    (h : SiteMove setup s c t) :
    LeaseMove (min c.read s.now) s.locks c.token c.renewal t.locks ∧ t.now = s.now ∧
      t.others = s.others := by
  cases h with
  | leased locks h => exact ⟨h, rfl, rfl⟩
  | unchanged => exact ⟨.unchanged _ _, rfl, rfl⟩
  | moved => exact ⟨.unchanged _ _, rfl, rfl⟩
  | authorized => exact ⟨.unchanged _ _, rfl, rfl⟩
  | exhausted => exact ⟨.unchanged _ _, rfl, rfl⟩
  | recorded => exact ⟨.unchanged _ _, rfl, rfl⟩
  | requested => exact ⟨.unchanged _ _, rfl, rfl⟩
  | taken => exact ⟨.unchanged _ _, rfl, rfl⟩
  | finished => exact ⟨.unchanged _ _, rfl, rfl⟩
  | published => exact ⟨.unchanged _ _, rfl, rfl⟩
  | unlinked => exact ⟨.unchanged _ _, rfl, rfl⟩
  | committed => exact ⟨.unchanged _ _, rfl, rfl⟩

/-- A call commits no mutation, or one under the lease it names. -/
lemma SiteMove.mutations {setup : RestoreSetup} {s t : Site} {c : RestoreCall}
    (h : SiteMove setup s c t) :
    t.mutations = s.mutations ∨ ∃ lock m, c = .commitMutation lock ∧
      m.leaseStood = decide (Stands s.locks lock) ∧ t.mutations = m :: s.mutations := by
  cases h with
  | committed lock rows hc _ _ => exact .inr ⟨lock, _, hc, rfl, rfl⟩
  | unchanged => exact .inl rfl
  | moved => exact .inl rfl
  | authorized => exact .inl rfl
  | exhausted => exact .inl rfl
  | recorded => exact .inl rfl
  | requested => exact .inl rfl
  | taken => exact .inl rfl
  | finished => exact .inl rfl
  | leased => exact .inl rfl
  | published => exact .inl rfl
  | unlinked => exact .inl rfl

/-- The lease that another operation renews, and the time it was given. -/
def Outside.renews (s : Site) : Outside → Option (ℕ × ℕ)
  | .heartbeat n _ read => s.others[n]?.map (·, read)
  | _ => none

/-- What happens beside the workers moves the clock on, or does one thing to the leases: it opens
one, renews one, or gives back one of its own. -/
lemma leaseMove_outside (s : Site) (x : Outside) :
    (s.now ≤ (x.apply s).now ∧ (x.apply s).locks = s.locks ∧ (x.apply s).others = s.others) ∨
    ∃ read token renewal, LeaseMove (min read s.now) s.locks token renewal (x.apply s).locks ∧
      (∀ lock, renewal = some lock → x.renews s = some (lock, read)) ∧
      (x.apply s).now = s.now ∧ (∀ lock, token = some lock → lock ∈ s.others) ∧
      ((x.apply s).others = s.others ∨ (x.apply s).others = s.locks.length :: s.others ∧
        s.locks.length < (x.apply s).locks.length) := by
  cases x
  case acquire business kind operation leaseSeconds read =>
    simp only [Outside.apply]
    split
    case h_1 lock locks h =>
      obtain ⟨hmove, rfl, l, hl, -, -⟩ := leaseMove_acquire h
      exact .inr ⟨read, none, none, hmove, by simp, rfl, by simp,
        .inr ⟨rfl, (List.getElem?_eq_some_iff.mp hl).1⟩⟩
    case h_2 => exact .inl ⟨le_refl _, rfl, rfl⟩
  case heartbeat n leaseSeconds read =>
    simp only [Outside.apply, Outside.renews]
    cases s.others[n]? with
    | none => exact .inl ⟨le_refl _, rfl, rfl⟩
    | some lock =>
      dsimp only
      split
      case h_1 renewed locks h =>
        refine .inr ⟨read, none, some lock, leaseMove_heartbeat h, ?_, rfl, by simp, .inl rfl⟩
        rintro _ ⟨⟩
        rfl
      case h_2 => exact .inl ⟨le_refl _, rfl, rfl⟩
  case release n =>
    simp only [Outside.apply]
    split
    case h_1 lock hlock =>
      have hmove := leaseMove_release s.locks lock lock s.now
      refine .inr ⟨s.now, some lock, none, ?_, by simp, rfl, ?_, .inl rfl⟩
      · rwa [min_self]
      · rintro _ ⟨⟩
        exact List.mem_of_getElem? hlock
    case h_2 => exact .inl ⟨le_refl _, rfl, rfl⟩
  case tick d => exact .inl ⟨Nat.le_add_right s.now d, rfl, rfl⟩
  all_goals exact .inl ⟨le_refl _, rfl, rfl⟩

variable {setup : RestoreSetup} {w : RestorePool} {m : RestoreMove}

/-- The lease that a move renews, and the time that was read for it. -/
def renews (w : RestorePool) : RestoreMove → Option (ℕ × ℕ)
  | .outside x => x.renews w.shared
  | m => (System.calls w m).bind fun x =>
      if x.2.2 = .served then x.2.1.renewal.map (·, x.2.1.read) else none

/-- The move renews no lease whose time has run out since the clock was read for it. -/
def RenewsInTime (w : RestorePool) (m : RestoreMove) : Prop :=
  ∀ x ∈ renews w m, ¬ RenewsLate w.shared.locks x.1 (min x.2 w.shared.now) w.shared.now

instance (w : RestorePool) (m : RestoreMove) : Decidable (RenewsInTime w m) :=
  inferInstanceAs (Decidable (∀ x ∈ renews w m, ¬ RenewsLate _ _ _ _))

/-- What every call on the table and the clock keep, every move keeps. -/
lemma leases_step {I : Locks → ℕ → Prop}
    (hmove : ∀ {locks now read token renewal locks'}, I locks now →
      LeaseMove (min read now) locks token renewal locks' →
      (∀ lock, renewal = some lock → locks' = locks ∨
        locks = w.shared.locks ∧ now = w.shared.now ∧ renews w m = some (lock, read)) →
      I locks' now)
    (htick : ∀ {locks now now'}, I locks now → now ≤ now' → I locks now')
    (h : I w.shared.locks w.shared.now) :
    I (restoreStep setup w m).shared.locks (restoreStep setup w m).shared.now := by
  refine site_step (I := fun s => I s.locks s.now) ?_ ?_ h
  · intro who c a t hcall hm hlost h
    obtain ⟨hm, hnow, -⟩ := hm.leases
    rw [hnow]
    refine hmove h hm fun lock hrenewal => ?_
    by_cases hserved : a = .served
    · refine .inr ⟨rfl, rfl, ?_⟩
      cases m with
      | outside x => cases hcall
      | start who' p => cases hcall
      | turn who' a' =>
        show (System.calls w _).bind _ = _
        rw [hcall, Option.bind_some, if_pos hserved, hrenewal]
        rfl
    · -- only a call that is served renews a lease
      have htorn : c.torn = false := by
        cases c <;> first | rfl | cases hrenewal
      exact .inl (by rw [hlost hserved htorn])
  · intro x hx h
    rcases leaseMove_outside w.shared x with
      ⟨hle, hlocks, -⟩ | ⟨read, token, renewal, hm, hrenews, hnow, -, -⟩
    · rw [hlocks]
      exact htick h hle
    · rw [hnow]
      refine hmove h hm fun lock hrenewal => .inr ⟨rfl, rfl, ?_⟩
      subst hx
      exact hrenews lock hrenewal

/-- From any moment on, at most one lease of a business stands. -/
lemma exclusive_run {s : Site} (h : Exclusive s.locks) (moves : List RestoreMove) :
    Exclusive (Trace.run (restoreStep setup) { shared := s } moves).shared.locks :=
  Trace.invariant (I := fun w : RestorePool => Exclusive w.shared.locks)
    (fun _ _ h => leases_step (I := fun locks _ => Exclusive locks) (fun h hm _ => h.move hm)
      (fun h _ => h) h) h moves

/-- A lease that has ended stays ended. -/
lemma ended_run {lock : ℕ} (h : ∃ l, w.shared.locks[lock]? = some l ∧ l.active = false)
    (moves : List RestoreMove) :
    ∃ l, (Trace.run (restoreStep setup) w moves).shared.locks[lock]? = some l ∧
      l.active = false :=
  Trace.invariant
    (I := fun w : RestorePool => ∃ l, w.shared.locks[lock]? = some l ∧ l.active = false)
    (fun _ _ h => leases_step
      (I := fun locks _ => ∃ l : TenantOperationLock, locks[lock]? = some l ∧ l.active = false)
      (fun h hm _ => ended_move h hm) (fun h _ => h) h) h moves

/-- A lease that is over stays over, when no renewal is late. -/
lemma lapsed_run {lock : ℕ} (h : Lapsed w.shared.locks lock w.shared.now)
    {moves : List RestoreMove} (hmoves : Trace.All (restoreStep setup) RenewsInTime w moves) :
    Lapsed (Trace.run (restoreStep setup) w moves).shared.locks lock
      (Trace.run (restoreStep setup) w moves).shared.now := by
  refine Trace.invariant_of_all
    (I := fun w : RestorePool => Lapsed w.shared.locks lock w.shared.now) ?_ h hmoves
  intro w m hm h
  refine leases_step (I := fun locks now => Lapsed locks lock now) ?_ Lapsed.later h
  intro locks now read token renewal locks' h hmove hrenews
  by_cases hrenewal : renewal = some lock
  · rcases hrenews lock hrenewal with rfl | ⟨rfl, rfl, hx⟩
    · exact h
    · exact h.move hmove fun _ => hm _ hx
  · exact h.move hmove fun heq => absurd heq hrenewal

/-! ## The lease a worker holds -/

/-- The calls that open, give back or rely on a lease. -/
def RestoreCall.needsLease : RestoreCall → Bool
  | .acquireLock _ => true
  | .releaseLock _ _ => true
  | .commitMutation _ => true
  | _ => false

/-- A worker holds the lease it opened until it gives it back; it commits under that lease, and
gives back no other. -/
def leaseProtocol : Protocol (Option ℕ) RestoreCall RestoreCall.Result Fault where
  may g c := (∀ lock, c = .commitMutation lock → g = some lock) ∧
    ∀ lock, c.token = some lock → g = some lock
  next g
    | .acquireLock _, .ok lock, g' => g' = some lock
    | .releaseLock _ _, _, g' => g' = none
    | _, _, g' => g' = g

lemma leaseProtocol_may {c : RestoreCall} (hc : c.needsLease = false) (g : Option ℕ) :
    leaseProtocol.may g c := by
  cases c
  case releaseLock => exact absurd hc Bool.noConfusion
  case commitMutation => exact absurd hc Bool.noConfusion
  all_goals exact ⟨nofun, nofun⟩

lemma leaseProtocol_next {c : RestoreCall} (hc : c.needsLease = false) {g g' : Option ℕ}
    {r : Except Fault c.Result} : leaseProtocol.next g c r g' ↔ g' = g := by
  cases c
  case acquireLock => exact absurd hc Bool.noConfusion
  case releaseLock => exact absurd hc Bool.noConfusion
  case commitMutation => exact absurd hc Bool.noConfusion
  all_goals exact Iff.rfl

/-- A call that has nothing to do with the lease keeps everything. -/
lemma keeps_plain {L : Type} {I : L → Option ℕ → Prop} {c : RestoreCall}
    (hc : c.needsLease = false) : Keeps leaseProtocol I (ask c) :=
  keeps_perform fun _ g hI => ⟨leaseProtocol_may hc g, fun r g' hn => by
    rwa [(leaseProtocol_next hc).mp hn]⟩

/-- An acquisition leaves the worker with the lease it opened, or with those it had. -/
lemma meets_acquireLock {L α : Type} {f : ℕ → RestoreRoutine L α} {Q : α → L → Option ℕ → Prop}
    {E : Fault → L → Option ℕ → Prop} {l : L} {g : Option ℕ} (herr : ∀ e, E e l g)
    (hok : ∀ lock, Meets leaseProtocol (f lock) Q E l (some lock)) :
    Meets leaseProtocol (acquireLock >>= f) Q E l g := by
  rw [acquireLock, meets_bind]
  refine meets_perform_bind ⟨nofun, nofun⟩ (fun e g' hn => ?_) fun now g' hn => ?_
  · obtain rfl : g' = g := hn
    exact herr e
  · obtain rfl : g' = g := hn
    rw [meets_perform]
    refine ⟨⟨nofun, nofun⟩, fun r g'' hn => ?_⟩
    cases r with
    | ok lock =>
      obtain rfl : g'' = some lock := hn
      exact hok lock
    | error e =>
      obtain rfl : g'' = g' := hn
      exact herr e

/-- A worker may give back the lease it holds. -/
lemma meets_releaseLock {L α : Type} {lock : ℕ} {f : Bool → RestoreRoutine L α}
    {Q : α → L → Option ℕ → Prop} {E : Fault → L → Option ℕ → Prop} {l : L} {g : Option ℕ}
    (hg : g = some lock) (herr : ∀ e g', E e l g')
    (hok : ∀ released g', Meets leaseProtocol (f released) Q E l g') :
    Meets leaseProtocol (releaseLock lock >>= f) Q E l g := by
  rw [releaseLock, meets_bind]
  refine meets_perform_bind ⟨nofun, nofun⟩ (fun e g' _ => herr e g') fun now g' hn => ?_
  obtain rfl : g' = g := hn
  rw [meets_perform]
  refine ⟨⟨nofun, ?_⟩, fun r g'' _ => ?_⟩
  · rintro _ ⟨⟩
    exact hg
  · cases r with
    | ok released => exact hok released g''
    | error e => exact herr e g''

/-! ### The coordinator -/

/-- What concerns the lease a worker holds and the one its variable names. -/
abbrev OnLease (J : Option ℕ → Option ℕ → Prop) (l : ExecuteLocals) (g : Option ℕ) : Prop :=
  J l.lock g

variable {J : Option ℕ → Option ℕ → Prop}

lemma respects_leases : Respects (fun _ => True) leaseProtocol (OnLease J) where
  call c hc l g hI := by
    have hplain : c.needsLease = false := by
      cases c <;> first | rfl | exact absurd hc Bool.noConfusion
    exact ⟨leaseProtocol_may hplain g, fun r g' hn => by rwa [(leaseProtocol_next hplain).mp hn]⟩
  move target _ code l g hI :=
    ⟨leaseProtocol_may rfl g, fun r g' hn => by rwa [(leaseProtocol_next rfl).mp hn]⟩
  assign l l' g hl hI := by rwa [OnLease, hl.1]

lemma keeps_publishTarget (item : StagedObject) :
    Keeps leaseProtocol (OnLease J) (publishTarget item) := by
  refine keeps_bind (keeps_plain rfl) fun created => ?_
  cases created with
  | some identity =>
    exact keeps_bind (keeps_modify fun _ _ h => h) fun _ => respects_leases.keeps_attempt _
  | none => exact keeps_pure

lemma keeps_settle (e : Fault) : Keeps leaseProtocol (OnLease J) (settleFailure e) :=
  respects_leases.keeps_settleFailure
    (respects_leases.keeps_proveRollback fun _ _ _ _ _ => keeps_plain rfl)
    (fun _ => respects_leases.keeps_markFailure trivial trivial trivial trivial _) e

/-- The lease that the variable names is the one the worker holds. -/
def OwnsLease (named held : Option ℕ) : Prop := ∀ lock, named = some lock → held = some lock

/-- The variable names the lease that the worker holds. -/
def UnderLease (lock : ℕ) (named held : Option ℕ) : Prop := named = some lock ∧ held = some lock

lemma UnderLease.owns {lock : ℕ} {named held : Option ℕ} (h : UnderLease lock named held) :
    OwnsLease named held := by
  intro lock' hl
  rw [h.2, ← h.1, hl]

lemma keeps_mutationTransaction (lock : ℕ) (staged : List StagedObject) :
    Keeps leaseProtocol (OnLease (UnderLease lock)) (mutationTransaction lock staged) := by
  have h := respects_leases (J := UnderLease lock)
  refine keeps_bind (h.keeps_ask rfl) fun rows => ?_
  refine keeps_bind (h.keeps_attempt _) fun _ => ?_
  refine keeps_bind (keeps_publishAll fun item _ => keeps_publishTarget item) fun _ => ?_
  refine keeps_bind (h.keeps_activity _) fun _ => ?_
  refine keeps_bind (h.keeps_ask rfl) fun _ => ?_
  refine keeps_bind (h.keeps_ask rfl) fun _ => ?_
  refine keeps_bind (h.keeps_ask rfl) fun _ => ?_
  refine keeps_bind (h.keeps_attempt _) fun _ => ?_
  refine keeps_perform fun l g h => ⟨⟨?_, nofun⟩, fun r g' hn => ?_⟩
  · rintro _ ⟨⟩
    exact h.2
  · obtain rfl : g' = g := hn
    exact h

variable {l : ExecuteLocals} {g : Option ℕ}

/-- A worker secures the tenant by opening a lease of its own. -/
lemma meets_secureTenant (h : OnLease OwnsLease l g) :
    Meets leaseProtocol secureTenant (fun lock l' g' => OnLease (UnderLease lock) l' g')
      (fun _ l' g' => OnLease OwnsLease l' g') l g := by
  refine (respects_leases.keeps_moveRestore trivial _).meets_bind h (fun _ _ _ h => h) ?_
  intro _ l g h
  refine meets_acquireLock (fun _ => h) fun lock => ?_
  rw [meets_bind, meets_modify]
  have hI : OnLease (UnderLease lock) { l with lock := some lock } (some lock) := ⟨rfl, rfl⟩
  exact (respects_leases.keeps_safeguardTenant trivial lock).meets_bind hI
    (fun _ _ _ h => h.owns) fun _ _ _ hI => hI

/-- The body commits under the lease it opened. -/
lemma meets_executeBody (h : OnLease OwnsLease l g) :
    Meets leaseProtocol executeBody (fun _ l' g' => OnLease OwnsLease l' g')
      (fun _ l' g' => OnLease OwnsLease l' g') l g := by
  rw [executeBody, meets_bind]
  refine (meets_secureTenant h).mono (fun lock l g hI => ?_) fun _ _ _ h => h
  have hkeep := respects_leases (J := UnderLease lock)
  have hrest : Keeps leaseProtocol (OnLease (UnderLease lock))
      (do
        let staged ← validateRestore lock
        activity .mutationStarted
        attempt .hook
        mutationTransaction lock staged
        modify fun l => { l with mutationCommitted := true }
        finishRestore) := by
    refine keeps_bind (hkeep.keeps_validateRestore trivial trivial (fun _ _ h => h) lock) ?_
    intro staged
    refine keeps_bind (hkeep.keeps_activity _) fun _ => ?_
    refine keeps_bind (hkeep.keeps_attempt _) fun _ => ?_
    refine keeps_bind (keeps_mutationTransaction lock staged) fun _ => ?_
    exact keeps_bind (keeps_modify fun _ _ h => h) fun _ => hkeep.keeps_finishRestore trivial
  exact (hrest l g hI).mono (fun _ _ _ h => h.owns) fun _ _ _ h => h.owns

/-- What keeps everything ends somewhere. -/
lemma meets_true {L : Type} {x : RestoreRoutine L Unit}
    (hx : Keeps leaseProtocol (fun _ _ => True) x) (l : L) (g : Option ℕ) :
    Meets leaseProtocol x (fun _ _ _ => True) (fun _ _ _ => True) l g :=
  hx l g trivial

/-- The coordinator gives back the lease it opened, and no other. -/
lemma meets_releaseRestoreLock (h : OnLease OwnsLease l g) :
    Meets leaseProtocol releaseRestoreLock (fun _ _ _ => True) (fun _ _ _ => True) l g := by
  rw [releaseRestoreLock, meets_bind, meets_get]
  cases hl : l.lock with
  | none => exact trivial
  | some lock =>
    have hkeep := respects_leases (J := fun _ _ => True)
    have hhandler (e : Fault) : Keeps leaseProtocol (fun _ _ => True)
        (if e = .abort then setAborted
        else if l.safeError.isNone then setSafeError .engine else pure ()) :=
      keeps_ite hkeep.keeps_setAborted (keeps_ite (hkeep.keeps_setSafeError _) keeps_pure)
    dsimp only
    rw [meets_tryCatch]
    refine meets_releaseLock (h lock hl) (fun e g' => meets_true (hhandler e) _ _) ?_
    intro released g'
    cases released with
    | true => exact trivial
    | false => exact meets_true (hhandler .engine) _ _

lemma meets_endRestore (h : OnLease OwnsLease l g) :
    Meets leaseProtocol endRestore (fun _ _ _ => True) (fun _ _ _ => True) l g := by
  refine (respects_leases.keeps_cleanUpRestore trivial).meets_bind h (fun _ _ _ _ => trivial) ?_
  intro _ l g h
  rw [meets_bind]
  refine (meets_releaseRestoreLock h).mono (fun _ l g _ => ?_) fun _ _ _ _ => trivial
  exact meets_true Respects.keeps_concludeRestore l g

lemma meets_execute (h : OnLease OwnsLease l g) :
    Meets leaseProtocol execute (fun _ _ _ => True) (fun _ _ _ => True) l g := by
  have hkeep := respects_leases (J := OwnsLease)
  refine (hkeep.keeps_attempt _).meets_bind h (fun _ _ _ _ => trivial) fun _ l g h => ?_
  refine (hkeep.keeps_ask rfl).meets_bind h (fun _ _ _ _ => trivial) fun restore l g h => ?_
  refine (hkeep.keeps_prepareRestoreState trivial restore).meets_bind h
    (fun _ _ _ _ => trivial) fun existing l g h => ?_
  cases existing with
  | true => exact trivial
  | false =>
    change Meets leaseProtocol executePrepared _ _ l g
    rw [executePrepared, meets_bind, meets_tryCatch]
    refine (meets_executeBody h).mono (fun _ l g h => meets_endRestore h) fun e l g h => ?_
    exact (keeps_settle e l g h).mono (fun _ l g h => meets_endRestore h) fun _ _ _ _ => trivial

/-! ### The task -/

section Task

variable {I : Unit → Option ℕ → Prop}

lemma keeps_report (event : RestoreEvent) :
    Keeps leaseProtocol I (activity event : Task Unit) := keeps_plain rfl

lemma keeps_markRestorePreMutationFailure (cause : Fault) :
    Keeps leaseProtocol I (markRestorePreMutationFailure cause) :=
  keeps_bind (keeps_plain rfl) fun _ =>
    keeps_ite (keeps_bind (keeps_plain rfl) fun _ => keeps_report _) keeps_pure

lemma keeps_handleRestoreFailure (lastRetry : Bool) (e : Fault) :
    Keeps leaseProtocol I (handleRestoreFailure lastRetry e) := by
  have hexhausted : Keeps leaseProtocol I markRestoreRetryExhausted :=
    keeps_bind (keeps_plain rfl) fun _ => keeps_bind (keeps_plain rfl) fun _ => keeps_report _
  have hrecovery : Keeps leaseProtocol I markUnexpectedRestoreRecovery := by
    refine keeps_bind (keeps_plain rfl) fun _ => ?_
    refine keeps_ite ?_ (keeps_ite (keeps_report _) keeps_pure)
    exact keeps_bind (keeps_plain rfl) fun _ => keeps_report _
  cases e with
  | abort => exact keeps_throw
  | lockUnavailable =>
    refine keeps_bind (keeps_markRestorePreMutationFailure _) fun _ => ?_
    exact keeps_when hexhausted fun _ => keeps_throw
  | engine =>
    refine keeps_bind (keeps_plain rfl) fun _ => ?_
    exact keeps_when (keeps_markRestorePreMutationFailure _) fun _ => keeps_throw
  | error =>
    refine keeps_bind (keeps_plain rfl) fun _ => ?_
    exact keeps_either hrecovery (keeps_markRestorePreMutationFailure _) fun _ => keeps_throw

/-- What a delivery does before it claims the restore. -/
lemma keeps_buildRuntime :
    Keeps leaseProtocol I
      (tryCatch (attempt .buildRuntime) fun e =>
        if e = .abort then
          throw e
        else do
          markRestorePreMutationFailure .engine
          throw .engine : Task Unit) :=
  keeps_tryCatch (keeps_plain rfl) fun _ => keeps_ite keeps_throw
    (keeps_bind (keeps_markRestorePreMutationFailure _) fun _ => keeps_throw)

end Task

variable {l : Unit} {g : Option ℕ}

lemma meets_releasePreflight {lock : ℕ} (hg : g = some lock) :
    Meets leaseProtocol (releasePreflight lock) (fun _ _ _ => True) (fun _ _ _ => True) l g := by
  refine meets_releaseLock hg (fun _ _ => trivial) fun released g' => ?_
  cases released <;> exact trivial

/-- A preflight gives back the lease it opened. -/
lemma meets_preflight :
    Meets leaseProtocol preflight (fun _ _ _ => True) (fun _ _ _ => True) l g := by
  refine meets_acquireLock (fun _ => trivial) fun lock => ?_
  have hwork : Keeps leaseProtocol (fun _ g => g = some lock)
      (do
        attempt .preflight
        heartbeat lock
        attempt .preflight : Task Unit) := by
    refine keeps_bind (keeps_plain rfl) fun _ => keeps_bind ?_ fun _ => keeps_plain rfl
    refine keeps_bind (keeps_bind (keeps_plain rfl) fun _ => keeps_plain rfl) fun _ => ?_
    exact keeps_ite keeps_pure keeps_throw
  rw [meets_bind, meets_tryCatch]
  refine (hwork l (some lock) rfl).mono (fun _ l g hg => meets_releasePreflight hg) fun e l g hg => ?_
  rw [meets_bind, meets_tryCatch]
  refine (meets_releasePreflight hg).mono (fun _ _ _ _ => trivial) fun e' _ _ _ => ?_
  by_cases he : e' = .abort
  · simp [he]
  · simp [he]

/-- A delivery that claimed the restore. -/
lemma meets_runClaimedRestore (lastRetry : Bool) :
    Meets leaseProtocol (runClaimedRestore lastRetry) (fun _ _ _ => True) (fun _ _ _ => True)
      l g := by
  have hfail (e : Fault) (l : Unit) (g : Option ℕ) :=
    meets_true (keeps_handleRestoreFailure lastRetry e) l g
  refine (keeps_report (I := fun _ _ => True) _).meets_bind trivial (fun _ _ _ _ => trivial) ?_
  intro _ l g _
  rw [meets_tryCatch, meets_bind]
  refine meets_preflight.mono (fun _ l g _ => ?_) fun e l g _ => hfail e l g
  rw [meets_withLocals]
  exact (meets_execute (l := {}) nofun).mono (fun _ _ _ _ => trivial) fun e _ g _ => hfail e l g

lemma meets_executeRestore (lastRetry : Bool) :
    Meets leaseProtocol (executeRestore lastRetry) (fun _ _ _ => True) (fun _ _ _ => True) l g := by
  refine (keeps_plain (I := fun _ _ => True) rfl).meets_bind trivial (fun _ _ _ _ => trivial) ?_
  intro restore l g _
  refine (keeps_plain (I := fun _ _ => True) rfl).meets_bind trivial (fun _ _ _ _ => trivial) ?_
  intro _ l g _
  split
  any_goals exact trivial
  -- the three statuses from which an operation is claimed run the same task
  all_goals
    refine (keeps_buildRuntime (I := fun _ _ => True)).meets_bind trivial
      (fun _ _ _ _ => trivial) fun _ l g _ => ?_
    refine meets_perform_bind ⟨(fun _ h => by cases h), fun _ h => by cases h⟩
      (fun _ _ _ => trivial) fun claim g _ => ?_
    split
    · exact trivial
    · exact meets_runClaimedRestore lastRetry
    · exact trivial

/-- Whatever is started on the site keeps to the protocol of leases. -/
lemma follows_worker (worker : Worker) :
    worker.code.Follows leaseProtocol (fun _ _ => True) none := by
  cases worker with
  | delivery lastRetry =>
    refine Prog.follows_bind.mpr ?_
    exact Prog.Follows.mono (meets_executeRestore lastRetry) fun _ _ _ => trivial
  | direct =>
    refine Prog.follows_bind.mpr ?_
    exact Prog.Follows.mono (meets_execute (l := {}) nofun) fun _ _ _ => trivial

/-! ## Commits under the lease -/

/-- The leases the workers hold, as the site knows them. -/
structure LeasesAgree (business : ℕ) (s : Site) (g : ℕ → Option ℕ) : Prop where
  held : ∀ who lock, g who = some lock → Held s.locks business lock s.now
  apart : ∀ who lock, g who = some lock → lock ∉ s.others
  own : ∀ a b lock, g a = some lock → g b = some lock → a = b
  known : ∀ lock ∈ s.others, lock < s.locks.length
  stood : ∀ m ∈ s.mutations, m.leaseStood = true

variable {business : ℕ} {s t : Site} {g : ℕ → Option ℕ}

/-- A call that gives back no lease of a worker keeps what the site knows. -/
lemma LeasesAgree.move {read : ℕ} {token renewal : Option ℕ} (h : LeasesAgree business s g)
    (hmove : LeaseMove (min read s.now) s.locks token renewal t.locks) (hnow : s.now ≤ t.now)
    (htoken : ∀ who lock, g who = some lock → token ≠ some lock)
    (hothers : t.others = s.others) (hm : ∀ m ∈ t.mutations, m.leaseStood = true) :
    LeasesAgree business t g where
  held who lock hg :=
    ((h.held who lock hg).move hmove (Nat.min_le_right _ _) (htoken who lock hg)).later hnow
  apart who lock hg := hothers ▸ h.apart who lock hg
  own := h.own
  known lock hl := by
    rw [hothers] at hl
    obtain ⟨l', hl', -⟩ := hmove.row (List.getElem?_eq_getElem (h.known lock hl))
    exact (List.getElem?_eq_some_iff.mp hl').1
  stood := hm

/-- A worker that gives up its lease leaves the others theirs. -/
lemma LeasesAgree.drop (h : LeasesAgree business s g) (who : ℕ) :
    LeasesAgree business s (Function.update g who none) := by
  have hsub : ∀ x lock, Function.update g who none x = some lock → g x = some lock := by
    intro x lock hx
    by_cases hw : x = who
    · subst hw
      rw [Function.update_self] at hx
      exact nomatch hx
    · rwa [Function.update_of_ne hw] at hx
  exact ⟨fun x lock hx => h.held x lock (hsub x lock hx),
    fun x lock hx => h.apart x lock (hsub x lock hx),
    fun a b lock ha hb => h.own a b lock (hsub a lock ha) (hsub b lock hb), h.known, h.stood⟩

/-- A worker that opens a lease holds a new one. -/
lemma LeasesAgree.open (h : LeasesAgree business s g) (who : ℕ) {read : ℕ} {locks : Locks}
    (hmove : LeaseMove (min read s.now) s.locks none none locks) {l : TenantOperationLock}
    (hl : locks[s.locks.length]? = some l) (hb : l.business = business) (ha : l.active = true) :
    LeasesAgree business { s with locks := locks }
      (Function.update g who (some s.locks.length)) := by
  have hold := h.move (t := { s with locks := locks }) hmove (le_refl _) (fun _ _ _ => nofun) rfl
    h.stood
  have hlt : ∀ x lock, g x = some lock → lock < s.locks.length := by
    intro x lock hx
    obtain ⟨_, hl, -⟩ := h.held x lock hx
    exact (List.getElem?_eq_some_iff.mp hl).1
  have hcases : ∀ x lock, Function.update g who (some s.locks.length) x = some lock →
      (x = who ∧ lock = s.locks.length) ∨ g x = some lock := by
    intro x lock hx
    by_cases hw : x = who
    · subst hw
      rw [Function.update_self] at hx
      exact .inl ⟨rfl, (Option.some.inj hx).symm⟩
    · rw [Function.update_of_ne hw] at hx
      exact .inr hx
  refine ⟨fun x lock hx => ?_, fun x lock hx => ?_, fun a b lock ha hb => ?_, hold.known, h.stood⟩
  · rcases hcases x lock hx with ⟨-, rfl⟩ | hx
    · exact ⟨l, hl, hb, .inl ha⟩
    · exact hold.held x lock hx
  · rcases hcases x lock hx with ⟨-, rfl⟩ | hx
    · exact fun hmem => Nat.lt_irrefl _ (h.known _ hmem)
    · exact h.apart x lock hx
  · rcases hcases a lock ha with ⟨rfl, rfl⟩ | hga
    · rcases hcases b _ hb with ⟨rfl, -⟩ | hgb
      · rfl
      · exact absurd (hlt b _ hgb) (Nat.lt_irrefl _)
    · rcases hcases b lock hb with ⟨rfl, rfl⟩ | hgb
      · exact absurd (hlt a _ hga) (Nat.lt_irrefl _)
      · exact h.own a b lock hga hgb

/-- The call would commit a mutation after the time of its lease. -/
def RestoreCall.commitsLate (s : Site) : RestoreCall → Bool
  | .commitMutation lock => s.locks[lock]?.any fun l => l.leaseExpiresAt ≤ s.now
  | _ => false

/-- The move commits no mutation after the time of its lease. -/
def CommitsInTime (w : RestorePool) (m : RestoreMove) : Prop :=
  ∀ x ∈ System.calls w m, x.2.2 = .served → x.2.1.commitsLate w.shared = false

instance (w : RestorePool) (m : RestoreMove) : Decidable (CommitsInTime w m) :=
  inferInstanceAs (Decidable (∀ x ∈ System.calls w m, _))

/-- An answered call leads to leases that agree again. -/
lemma leasesAgree_call {who : ℕ} {c : RestoreCall} {a : Answer Fault}
    (htime : a = .served → c.commitsLate s = false)
    (h : LeasesAgree setup.dir.business s g) (hmay : leaseProtocol.may (g who) c) :
    ∃ g', leaseProtocol.next (g who) c ((restoreMachine setup).answer who c s a).1 g' ∧
      LeasesAgree setup.dir.business ((restoreMachine setup).answer who c s a).2
        (Function.update g who g') := by
  have hsame : Function.update g who (g who) = g := Function.update_eq_self who g
  have hmove := siteMove_answer setup s who c a
  obtain ⟨hlocks, hnow, hothers⟩ := hmove.leases
  by_cases hplain : c.needsLease = false
  · refine ⟨g who, (leaseProtocol_next hplain).mpr rfl, ?_⟩
    rw [hsame]
    refine h.move hlocks hnow.ge (fun _ lock _ ht => ?_) hothers ?_
    · cases c
      case releaseLock => exact absurd hplain Bool.noConfusion
      all_goals cases ht
    · rcases hmove.mutations with hm | ⟨lock, m, rfl, -, -⟩
      · rw [hm]
        exact h.stood
      · exact absurd hplain Bool.noConfusion
  · cases c
    case acquireLock read =>
      have hfail : LeasesAgree setup.dir.business s (Function.update g who (g who)) := by
        rwa [hsame]
      cases a with
      | raised e => exact ⟨g who, rfl, hfail⟩
      | lost e => exact ⟨g who, rfl, hfail⟩
      | served =>
        change ∃ g', leaseProtocol.next (g who) (.acquireLock read)
            (RestoreCall.exec setup s (.acquireLock read)).1 g' ∧
          LeasesAgree setup.dir.business (RestoreCall.exec setup s (.acquireLock read)).2
            (Function.update g who g')
        simp only [RestoreCall.exec]
        split
        case h_1 lock locks hacq =>
          obtain ⟨hm, rfl, l, hl, hb, ha⟩ := leaseMove_acquire hacq
          exact ⟨some s.locks.length, rfl, h.open who hm hl hb ha⟩
        case h_2 => exact ⟨g who, rfl, hfail⟩
        case h_3 => exact ⟨g who, rfl, hfail⟩
    case releaseLock lock read =>
      have hg : g who = some lock := hmay.2 lock rfl
      refine ⟨none, rfl, ?_⟩
      refine (h.drop who).move hlocks hnow.ge (fun x lock' hx ht => ?_) hothers ?_
      · obtain rfl : lock = lock' := Option.some.inj ht
        by_cases hw : x = who
        · subst hw
          rw [Function.update_self] at hx
          cases hx
        · rw [Function.update_of_ne hw] at hx
          exact hw (h.own x who lock hx hg)
      · rcases hmove.mutations with hm | ⟨_, _, hc, -, -⟩
        · rw [hm]
          exact h.stood
        · cases hc
    case commitMutation lock =>
      refine ⟨g who, rfl, ?_⟩
      rw [hsame]
      refine h.move hlocks hnow.ge (fun _ _ _ h => by cases h) hothers ?_
      rcases hmove.mutations with hm | ⟨lock', m, hc, hstood, hm⟩
      · rw [hm]
        exact h.stood
      · cases hc
        rw [hm]
        refine List.forall_mem_cons.mpr ⟨?_, h.stood⟩
        -- only a served commit adds a mutation, and it comes before the time is over
        have hserved : a = .served := by
          cases a with
          | served => rfl
          | raised e => exact absurd hm (List.cons_ne_self m _).symm
          | lost e => exact absurd hm (List.cons_ne_self m _).symm
        have hlate := htime hserved
        rw [hstood, decide_eq_true_eq]
        refine (h.held who lock (hmay.1 lock rfl)).stands fun l hl => ?_
        simpa [RestoreCall.commitsLate, hl] using hlate
    all_goals exact absurd rfl hplain

/-- What happens beside the workers leaves them their leases. -/
lemma leasesAgree_outside (h : LeasesAgree business s g) (x : Outside) :
    LeasesAgree business (x.apply s) g := by
  have hm : (x.apply s).mutations = s.mutations := by
    cases x
    all_goals
      simp only [Outside.apply]
      repeat' split
      all_goals rfl
  have hstood : ∀ m ∈ (x.apply s).mutations, m.leaseStood = true := hm ▸ h.stood
  rcases leaseMove_outside s x with
    ⟨hnow, hlocks, hothers⟩ | ⟨read, token, renewal, hmove, -, hnow, htoken, hothers⟩
  · have hmove : LeaseMove (min s.now s.now) s.locks none none (x.apply s).locks :=
      hlocks ▸ .unchanged none none
    exact h.move hmove hnow (fun _ _ _ h => by cases h) hothers hstood
  · have htok : ∀ who lock, g who = some lock → token ≠ some lock :=
      fun who lock hg ht => h.apart who lock hg (htoken lock ht)
    rcases hothers with hothers | ⟨hothers, hlt⟩
    · exact h.move hmove hnow.ge htok hothers hstood
    · have hold := h.move (t := { x.apply s with others := s.others }) hmove hnow.ge htok rfl hstood
      refine ⟨hold.held, fun who lock hg => ?_, h.own, ?_, hstood⟩
      · rw [hothers, List.mem_cons, not_or]
        refine ⟨?_, h.apart who lock hg⟩
        obtain ⟨_, hl, -⟩ := h.held who lock hg
        exact ((List.getElem?_eq_some_iff.mp hl).1).ne
      · rw [hothers]
        exact List.forall_mem_cons.mpr ⟨hlt, hold.known⟩

lemma leasesAgree_step (hm : CommitsInTime w m)
    (h : System.Kept leaseProtocol none (LeasesAgree setup.dir.business) w) :
    System.Kept leaseProtocol none (LeasesAgree setup.dir.business) (restoreStep setup w m) := by
  refine System.follows_step (S := restoreSystem setup) follows_worker ?_ ?_ h
  · exact fun g who c a hcall hg hmay => leasesAgree_call (fun hs => hm _ hcall hs) hg hmay
  · exact fun g x _ hg => leasesAgree_outside hg x

/-- However acquisitions, renewals and releases are interleaved, at most one lease of a business
stands, a lease that has ended is never renewed, and a release ends no lease but that of its token.
A lease whose time is over is never renewed either when no renewal comes after the time of its
lease although it read the clock before it; and when each mutation commits before the time of its
lease is over, that lease still stands. -/
theorem tenant_lease_exclusive (setup : RestoreSetup) (s : Site) (hs : Exclusive s.locks)
    (hothers : ∀ lock ∈ s.others, lock < s.locks.length) (hm : s.mutations = [])
    (moves : List RestoreMove) :
    let w := Trace.run (restoreStep setup) ({ shared := s } : RestorePool) moves
    let t := w.shared
    (∀ (i j : ℕ) (l m : TenantOperationLock), t.locks[i]? = some l → t.locks[j]? = some m →
      l.active = true → m.active = true → l.business = m.business → i = j) ∧
    (∀ (lock : ℕ) (later : List RestoreMove),
      let u := (Trace.run (restoreStep setup) w later).shared
      ((∃ l, t.locks[lock]? = some l ∧ l.active = false) →
        ∀ token leaseSeconds read, 1 ≤ leaseSeconds ∧ leaseSeconds ≤ 86400 →
          heartbeatTenantOperationLock u.locks lock token leaseSeconds read =
            .ok (false, u.locks)) ∧
      (Lapsed t.locks lock t.now → Trace.All (restoreStep setup) RenewsInTime w later →
        Lapsed u.locks lock u.now ∧
        ∀ token leaseSeconds, 1 ≤ leaseSeconds ∧ leaseSeconds ≤ 86400 →
          heartbeatTenantOperationLock u.locks lock token leaseSeconds u.now =
            .ok (false, u.locks))) ∧
    (∀ lock token read i, i ≠ token →
      (releaseTenantOperationLock t.locks lock token read).2[i]? = t.locks[i]?) ∧
    (Trace.All (restoreStep setup) CommitsInTime { shared := s } moves →
      ∀ m ∈ t.mutations, m.leaseStood = true) := by
  intro w t
  refine ⟨fun i j l m hl hm hla hma hb => ?_, fun lock later => ⟨?_, ?_⟩,
    fun lock token read i hi => release_of_ne hi, fun hmoves => ?_⟩
  · exact (exclusive_run hs moves).one_active hl hm hla hma hb
  · intro hended token seconds read hlen
    have hrun : ∃ l, (Trace.run (restoreStep setup) w later).shared.locks[lock]? = some l ∧
        l.active = false := ended_run hended later
    obtain ⟨l, hl, hoff⟩ := hrun
    have hlapsed : Lapsed _ lock read := ⟨l, hl, .inl hoff⟩
    exact hlapsed.heartbeat hlen
  · intro hover hlater
    have hu := lapsed_run hover hlater
    exact ⟨hu, fun _ _ hlen => hu.heartbeat hlen⟩
  · have hstart : System.Kept leaseProtocol none (LeasesAgree setup.dir.business)
        ({ shared := s } : RestorePool) :=
      ⟨fun _ => none, ⟨nofun, nofun, nofun, hothers, hm ▸ nofun⟩, fun _ => rfl⟩
    obtain ⟨_, hagree, -⟩ := Trace.invariant_of_all (fun _ _ => leasesAgree_step) hstart hmoves
    exact hagree.stood

/-- A lease of another business, which is renewed before its time is over. -/
def timelyRenewal : List RestoreMove :=
  [.outside (.acquire 1 .backup 1 3600 0), .outside (.tick 1), .outside (.heartbeat 0 3600 0)]

/-- Two deliveries; afterwards another business renews a lease in time. -/
theorem tenant_lease_exclusive_two_deliveries :
    ((restoredSite twoDeliveries).mutations ≠ [] ∧
      ∀ m ∈ (restoredSite twoDeliveries).mutations, m.leaseStood = true) ∧
    Lapsed (restoredSite (twoDeliveries ++ timelyRenewal)).locks 1
      (restoredSite (twoDeliveries ++ timelyRenewal)).now := by
  rw [restoredSite, restoredSite, Trace.run_append]
  have h := tenant_lease_exclusive emptyRestoreSetup {} nofun nofun rfl twoDeliveries
  refine ⟨⟨by decide +kernel, h.2.2.2 (by decide +kernel)⟩, ?_⟩
  exact ((h.2.1 1 timelyRenewal).2 (by decide +kernel) (by decide +kernel)).1

/-- The clock passes the end of the lease while the mutation transaction of delivery 0 is open; a
backup takes the lease, and then the mutation commits. -/
def lateCommit : List RestoreMove :=
  [.start 0 (.delivery false)] ++ served 0 53 ++
    [.outside (.tick (microseconds 21600)),
      .outside (.acquire 0 .backup 1 3600 (microseconds 21600))] ++
    served 0 5

/-- A heartbeat of delivery 0 has read the clock when half the time of the lease is over; before
it updates the row, the other half passes. -/
def lateHeartbeat : List RestoreMove :=
  [.start 0 (.delivery false)] ++ served 0 31 ++ [.outside (.tick (microseconds 10800))] ++
    served 0 1 ++ [.outside (.tick (microseconds 10800))]

theorem restore_commits_without_lease :
    ((restoredSite lateCommit).mutations.map (·.leaseStood) = [false] ∧
      (restoredSite lateCommit).locks.map (fun l => (l.operationKind, l.active)) =
        [(.restore, false), (.restore, false), (.backup, true)]) ∧
    Lapsed (restoredSite lateHeartbeat).locks 1 (microseconds 21600) ∧
      ¬ Lapsed (restoredSite (lateHeartbeat ++ served 0 1)).locks 1 (microseconds 21600) :=
  ⟨⟨by decide +kernel, by decide +kernel⟩, by decide +kernel, by decide +kernel⟩

end NexaPos.Backups
