import NexaPos.Backups.RestoreTasks

/-!
# A restore mutates its tenant once

The status of a restore decides who may go on with it.  A mutation commits only by moving the
status from `RESTORING` to `VERIFYING`, and the transitions that lead away from `VERIFYING` never
lead back, with one exception: to `FAILED`.  From there, with the code of a failure before the
mutation, the restore can be claimed again.

The failure handlers read the status, find that the mutation has not begun, and then call
`transition_restore`, which reads it again and accepts `VERIFYING` as well.  As long as no such
transition is made on a restore that is `VERIFYING`, at most one mutation commits.
-/

namespace NexaPos.Backups

/-! ## What a call does to the status -/

/-- A call leaves the status and the mutations, makes a declared transition, puts the restore at
its start again, or commits a mutation. -/
inductive StatusMove (c : RestoreCall) (s t : Site) : Prop
  | unchanged (hstatus : t.restore.status = s.restore.status) (hm : t.mutations = s.mutations)
  | transition (target : RestoreStatus) (code : FailureCode)
      (hc : c = .transitionRestore target code)
      (hmem : target ∈ restoreTransitions s.restore.status) (ht : t.restore.status = target)
      (hm : t.mutations = s.mutations)
  | restart (hs : s.restore.status = .queued ∨ s.restore.status = .failed)
      (ht : t.restore.status = .authorizing) (hm : t.mutations = s.mutations)
  | commit (hs : s.restore.status = .restoring) (ht : t.restore.status = .verifying)
      (m : Mutation) (hm : t.mutations = m :: s.mutations)

/-- What any call does to the status. -/
lemma SiteMove.status {setup : RestoreSetup} {s t : Site} {c : RestoreCall}
    (h : SiteMove setup s c t) : StatusMove c s t := by
  cases h with
  | moved target code hc hmem _ => exact .transition target code hc hmem rfl rfl
  | authorized hs => exact .restart (hs.imp_right RestoreOperation.failed_of_retryable) rfl rfl
  | committed lock rows _ hstatus _ => exact .commit hstatus rfl _ rfl
  | unchanged => exact .unchanged rfl rfl
  | exhausted => exact .unchanged rfl rfl
  | recorded => exact .unchanged rfl rfl
  | requested => exact .unchanged rfl rfl
  | taken => exact .unchanged rfl rfl
  | finished => exact .unchanged rfl rfl
  | leased => exact .unchanged rfl rfl
  | published => exact .unchanged rfl rfl
  | unlinked => exact .unchanged rfl rfl

/-! ## At most one mutation -/

/-- The status of a restore after its mutation has committed. -/
def RestoreStatus.afterMutation (status : RestoreStatus) : Bool :=
  status ∈ [.verifying, .succeeded, .rollingBack, .rolledBack, .indeterminate]

/-- At most one mutation has committed, and after one the status stands behind it. -/
def MutatedOnce (s : Site) : Prop :=
  s.mutations.length ≤ 1 ∧ (s.mutations ≠ [] → s.restore.status.afterMutation = true)

/-- No transition but the one to `FAILED` leads back before the mutation. -/
lemma afterMutation_transition {status target : RestoreStatus}
    (h : target ∈ restoreTransitions status) (hs : status.afterMutation = true)
    (hfail : target = .failed → status ≠ .verifying) : target.afterMutation = true := by
  cases status <;> cases target <;> simp_all [restoreTransitions, RestoreStatus.afterMutation]

/-- The call fails a restore that is `VERIFYING`. -/
def RestoreCall.failsLate (s : Site) : RestoreCall → Bool
  | .transitionRestore .failed _ => s.restore.status == .verifying
  | _ => false

/-- A call keeps it, unless it fails a restore that is `VERIFYING`. -/
lemma mutatedOnce_exec {setup : RestoreSetup} {s : Site} {c : RestoreCall} (h : MutatedOnce s)
    (hfail : c.failsLate s = false) : MutatedOnce (c.exec setup s).2 := by
  obtain ⟨hlen, hafter⟩ := h
  cases (siteMove_exec setup s c).status with
  | unchanged hstatus hm =>
    refine ⟨by rwa [hm], fun hne => ?_⟩
    rw [hstatus]
    exact hafter (by rwa [hm] at hne)
  | transition target code hc hmem ht hm =>
    refine ⟨by rwa [hm], fun hne => ?_⟩
    rw [ht]
    refine afterMutation_transition hmem (hafter (by rwa [hm] at hne)) fun hf => ?_
    subst hf hc
    exact of_decide_eq_false hfail
  | restart hs ht hm =>
    refine ⟨by rwa [hm], fun hne => ?_⟩
    have hstatus := hafter (by rwa [hm] at hne)
    rcases hs with hs | hs
    · rw [hs] at hstatus
      exact absurd hstatus (by decide)
    · rw [hs] at hstatus
      exact absurd hstatus (by decide)
  | commit hs ht m hm =>
    have hnone : s.mutations = [] := by
      by_contra hne
      have hstatus := hafter hne
      rw [hs] at hstatus
      exact absurd hstatus (by decide)
    rw [MutatedOnce, hm, hnone, ht]
    exact ⟨le_refl 1, fun _ => rfl⟩

/-- The move fails no restore that is `VERIFYING`. -/
def FailsInTime (w : RestorePool) (m : RestoreMove) : Prop :=
  ∀ x ∈ System.calls w m, x.2.2 = .served → x.2.1.failsLate w.shared = false

instance (w : RestorePool) (m : RestoreMove) : Decidable (FailsInTime w m) :=
  inferInstanceAs (Decidable (∀ x ∈ System.calls w m, _))

/-- What happens beside the workers touches neither the status nor the mutations. -/
lemma mutatedOnce_outside {s : Site} (h : MutatedOnce s) (x : Outside) :
    MutatedOnce (x.apply s) := by
  cases x
  case acquire business kind operation leaseSeconds =>
    simp only [Outside.apply]
    split <;> exact h
  case heartbeat n leaseSeconds =>
    simp only [Outside.apply]
    repeat' split
    all_goals exact h
  case release n =>
    simp only [Outside.apply]
    split <;> exact h
  all_goals exact h

lemma mutatedOnce_step {setup : RestoreSetup} {w : RestorePool} {m : RestoreMove}
    (hm : FailsInTime w m) (h : MutatedOnce w.shared) :
    MutatedOnce (restoreStep setup w m).shared := by
  refine System.shared_invariant (I := MutatedOnce) ?_ (fun x _ h => mutatedOnce_outside h x) h
  intro who c a hcall h
  cases a with
  | served => exact mutatedOnce_exec h (hm _ hcall rfl)
  | raised e => exact h
  | lost e =>
    change MutatedOnce (if c.torn then (c.exec setup w.shared).2 else w.shared)
    split
    case isTrue ht =>
      refine mutatedOnce_exec h ?_
      cases c <;> first | rfl | exact absurd ht Bool.false_ne_true
    case isFalse => exact h

/-- However the workers are interleaved, and wherever they stop: when no failure is recorded on a
restore that is `VERIFYING`, at most one mutation commits, and once one has, the restore is
neither claimed nor started again. -/
theorem restore_mutates_once (setup : RestoreSetup) (s : Site) (hs : s.mutations = [])
    (moves : List RestoreMove)
    (hmoves : Trace.All (restoreStep setup) FailsInTime { shared := s } moves) :
    let t := (Trace.run (restoreStep setup) { shared := s } moves).shared
    t.mutations.length ≤ 1 ∧
      (t.mutations ≠ [] →
        (claimRestoreOperation t).1 ≠ .claimed ∧ (claimRestoreOperation t).2 = t ∧
        restartFailedRestore t = (.error .error, t)) := by
  intro t
  have hstart : MutatedOnce s := by
    rw [MutatedOnce, hs]
    exact ⟨Nat.zero_le 1, fun h => absurd rfl h⟩
  have honce : MutatedOnce t :=
    Trace.invariant_of_all (I := fun w : RestorePool => MutatedOnce w.shared)
      (fun _ _ hm h => mutatedOnce_step hm h) hstart hmoves
  refine ⟨honce.1, fun hne => ?_⟩
  have hafter := honce.2 hne
  have hqueued : t.restore.status ≠ .queued := by
    intro hq
    rw [hq] at hafter
    exact absurd hafter (by decide)
  have hretry : t.restore.retryable ≠ true := by
    intro hr
    rw [RestoreOperation.failed_of_retryable hr] at hafter
    exact absurd hafter (by decide)
  have hclaim := (claimRestoreOperation_cases t).resolve_right fun h =>
    h.1.elim hqueued hretry
  have hrestart := (restartFailedRestore_cases t).resolve_right fun h => hretry h.1
  exact ⟨hclaim.1, hclaim.2, hrestart⟩

/-! ## Runs -/

/-- A tenant without rows, and a package of its empty catalog. -/
def emptyRestoreSetup : RestoreSetup where
  specs _ := {}
  models _ r := some r.fields
  dir := { business := 0, users := [] }
  source := { records := [], componentKeys := [.posCatalog] }

/-- The next `n` calls of a worker, all of them served. -/
def served (who n : ℕ) : List RestoreMove := List.replicate n (.turn who .served)

/-- The site after the moves. -/
def restoredSite (moves : List RestoreMove) : Site :=
  (Trace.run (restoreStep emptyRestoreSetup) { shared := {} } moves).shared

/-- Two deliveries of one message; the second finds the restore done when it comes to claim it. -/
def twoDeliveries : List RestoreMove :=
  [.start 0 (.delivery false), .start 1 (.delivery false)] ++ served 1 2 ++ served 0 70 ++
    served 1 10

theorem restore_mutates_once_two_deliveries :
    (restoredSite twoDeliveries).mutations.length = 1 ∧
      (claimRestoreOperation (restoredSite twoDeliveries)).1 ≠ .claimed :=
  ⟨by decide +kernel,
    ((restore_mutates_once emptyRestoreSetup {} rfl twoDeliveries (by decide +kernel)).2
      (by decide +kernel)).1⟩

/-- Delivery 1 cannot build its runtime and finds the restore `QUEUED`; before it records that,
delivery 0 restores and commits.  The failure is then recorded on the committed restore, and
delivery 2 claims it and restores again. -/
def staleFailure : List RestoreMove :=
  [.start 0 (.delivery false), .start 1 (.delivery false), .start 2 (.delivery false)] ++
    served 1 2 ++ [.turn 1 (.raised .error)] ++ served 1 1 ++
    served 0 61 ++ served 1 1 ++ served 2 4 ++ served 0 5 ++ served 2 70

theorem restore_mutates_twice : (restoredSite staleFailure).mutations.length = 2 := by
  decide +kernel

end NexaPos.Backups
