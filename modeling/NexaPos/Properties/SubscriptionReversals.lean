import NexaPos.Subscriptions.Payments
import NexaPos.Lib.Tables

/-!
# Reversing subscription payments

A reversal writes back the state that was stored with the payment.  That state is the one another
payment left, and nothing asks whether that payment still stands: reversed in the order in which
they were recorded, two renewals leave the period of the first in force.  A renewal also stores
its period in the time zone of the business, so that its own state is not recognised again
outside UTC, and then only the period is written back.  The same happens in UTC when a later
renewal changed the billing cycle: that is done before its own state is stored, so its reversal
leaves the new cycle, and the state of the earlier payment is not recognised.

`reversals_restore` says what is enough: a reversal that takes effect goes back to the start or
to a payment that stands, and the status goes back with it.
-/

namespace NexaPos.Subscriptions

open Tx

/-! ## What a request does -/

/-- A payment as it is recorded around a change of the subscription. -/
def recordedPayment (amount : ℤ) (before after : Subscription Stamp) : SubscriptionPayment where
  amount := amount
  periodStart := (saved after).currentPeriodStart
  periodEnd := (saved after).currentPeriodEnd
  reversedAt := none
  reversalReason := []
  subscriptionStateBefore := some before
  subscriptionStateAfter := some after

/-- The account after a change that bears a period was saved and its payment recorded. -/
def Account.record (s : Account) (amount : ℤ) (before after : Subscription Stamp) :
    Account where
  subscription := saved after
  payments := s.payments ++ [recordedPayment amount before after]

/-- The account after a payment was reversed. -/
def Account.reverse (s : Account) (now : ℤ) (paymentId : ℕ) (reason : Text)
    (payment : SubscriptionPayment) : Account :=
  let payments := s.payments.set paymentId (payment.markReversed now reason)
  { payments := payments
    subscription := saved (subscriptionAfterReversal payments payment (fetched s.subscription)) }

lemma runs_changeAndRecord {prepare change : Subscription Stamp → Subscription Stamp}
    {amount : ℤ} {s t : Account}
    (h : Runs (changeAndRecord prepare change (some amount)) s ⟨⟩ t) :
    t = s.record amount (prepare (fetched s.subscription))
      (change (prepare (fetched s.subscription))) := by
  simp only [changeAndRecord, recordSubscriptionPayment, captureSubscriptionState, runs_bind,
    runs_get, runs_modify] at h
  obtain ⟨_, _, ⟨rfl, rfl⟩, -, _, rfl, rfl⟩ := h
  rfl

/-- What the three requests that record a payment make of the subscription. -/
def Request.change? (zone : Zone) (r : Request) :
    Option (Subscription Stamp → Subscription Stamp) :=
  match r.op with
  | .renew form => some (renewedSubscription zone r.now form)
  | .extend days newPlan _ => some (extendedSubscription r.now days newPlan)
  | .createActive days? _ => some (activatedSubscription r.now days?)
  | .reverse _ _ => none

/-- The subscription in memory when the first state is captured. -/
def Request.prepared (r : Request) (s : Account) : Subscription Stamp :=
  match r.op with
  | .renew form => withBillingCycle form (fetched s.subscription)
  | _ => fetched s.subscription

lemma change_bears_period {zone : Zone} {r : Request}
    {change : Subscription Stamp → Subscription Stamp} (h : r.change? zone = some change)
    (sub : Subscription Stamp) : (change sub).currentPeriodEnd.isSome := by
  cases hop : r.op <;> simp only [Request.change?, hop, reduceCtorEq, Option.some.injEq] at h <;>
    subst h <;> rfl

/-- The reversal form accepts the reason. -/
def reasonGiven (reason : Text) : Prop :=
  Text.strip reason ≠ [] ∧ (Text.strip reason).length ≤ 400

/-- The reversal of a payment goes through. -/
def Reversible (s : Account) (paymentId : ℕ) (reason : Text) (payment : SubscriptionPayment) :
    Prop :=
  reasonGiven reason ∧ s.payments[paymentId]? = some payment ∧ payment.reversedAt = none

lemma getPayment_eq_ok {s : Account} {paymentId : ℕ} {payment : SubscriptionPayment} :
    getPayment s paymentId = .ok payment ↔ s.payments[paymentId]? = some payment := by
  unfold getPayment
  cases s.payments[paymentId]? <;> simp

lemma runs_reverse {now : ℤ} {paymentId : ℕ} {reason : Text} {s t : Account}
    (h : Runs (subscriptionPaymentReverse now paymentId reason) s ⟨⟩ t) :
    ∃ text payment, Reversible s paymentId reason payment ∧
      t = s.reverse now paymentId text payment := by
  simp only [subscriptionPaymentReverse, reverseSubscriptionPayment, runs_bind, runs_check,
    runs_reads, runs_modify, getPayment_eq_ok, Option.isNone_iff_eq_none] at h
  obtain ⟨-, _, ⟨hgiven, rfl⟩, -, _, ⟨hlength, rfl⟩, -, _, ⟨-, rfl⟩, payment, _,
    ⟨hpayment, rfl⟩, -, _, ⟨hnew, rfl⟩, rfl⟩ := h
  exact ⟨_, payment, ⟨⟨by simpa using hgiven, by simpa using hlength⟩, hpayment, hnew⟩, rfl⟩

/-- A request changes nothing, records a payment or reverses one. -/
lemma step_cases (zone : Zone) (s : Account) (r : Request) :
    step zone s r = s ∨
    (∃ change amount, r.change? zone = some change ∧
      step zone s r = s.record amount (r.prepared s) (change (r.prepared s))) ∨
    ∃ paymentId reason text payment, r.op = .reverse paymentId reason ∧
      Reversible s paymentId reason payment ∧
      step zone s r = s.reverse r.now paymentId text payment := by
  rcases commit_cases (r.action zone) s with hsame | ⟨_, hrun⟩
  · exact .inl hsame
  · right
    change Runs _ s _ (step zone s r) at hrun
    cases hop : r.op with
    | renew form =>
      left
      simp only [Request.action, hop, renew, runs_bind, runs_reads] at hrun
      obtain ⟨-, _, ⟨-, rfl⟩, hrun⟩ := hrun
      refine ⟨_, form.paymentAmount, by rw [Request.change?, hop], ?_⟩
      simpa only [Request.prepared, hop, id] using runs_changeAndRecord hrun
    | extend days newPlan amount =>
      left
      simp only [Request.action, hop, extend, runs_bind, runs_reads] at hrun
      obtain ⟨-, _, ⟨-, rfl⟩, -, _, ⟨-, rfl⟩, hrun⟩ := hrun
      refine ⟨_, amount, by rw [Request.change?, hop], ?_⟩
      simpa only [Request.prepared, hop, id] using runs_changeAndRecord hrun
    | createActive days? amount =>
      left
      have hamount : (some amount.1).filter (fun a => decide (a ≠ 0)) = some amount.1 := by
        simpa using amount.2.ne'
      simp only [Request.action, hop, createActive, runs_bind, runs_reads, hamount] at hrun
      obtain ⟨-, _, ⟨-, rfl⟩, hrun⟩ := hrun
      refine ⟨_, amount.1, by rw [Request.change?, hop], ?_⟩
      simpa only [Request.prepared, hop, id] using runs_changeAndRecord hrun
    | reverse paymentId reason =>
      right
      simp only [Request.action, hop] at hrun
      obtain ⟨text, payment, hreversible, ht⟩ := runs_reverse hrun
      exact ⟨paymentId, reason, text, payment, rfl, hreversible, ht⟩

/-! ## What the reversals have to undo -/

/-- The status and the period of a subscription. -/
def standing (sub : Subscription ℤ) : Status × Option ℤ × Option ℤ :=
  (sub.status, sub.currentPeriodStart, sub.currentPeriodEnd)

/-- The period end was granted by a reversed payment, and by nothing else: neither by the
subscription's beginning nor by a payment that stands. -/
def GrantedByReversedOnly (start : Subscription ℤ) (s : Account) : Prop :=
  ∃ «end», s.subscription.currentPeriodEnd = some «end» ∧
    start.currentPeriodEnd ≠ some «end» ∧
    (∃ p ∈ s.payments, p.reversedAt.isSome ∧ p.periodEnd = some «end») ∧
    ∀ p ∈ s.payments, p.reversedAt = none → p.periodEnd ≠ some «end»

/-- The reversals of the payments so far undid what they had to. -/
structure Undone (start : Subscription ℤ) (s : Account) : Prop where
  /-- The current period is not one that only a reversed payment granted. -/
  period : ¬ GrantedByReversedOnly start s
  /-- When every payment is reversed, status and period are those of the beginning. -/
  all : (∀ p ∈ s.payments, p.reversedAt.isSome) → standing s.subscription = standing start

/-! ## When it holds -/

/-- The payment stands, and left the subscription with the status and period of `sub`. -/
def LeftBy (s : Account) (j : ℕ) (sub : Subscription ℤ) : Prop :=
  ∃ payment after, s.payments[j]? = some payment ∧ payment.reversedAt = none ∧
    payment.subscriptionStateAfter = some after ∧ standing (saved after) = standing sub

/-- A reversal that takes effect, of the payment whose period is the current one, goes back to
the beginning or to a payment that stands; and it finds the subscription as the payment left it,
unless the status is the one to go back to already. -/
def InOrder (start : Subscription ℤ) (s : Account) (r : Request) : Prop :=
  ∀ paymentId reason payment before, r.op = .reverse paymentId reason →
    Reversible s paymentId reason payment →
    payment.subscriptionStateBefore = some before →
    s.subscription.currentPeriodEnd = payment.periodEnd →
    (standing (saved before) = standing start ∨ ∃ j ≠ paymentId, LeftBy s j (saved before)) ∧
    (stateMatches (fetched s.subscription) payment.subscriptionStateAfter = true ∨
      s.subscription.status = before.status)

/-- A payment that stands left the subscription as it is, or it is as in the beginning; and
every payment stores the states around its own period. -/
structure Consistent (start : Subscription ℤ) (s : Account) : Prop where
  stored : ∀ payment ∈ s.payments, payment.periodEnd.isSome ∧ ∃ before after,
    payment.subscriptionStateBefore = some before ∧
    payment.subscriptionStateAfter = some after ∧
    payment.periodEnd = (saved after).currentPeriodEnd
  current : standing s.subscription = standing start ∨ ∃ j, LeftBy s j s.subscription

lemma consistent_start (start : Subscription ℤ) : Consistent start ⟨start, []⟩ :=
  ⟨by simp, .inl rfl⟩

lemma standing_end {a b : Subscription ℤ} (h : standing a = standing b) :
    a.currentPeriodEnd = b.currentPeriodEnd :=
  congrArg (fun x => x.2.2) h

/-- What stands when a payment is recorded is that payment. -/
lemma Consistent.record {start : Subscription ℤ} {s : Account} (h : Consistent start s)
    (amount : ℤ) (before : Subscription Stamp) {after : Subscription Stamp}
    (hafter : after.currentPeriodEnd.isSome) :
    Consistent start (s.record amount before after) where
  stored payment hmem := by
    rcases List.mem_append.mp hmem with hold | hnew
    · exact h.stored payment hold
    · rw [List.mem_singleton.mp hnew]
      refine ⟨?_, before, after, rfl, rfl, rfl⟩
      simpa [recordedPayment, saved, Subscription.map] using hafter
  current := by
    right
    refine ⟨s.payments.length, recordedPayment amount before after, after, ?_, rfl, rfl, rfl⟩
    show (s.payments ++ [_])[s.payments.length]? = some _
    simp

/-- A payment other than the reversed one stands as before. -/
lemma leftBy_reverse {s : Account} {now : ℤ} {paymentId j : ℕ} {reason : Text}
    {payment : SubscriptionPayment} {sub sub' : Subscription ℤ} (hj : j ≠ paymentId)
    (hsub : standing sub' = standing sub) :
    LeftBy (s.reverse now paymentId reason payment) j sub' ↔ LeftBy s j sub := by
  have hrow : (s.reverse now paymentId reason payment).payments[j]? = s.payments[j]? :=
    List.getElem?_set_ne hj.symm
  rw [LeftBy, LeftBy, hrow, hsub]

/-- What the reversal leaves of the subscription: all of it when the period of the payment is
not the current one, else the stored period, and the stored status where the stored state is
recognised. -/
lemma standing_reverse {s : Account} {now : ℤ} {paymentId : ℕ} {reason : Text}
    {payment : SubscriptionPayment} {before : Subscription Stamp}
    (hend : payment.periodEnd.isSome) (hbefore : payment.subscriptionStateBefore = some before) :
    standing (s.reverse now paymentId reason payment).subscription =
      if s.subscription.currentPeriodEnd = payment.periodEnd then
        (if stateMatches (fetched s.subscription) payment.subscriptionStateAfter then before.status
          else s.subscription.status, (saved before).currentPeriodStart,
          (saved before).currentPeriodEnd)
      else standing s.subscription := by
  have hread : (fetched s.subscription).currentPeriodEnd.map Stamp.instant =
      s.subscription.currentPeriodEnd := by
    simp [fetched, Subscription.map, Function.comp_def]
  show standing (saved (subscriptionAfterReversal _ payment (fetched s.subscription))) = _
  unfold subscriptionAfterReversal
  rw [hread, hbefore]
  by_cases hcurrent : s.subscription.currentPeriodEnd = payment.periodEnd
  · rw [if_pos ⟨hend, hcurrent⟩, if_pos hcurrent]
    cases hmatch : stateMatches (fetched s.subscription) payment.subscriptionStateAfter <;> rfl
  · rw [if_neg (fun h => hcurrent h.2), if_neg hcurrent, saved_fetched]

/-- A reversal in order leaves the subscription as a payment that stands left it. -/
lemma Consistent.reverse {start : Subscription ℤ} {s : Account} (h : Consistent start s)
    {now : ℤ} {paymentId : ℕ} {reason text : Text} {payment : SubscriptionPayment}
    (hreversible : Reversible s paymentId reason payment)
    (hok : InOrder start s ⟨now, .reverse paymentId reason⟩) :
    Consistent start (s.reverse now paymentId text payment) := by
  have hpayment : s.payments[paymentId]? = some payment := hreversible.2.1
  obtain ⟨hend, before, after, hbefore, hafter, hperiod⟩ :=
    h.stored payment (List.mem_of_getElem? hpayment)
  constructor
  · intro q hq
    rcases List.mem_or_eq_of_mem_set hq with hold | rfl
    · exact h.stored q hold
    · exact ⟨hend, before, after, hbefore, hafter, hperiod⟩
  · have hstanding : standing (s.reverse now paymentId text payment).subscription = _ :=
      standing_reverse hend hbefore
    by_cases hcurrent : s.subscription.currentPeriodEnd = payment.periodEnd
    · -- The stored state is written back; it is one that still counts.
      obtain ⟨hback, hstatus⟩ :=
        hok paymentId reason payment before rfl hreversible hbefore hcurrent
      have hrestored : standing (s.reverse now paymentId text payment).subscription =
          standing (saved before) := by
        rw [hstanding, if_pos hcurrent]
        rcases hstatus with hmatch | hstatus
        · rw [if_pos hmatch]
          rfl
        · rw [hstatus, ite_self]
          rfl
      rw [hrestored]
      refine hback.imp id ?_
      rintro ⟨j, hj, hleft⟩
      exact ⟨j, (leftBy_reverse hj hrestored).mpr hleft⟩
    · -- Another payment is in force, and this one did not leave the current period.
      rw [if_neg hcurrent] at hstanding
      rw [hstanding]
      refine h.current.imp id ?_
      rintro ⟨j, hleft⟩
      refine ⟨j, (leftBy_reverse ?_ hstanding).mpr hleft⟩
      rintro rfl
      obtain ⟨q, qAfter, hq, -, hqAfter, hqLeft⟩ := hleft
      rw [hpayment, Option.some.injEq] at hq
      subst hq
      rw [hafter, Option.some.injEq] at hqAfter
      subst hqAfter
      exact hcurrent (by rw [hperiod, standing_end hqLeft])

/-- One request whose reversal is in order. -/
lemma consistent_step {start : Subscription ℤ} (zone : Zone) {s : Account} {r : Request}
    (hok : InOrder start s r) (h : Consistent start s) : Consistent start (step zone s r) := by
  rcases step_cases zone s r with hsame | ⟨change, amount, hchange, hrecord⟩ |
    ⟨paymentId, reason, text, payment, hop, hreversible, hreverse⟩
  · rw [hsame]
    exact h
  · rw [hrecord]
    exact h.record amount _ (change_bears_period hchange _)
  · obtain ⟨now, op⟩ := r
    subst hop
    rw [hreverse]
    exact h.reverse hreversible hok

/-- A consistent account is one whose reversals undid what they had to. -/
lemma Consistent.undone {start : Subscription ℤ} {s : Account} (h : Consistent start s) :
    Undone start s where
  period := by
    rintro ⟨periodEnd, hcurrent, hstart, -, hgranted⟩
    rcases h.current with hbegin | ⟨j, payment, after, hpayment, hstands, hafter, hleft⟩
    · exact hstart (by rw [← standing_end hbegin, hcurrent])
    · have hmem := List.mem_of_getElem? hpayment
      obtain ⟨-, -, after', -, hafter', hperiod⟩ := h.stored payment hmem
      rw [hafter, Option.some.injEq] at hafter'
      subst hafter'
      exact hgranted payment hmem hstands (by rw [hperiod, standing_end hleft, hcurrent])
  all hall := by
    rcases h.current with hbegin | ⟨j, payment, after, hpayment, hstands, -⟩
    · exact hbegin
    · have hreversed := hall payment (List.mem_of_getElem? hpayment)
      rw [hstands] at hreversed
      exact absurd hreversed Bool.false_ne_true

/-- For every sequence of renewals, extensions and paid activations, and of reversals between
them, all of them in order: no period that only a reversed payment granted is in force, and once
all payments are reversed the subscription has the status and the period of the beginning. -/
theorem reversals_restore (zone : Zone) (start : Subscription ℤ) (requests : List Request)
    (h : Trace.All (step zone) (InOrder start) ⟨start, []⟩ requests) :
    Undone start (Trace.run (step zone) ⟨start, []⟩ requests) := by
  have hrun : Consistent start (Trace.run (step zone) ⟨start, []⟩ requests) :=
    Trace.invariant_of_all (fun s r hok hs => consistent_step zone hok hs)
      (consistent_start start) h
  exact hrun.undone

/-! ### Runs that break it, and one that does not -/

/-- A zone that is a number of hours ahead of UTC all year. -/
def fixedZone (hours : ℤ) : Zone where
  localDateStart date := ⟨date * 86400000000 - hours * 3600000000, hours * 3600000000⟩
  localDate t := (t + hours * 3600000000) / 86400000000
  serverDate t := t / 86400000000

/-- A new business on a trial. -/
def trialSubscription : Subscription ℤ where
  plan := 1
  status := .trial
  billingCycle := .monthly
  trialEndsAt := some (timedeltaDays 14)
  currentPeriodStart := none
  currentPeriodEnd := none
  cancelledAt := none
  notes := []

/-- A custom renewal for the dates. -/
def customRenewal (start «end» : ℤ) : Op :=
  .renew ⟨1, .custom, some start, some «end», 150000, []⟩

/-- A renewal for as long as its type says. -/
def plainRenewal (type : RenewalType) : Op := .renew ⟨1, type, none, none, 150000, []⟩

/-- The reversal of a payment for the reason `dup`. -/
def reversal (paymentId : ℕ) : Op := .reverse paymentId ['d', 'u', 'p']

/-- Two renewals, one after the other. -/
def twoRenewals : List Request :=
  [⟨1000, customRenewal 3 30⟩, ⟨2000, customRenewal 30 60⟩]

/-- Two renewals reversed in the order in which they were recorded leave the first in force; five
hours east of UTC one renewal, reversed, leaves the subscription active; and so do, in UTC, an
annual and a monthly renewal reversed newest first. -/
theorem reversals_do_not_restore :
    ¬ Undone trialSubscription (Trace.run (step (fixedZone 0)) ⟨trialSubscription, []⟩
      (twoRenewals ++ [⟨3000, reversal 0⟩, ⟨4000, reversal 1⟩])) ∧
    ¬ Undone trialSubscription (Trace.run (step (fixedZone 5)) ⟨trialSubscription, []⟩
      [⟨1000, customRenewal 3 30⟩, ⟨2000, reversal 0⟩]) ∧
    ¬ Undone trialSubscription (Trace.run (step (fixedZone 0)) ⟨trialSubscription, []⟩
      [⟨1000, plainRenewal .annual⟩, ⟨2000, plainRenewal .monthly⟩, ⟨3000, reversal 1⟩,
        ⟨4000, reversal 0⟩]) := by
  refine ⟨?_, ?_, ?_⟩
  · intro h
    exact h.period ⟨timedeltaDays 30, by decide +kernel⟩
  · intro h
    exact absurd (h.all (by decide +kernel)) (by decide +kernel)
  · intro h
    exact absurd (h.all (by decide +kernel)) (by decide +kernel)

/-! ## Newest payment first -/

/-- A reversal is of the newest payment that is not reversed. -/
def NewestFirst (s : Account) (r : Request) : Prop :=
  ∀ paymentId reason, r.op = .reverse paymentId reason →
    ∀ payment ∈ s.payments.drop (paymentId + 1), payment.reversedAt.isSome

/-- A renewal leaves the billing cycle. -/
def KeepsCycle (s : Account) (r : Request) : Prop := r.prepared s = fetched s.subscription

/-- The payments that are not reversed. -/
def Account.active (s : Account) : List SubscriptionPayment :=
  s.payments.filter fun p => p.reversedAt.isNone

/-- The payments lead from the beginning to the subscription: each stores exactly what the one
before it left, and what it left itself. -/
inductive Leads (start : Subscription ℤ) : List SubscriptionPayment → Subscription ℤ → Prop
  | nil : Leads start [] start
  | concat {payments : List SubscriptionPayment} {mid sub : Subscription ℤ}
      {payment : SubscriptionPayment} (h : Leads start payments mid)
      (hbefore : payment.subscriptionStateBefore = some (fetched mid))
      (hafter : payment.subscriptionStateAfter = some (fetched sub))
      (hend : payment.periodEnd = sub.currentPeriodEnd) (hsome : payment.periodEnd.isSome) :
      Leads start (payments ++ [payment]) sub

/-- Where the payments lead is the beginning or what one of them left. -/
lemma Leads.start_or_left {start : Subscription ℤ} {payments : List SubscriptionPayment}
    {sub : Subscription ℤ} (h : Leads start payments sub) :
    sub = start ∨ ∃ payment ∈ payments, payment.subscriptionStateAfter = some (fetched sub) := by
  cases h with
  | nil => exact .inl rfl
  | concat _ _ hafter _ _ => exact .inr ⟨_, by simp, hafter⟩

lemma leads_concat_iff {start sub : Subscription ℤ} {payments : List SubscriptionPayment}
    {payment : SubscriptionPayment} :
    Leads start (payments ++ [payment]) sub ↔ ∃ mid, Leads start payments mid ∧
      payment.subscriptionStateBefore = some (fetched mid) ∧
      payment.subscriptionStateAfter = some (fetched sub) ∧
      payment.periodEnd = sub.currentPeriodEnd ∧ payment.periodEnd.isSome := by
  constructor
  · intro h
    generalize hlist : payments ++ [payment] = list at h
    cases h with
    | nil => simp at hlist
    | concat h hbefore hafter hend hsome =>
      obtain ⟨rfl, hlast⟩ := List.append_inj' hlist rfl
      rw [List.singleton_inj.mp hlast]
      exact ⟨_, h, hbefore, hafter, hend, hsome⟩
  · rintro ⟨mid, h, hbefore, hafter, hend, hsome⟩
    exact .concat h hbefore hafter hend hsome

/-- The newest payment that stands is the last of those that stand. -/
lemma active_of_newest {s : Account} {paymentId : ℕ} {payment : SubscriptionPayment}
    (hpayment : s.payments[paymentId]? = some payment) (hstands : payment.reversedAt = none)
    (hnewest : ∀ p ∈ s.payments.drop (paymentId + 1), p.reversedAt.isSome)
    (now : ℤ) (reason : Text) :
    s.active = (s.reverse now paymentId reason payment).active ++ [payment] := by
  obtain ⟨hlt, hget⟩ := List.getElem?_eq_some_iff.mp hpayment
  have hsplit : s.payments =
      s.payments.take paymentId ++ payment :: s.payments.drop (paymentId + 1) := by
    rw [← hget, ← List.drop_eq_getElem_cons hlt, List.take_append_drop]
  have hrest : (s.payments.drop (paymentId + 1)).filter (fun p => p.reversedAt.isNone) = [] := by
    rw [List.filter_eq_nil_iff]
    intro p hp hnone
    have hsome := hnewest p hp
    cases hp' : p.reversedAt <;> simp [hp'] at hnone hsome
  have hmarked : (s.reverse now paymentId reason payment).active =
      (s.payments.take paymentId).filter (fun p => p.reversedAt.isNone) := by
    show (s.payments.set paymentId (payment.markReversed now reason)).filter _ = _
    rw [List.set_eq_take_append_cons_drop, if_pos hlt, List.filter_append, List.filter_cons,
      hrest]
    simp [SubscriptionPayment.markReversed]
  rw [hmarked, Account.active]
  conv_lhs => rw [hsplit]
  rw [List.filter_append, List.filter_cons, hrest]
  simp [hstands]

/-- In UTC a changed subscription reads the same once it has been saved. -/
lemma fetched_saved_change {zone : Zone} (hutc : ∀ date, (zone.localDateStart date).offset = 0)
    {r : Request} {change : Subscription Stamp → Subscription Stamp}
    (h : r.change? zone = some change) (row : Subscription ℤ) :
    fetched (saved (change (fetched row))) = change (fetched row) := by
  have hstart (date : ℤ) :
      (⟨(zone.localDateStart date).instant, 0⟩ : Stamp) = zone.localDateStart date := by
    rw [← hutc date]
  cases hop : r.op <;> simp only [Request.change?, hop, reduceCtorEq, Option.some.injEq] at h <;>
    subst h <;>
    simp [renewedSubscription, extendedSubscription, activatedSubscription, fetched, saved,
      Subscription.map, Function.comp_def, hstart]

section Newest

variable {start : Subscription ℤ} {s : Account} {paymentId : ℕ} {payment : SubscriptionPayment}

/-- The newest payment that stands leads to the subscription, and the others to the state that
is stored with it. -/
lemma Leads.of_newest (h : Leads start s.active s.subscription)
    (hpayment : s.payments[paymentId]? = some payment) (hstands : payment.reversedAt = none)
    (hnewest : ∀ p ∈ s.payments.drop (paymentId + 1), p.reversedAt.isSome) (now : ℤ)
    (text : Text) :
    ∃ mid, Leads start (s.reverse now paymentId text payment).active mid ∧
      payment.subscriptionStateBefore = some (fetched mid) ∧
      payment.subscriptionStateAfter = some (fetched s.subscription) ∧
      payment.periodEnd = s.subscription.currentPeriodEnd ∧ payment.periodEnd.isSome := by
  rw [active_of_newest hpayment hstands hnewest now text] at h
  exact leads_concat_iff.mp h

/-- The reversal of the newest payment that stands goes one step back. -/
lemma Leads.reverse (h : Leads start s.active s.subscription)
    (hpayment : s.payments[paymentId]? = some payment) (hstands : payment.reversedAt = none)
    (hnewest : ∀ p ∈ s.payments.drop (paymentId + 1), p.reversedAt.isSome) (now : ℤ)
    (text : Text) :
    Leads start (s.reverse now paymentId text payment).active
      (s.reverse now paymentId text payment).subscription := by
  obtain ⟨mid, hmid, hbefore, hafter, hend, hsome⟩ :=
    h.of_newest hpayment hstands hnewest now text
  have hread : (fetched s.subscription).currentPeriodEnd.map Stamp.instant =
      payment.periodEnd := by
    rw [hend]
    simp [fetched, Subscription.map, Function.comp_def]
  have hrestored : (s.reverse now paymentId text payment).subscription = mid := by
    show saved (subscriptionAfterReversal _ payment (fetched s.subscription)) = mid
    rw [subscriptionAfterReversal, if_pos ⟨hsome, hread⟩, hbefore]
    simp [hafter, stateMatches, captureSubscriptionState, restoreSubscriptionState]
  rw [hrestored]
  exact hmid

/-- A request that reverses no payment but the newest is in order. -/
lemma Leads.inOrder (h : Leads start s.active s.subscription) {r : Request}
    (hnewest : NewestFirst s r) : InOrder start s r := by
  rintro paymentId reason payment before hop ⟨-, hpayment, hstands⟩ hbefore' -
  obtain ⟨mid, hmid, hbefore, hafter, -, -⟩ :=
    h.of_newest hpayment hstands (hnewest paymentId reason hop) r.now []
  rw [hbefore, Option.some.injEq] at hbefore'
  subst hbefore'
  rw [saved_fetched]
  constructor
  · refine hmid.start_or_left.imp (congrArg standing) ?_
    rintro ⟨q, hq, hqAfter⟩
    obtain ⟨hmem, hqStands⟩ := List.mem_filter.mp hq
    obtain ⟨j, hj⟩ := List.getElem?_of_mem hmem
    have hne : j ≠ paymentId := by
      rintro rfl
      have hmarked : (s.payments.set j (payment.markReversed r.now []))[j]? = some q := hj
      rw [List.getElem?_set_self (List.getElem?_eq_some_iff.mp hpayment).1] at hmarked
      cases hmarked
      exact absurd hqStands (by simp [SubscriptionPayment.markReversed])
    have hleft : LeftBy (s.reverse r.now paymentId [] payment) j mid :=
      ⟨q, fetched mid, hj, by simpa using hqStands, hqAfter, by rw [saved_fetched]⟩
    exact ⟨j, hne, (leftBy_reverse hne rfl).mp hleft⟩
  · left
    simp [hafter, stateMatches, captureSubscriptionState]

/-- One request in UTC: a recorded payment leads on to the changed subscription. -/
lemma Leads.step {zone : Zone} (hutc : ∀ date, (zone.localDateStart date).offset = 0)
    (h : Leads start s.active s.subscription) {r : Request} (hnewest : NewestFirst s r)
    (hcycle : KeepsCycle s r) :
    Leads start (step zone s r).active (step zone s r).subscription := by
  rcases step_cases zone s r with hsame | ⟨change, amount, hchange, hrecord⟩ |
    ⟨paymentId, reason, text, payment, hop, ⟨-, hpayment, hstands⟩, hreverse⟩
  · rw [hsame]
    exact h
  · rw [hcycle] at hrecord
    have hactive (after : Subscription Stamp) :
        (s.record amount (fetched s.subscription) after).active =
          s.active ++ [recordedPayment amount (fetched s.subscription) after] := by
      show (s.payments ++ [_]).filter _ = _
      rw [List.filter_append]
      rfl
    rw [hrecord, hactive]
    refine .concat h rfl ?_ rfl ?_
    · exact congrArg some (fetched_saved_change hutc hchange _).symm
    · simpa [recordedPayment, saved, Subscription.map] using change_bears_period hchange _
  · rw [hreverse]
    exact h.reverse hpayment hstands (hnewest paymentId reason hop) r.now text

end Newest

/-- In a business on UTC, whose renewals leave the billing cycle and whose payments are reversed
newest first, every reversal is in order. -/
theorem newestFirst_inOrder (zone : Zone) (hutc : ∀ date, (zone.localDateStart date).offset = 0)
    (start : Subscription ℤ) (requests : List Request)
    (h : Trace.All (step zone) (fun s r => NewestFirst s r ∧ KeepsCycle s r) ⟨start, []⟩
      requests) :
    Trace.All (step zone) (InOrder start) ⟨start, []⟩ requests := by
  suffices hall : ∀ s : Account, Leads start s.active s.subscription →
      Trace.All (step zone) (fun s r => NewestFirst s r ∧ KeepsCycle s r) s requests →
      Trace.All (step zone) (InOrder start) s requests from
    hall ⟨start, []⟩ .nil h
  clear h
  induction requests with
  | nil => exact fun _ _ _ => trivial
  | cons r requests ih =>
    intro s hleads hnewest
    obtain ⟨⟨hnewest, hcycle⟩, hrest⟩ := hnewest
    exact ⟨hleads.inOrder hnewest, ih _ (hleads.step hutc hnewest hcycle) hrest⟩

/-- Reversed newest first, in UTC, both renewals are undone. -/
theorem twoRenewals_undone :
    Undone trialSubscription (Trace.run (step (fixedZone 0)) ⟨trialSubscription, []⟩
      (twoRenewals ++ [⟨3000, reversal 1⟩, ⟨4000, reversal 0⟩])) := by
  apply reversals_restore
  refine newestFirst_inOrder _ (fun _ => rfl) _ _
    ⟨⟨nofun, rfl⟩, ⟨nofun, rfl⟩, ⟨?_, rfl⟩, ⟨?_, rfl⟩, trivial⟩
  · rintro _ _ ⟨⟩
    decide +kernel
  · rintro _ _ ⟨⟩
    decide +kernel

end NexaPos.Subscriptions
