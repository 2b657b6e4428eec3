import NexaPos.Core.Inputs
import NexaPos.Lib.Transaction

/-!
# Subscription payments and their reversal

A platform administrator renews or extends a subscription and records the payment with it.  Such
a payment keeps the state of the subscription before and after the change, and the reversal of
the payment writes the stored state back.

A datetime is an instant in microseconds in a row of the database; in memory it also has the
offset it is written with, and that is what a stored state keeps.  The time zone of a business is
data of the time zone library, so it is a parameter.
-/

namespace NexaPos.Subscriptions

open Tx

/-! ## The rows -/

/-- An aware datetime: its instant, and the offset its text shows. -/
structure Stamp where
  instant : ℤ
  offset : ℤ
  deriving DecidableEq, Repr

/-- `Subscription.Status`. -/
inductive Status
  | trial
  | active
  | grace
  | pastDue
  | suspended
  | cancelled
  | expired
  deriving DecidableEq, Repr

/-- `Subscription.billing_cycle`. -/
inductive BillingCycle
  | monthly
  | annual
  deriving DecidableEq, Repr

/-- `SUBSCRIPTION_STATE_FIELDS` of a `Subscription`, with datetimes of type `τ`. -/
structure Subscription (τ : Type) where
  plan : ℕ
  status : Status
  billingCycle : BillingCycle
  trialEndsAt : Option τ
  currentPeriodStart : Option τ
  currentPeriodEnd : Option τ
  cancelledAt : Option τ
  notes : Text
  deriving DecidableEq, Repr

/-- The same subscription with its datetimes written in another way. -/
def Subscription.map {τ υ : Type} (f : τ → υ) (sub : Subscription τ) : Subscription υ where
  plan := sub.plan
  status := sub.status
  billingCycle := sub.billingCycle
  trialEndsAt := sub.trialEndsAt.map f
  currentPeriodStart := sub.currentPeriodStart.map f
  currentPeriodEnd := sub.currentPeriodEnd.map f
  cancelledAt := sub.cancelledAt.map f
  notes := sub.notes

/-- A subscription read from its row: the database answers in UTC. -/
def fetched (row : Subscription ℤ) : Subscription Stamp := row.map fun t => ⟨t, 0⟩

/-- `sub.save()`: the row keeps the instants. -/
def saved (sub : Subscription Stamp) : Subscription ℤ := sub.map Stamp.instant

@[simp] lemma saved_fetched (row : Subscription ℤ) : saved (fetched row) = row := by
  cases row
  simp [saved, fetched, Subscription.map, Function.comp_def]

/-- `capture_subscription_state`: the texts of the datetimes show instant and offset. -/
def captureSubscriptionState (sub : Subscription Stamp) : Subscription Stamp := sub

/-- `SubscriptionPayment`; the empty stored state of older rows is `none`. -/
structure SubscriptionPayment where
  amount : ℤ
  periodStart : Option ℤ
  periodEnd : Option ℤ
  reversedAt : Option ℤ
  reversalReason : Text
  subscriptionStateBefore : Option (Subscription Stamp)
  subscriptionStateAfter : Option (Subscription Stamp)
  deriving DecidableEq, Repr

/-- A subscription and its payments in the order they were created. -/
structure Account where
  subscription : Subscription ℤ
  payments : List SubscriptionPayment
  deriving DecidableEq, Repr

/-- The errors of the forms and of the reversal service. -/
inductive SubscriptionError
  | form (field message : String)
  | notFound
  | reversalReasonRequired
  | alreadyReversed
  deriving DecidableEq, Repr

/-- A transaction of the platform administration. -/
abbrev Action (α : Type) := Tx Account SubscriptionError α

/-- What `zoneinfo` and the clock of the server say about dates. -/
structure Zone where
  /-- `local_date_start`: midnight of a date in the time zone of the business. -/
  localDateStart : ℤ → Stamp
  /-- The date of an instant in the time zone of the business. -/
  localDate : ℤ → ℤ
  /-- `timezone.localdate()` of an instant. -/
  serverDate : ℤ → ℤ

/-! ## Recording payments -/

/-- `record_subscription_payment`, for a payment that bears a period. -/
def recordSubscriptionPayment (amount : ℤ) (periodStart periodEnd : Option Stamp)
    (before after : Subscription Stamp) : Action Unit :=
  modify fun s => { s with
    payments := s.payments ++ [{
      amount := amount
      periodStart := periodStart.map Stamp.instant
      periodEnd := periodEnd.map Stamp.instant
      reversedAt := none
      reversalReason := []
      subscriptionStateBefore := some before
      subscriptionStateAfter := some after }] }

/-- Microseconds of `timedelta(days=days)`. -/
def timedeltaDays (days : ℕ) : ℤ := days * 86400000000

/-- `SubscriptionRenewalForm.renewal_type`. -/
inductive RenewalType
  | monthly
  | annual
  | custom
  deriving DecidableEq, Repr

/-- The fields of `SubscriptionRenewalForm`; amounts are in thousandths. -/
structure SubscriptionRenewalForm where
  plan : ℕ
  renewalType : RenewalType
  startDate : Option ℤ
  endDate : Option ℤ
  paymentAmount : ℤ
  notes : Text
  deriving DecidableEq, Repr

/-- `DecimalField(min_value=..., decimal_places=3, max_digits=14)`. -/
def cleanAmount (field : String) (least amount : ℤ) : Except SubscriptionError Unit :=
  if amount < least then
    .error (.form field "Ensure this value is greater than or equal to the minimum.")
  else if amount < 10 ^ 14 then .ok ()
  else .error (.form field "Ensure that there are no more than 14 digits in total.")

/-- `SubscriptionRenewalForm.clean`. -/
def SubscriptionRenewalForm.clean (form : SubscriptionRenewalForm) :
    Except SubscriptionError Unit := do
  cleanAmount "payment_amount" 0 form.paymentAmount
  if form.renewalType = .custom ∧ form.endDate = none then
    throw (.form "end_date" "End date is required for a custom renewal.")
  match form.startDate, form.endDate with
  | some start, some «end» =>
    if «end» ≤ start then throw (.form "end_date" "End date must be after the start date.")
    else pure ()
  | _, _ => pure ()

/-- `default_renewal_start`. -/
def defaultRenewalStart (zone : Zone) (now : ℤ) (sub : Subscription Stamp) : ℤ :=
  match sub.currentPeriodEnd with
  | some periodEnd =>
    if now < periodEnd.instant then zone.localDate periodEnd.instant else zone.serverDate now
  | none => zone.serverDate now

/-- The end date of a renewal that starts on `start`. -/
def renewalEndDate (form : SubscriptionRenewalForm) (start : ℤ) : ℤ :=
  match form.endDate with
  | some endDate => endDate
  | none => if form.renewalType = .annual then start + 365 else start + 30

/-- The billing cycle is set by the type of the renewal; a custom renewal leaves it. -/
def withBillingCycle (form : SubscriptionRenewalForm) (sub : Subscription Stamp) :
    Subscription Stamp :=
  match form.renewalType with
  | .monthly => { sub with billingCycle := .monthly }
  | .annual => { sub with billingCycle := .annual }
  | .custom => sub

/-- The subscription as the renewal leaves it in memory. -/
def renewedSubscription (zone : Zone) (now : ℤ) (form : SubscriptionRenewalForm)
    (sub : Subscription Stamp) : Subscription Stamp :=
  let startDate := form.startDate.getD (defaultRenewalStart zone now sub)
  { sub with
    plan := form.plan
    status := .active
    trialEndsAt := none
    currentPeriodStart := some (zone.localDateStart startDate)
    currentPeriodEnd := some (zone.localDateStart (renewalEndDate form startDate))
    notes := form.notes }

/-- The subscription is changed in memory and saved, and the payment keeps both states.  What is
prepared is in memory before the first of them is captured. -/
def changeAndRecord (prepare change : Subscription Stamp → Subscription Stamp)
    (amount? : Option ℤ) : Action Unit := do
  let s ← get
  let sub := prepare (fetched s.subscription)
  let before := captureSubscriptionState sub
  let changed := change sub
  let after := captureSubscriptionState changed
  modify fun s => { s with subscription := saved changed }
  match amount? with
  | some amount =>
    recordSubscriptionPayment amount changed.currentPeriodStart changed.currentPeriodEnd
      before after
  | none => pure ()

/-- `business_action` with the action `renew`. -/
def renew (zone : Zone) (now : ℤ) (form : SubscriptionRenewalForm) : Action Unit := do
  reads fun _ => form.clean
  changeAndRecord (withBillingCycle form) (renewedSubscription zone now form)
    (some form.paymentAmount)

/-- The subscription as the extension leaves it in memory. -/
def extendedSubscription (now : ℤ) (days : ℕ) (newPlan : Option ℕ) (sub : Subscription Stamp) :
    Subscription Stamp :=
  let base := max ((sub.currentPeriodEnd.map Stamp.instant).getD now) now
  { sub with
    plan := newPlan.getD sub.plan
    currentPeriodStart := some ⟨now, 0⟩
    currentPeriodEnd := some ⟨base + timedeltaDays days, 0⟩
    status := .active }

/-- `MAX_SUBSCRIPTION_DAYS`. -/
def maxSubscriptionDays : ℕ := 365000

/-- An integer field between 1 and `MAX_SUBSCRIPTION_DAYS`. -/
def cleanDays (days : ℕ) : Except SubscriptionError Unit :=
  if days < 1 then
    .error (.form "days" "Ensure this value is greater than or equal to 1.")
  else if days ≤ maxSubscriptionDays then .ok ()
  else .error (.form "days" "Ensure this value is less than or equal to 365000.")

/-- An amount that may be left out. -/
def cleanOptionalAmount (least : ℤ) (amount? : Option ℤ) : Except SubscriptionError Unit :=
  match amount? with
  | some amount => cleanAmount "amount" least amount
  | none => pure ()

/-- `business_action` with the action `extend`: no payment is recorded without an amount. -/
def extend (now : ℤ) (days : ℕ) (newPlan : Option ℕ) (amount? : Option ℤ) : Action Unit := do
  reads fun _ => cleanDays days
  reads fun _ => cleanOptionalAmount 1 amount?
  changeAndRecord id (extendedSubscription now days newPlan) amount?

/-- The new subscription of a business that is created on a paid plan. -/
def activatedSubscription (now : ℤ) (days? : Option ℕ) (sub : Subscription Stamp) :
    Subscription Stamp :=
  { sub with
    status := .active
    currentPeriodStart := some ⟨now, 0⟩
    currentPeriodEnd := some ⟨now + timedeltaDays (days?.getD 30), 0⟩ }

/-- `business_create` in the mode `active`: an amount of zero records no payment. -/
def createActive (now : ℤ) (days? : Option ℕ) (amount? : Option ℤ) : Action Unit := do
  reads fun _ => (days?.map cleanDays).getD (.ok ())
  changeAndRecord id (activatedSubscription now days?) (amount?.filter (· ≠ 0))

/-! ## Reversing a payment -/

/-- `_state_matches`. -/
def stateMatches (sub : Subscription Stamp) (expected : Option (Subscription Stamp)) : Bool :=
  match expected with
  | none => false
  | some expected => captureSubscriptionState sub = expected

/-- `_restore_subscription_state`: the period alone, or every field of the stored state. -/
def restoreSubscriptionState (sub state : Subscription Stamp) (periodOnly : Bool) :
    Subscription Stamp :=
  if periodOnly then
    { sub with
      currentPeriodStart := state.currentPeriodStart
      currentPeriodEnd := state.currentPeriodEnd }
  else state

/-- The later of two payments in the order by `-period_end`, `-created_at`. -/
def laterPeriod (best : Option SubscriptionPayment) (p : SubscriptionPayment) :
    Option SubscriptionPayment :=
  match best with
  | none => some p
  | some q => if q.periodEnd.getD 0 ≤ p.periodEnd.getD 0 then some p else some q

/-- `latest_period_payment`: the payments that are not reversed and bear a period. -/
def latestPeriodPayment (payments : List SubscriptionPayment) : Option SubscriptionPayment :=
  (payments.filter fun p => p.reversedAt.isNone && p.periodEnd.isSome).foldl laterPeriod none

/-- What the reversal of a payment leaves of a subscription, once the payment is marked. -/
def subscriptionAfterReversal (payments : List SubscriptionPayment)
    (payment : SubscriptionPayment) (sub : Subscription Stamp) : Subscription Stamp :=
  if payment.periodEnd.isSome ∧
      sub.currentPeriodEnd.map Stamp.instant = payment.periodEnd then
    match payment.subscriptionStateBefore with
    | some before =>
      let restoreFullState := stateMatches sub payment.subscriptionStateAfter
      restoreSubscriptionState sub before (!restoreFullState)
    | none =>
      match latestPeriodPayment payments with
      | some latest =>
        { sub with
          currentPeriodStart := latest.periodStart.map (⟨·, 0⟩)
          currentPeriodEnd := latest.periodEnd.map (⟨·, 0⟩) }
      | none =>
        { sub with
          currentPeriodStart := none
          currentPeriodEnd := payment.periodStart.map (⟨·, 0⟩) }
  else sub

/-- The payment as its reversal leaves it. -/
def SubscriptionPayment.markReversed (payment : SubscriptionPayment) (now : ℤ) (reason : Text) :
    SubscriptionPayment :=
  { payment with reversedAt := some now, reversalReason := reason.take 400 }

/-- `SubscriptionPayment.objects.select_for_update().get(pk=payment_id)`. -/
def getPayment (s : Account) (paymentId : ℕ) : Except SubscriptionError SubscriptionPayment :=
  match s.payments[paymentId]? with
  | some payment => .ok payment
  | none => .error .notFound

/-- `reverse_subscription_payment`. -/
def reverseSubscriptionPayment (now : ℤ) (paymentId : ℕ) (reason : Text) : Action Unit := do
  let reason := Text.strip reason
  check (!reason.isEmpty) .reversalReasonRequired
  let payment ← reads fun s => getPayment s paymentId
  check payment.reversedAt.isNone .alreadyReversed
  modify fun s =>
    let payments := s.payments.set paymentId (payment.markReversed now reason)
    { payments := payments
      subscription := saved (subscriptionAfterReversal payments payment (fetched s.subscription)) }

/-- `subscription_payment_reverse`: the form strips the reason and limits its length. -/
def subscriptionPaymentReverse (now : ℤ) (paymentId : ℕ) (reversalReason : Text) :
    Action Unit := do
  let reason := Text.strip reversalReason
  check (!reason.isEmpty) (.form "reversal_reason" "This field is required.")
  check (reason.length ≤ 400)
    (.form "reversal_reason" "Ensure this value has at most 400 characters.")
  reverseSubscriptionPayment now paymentId reason

/-! ## Sequences of requests -/

/-- A request that records a payment with a period, or reverses one. -/
inductive Op
  | renew (form : SubscriptionRenewalForm)
  | extend (days : ℕ) (newPlan : Option ℕ) (amount : ℤ)
  | createActive (days? : Option ℕ) (amount : {a : ℤ // 0 < a})
  | reverse (paymentId : ℕ) (reason : Text)
  deriving DecidableEq, Repr

/-- A request and the time it arrives. -/
structure Request where
  now : ℤ
  op : Op
  deriving DecidableEq, Repr

/-- The transaction of a request. -/
def Request.action (zone : Zone) (r : Request) : Action Unit :=
  match r.op with
  | .renew form => Subscriptions.renew zone r.now form
  | .extend days newPlan amount => Subscriptions.extend r.now days newPlan (some amount)
  | .createActive days? amount => Subscriptions.createActive r.now days? (some amount.1)
  | .reverse paymentId reason => subscriptionPaymentReverse r.now paymentId reason

/-- One request; one that fails changes nothing. -/
def step (zone : Zone) (s : Account) (r : Request) : Account := commit (r.action zone) s

end NexaPos.Subscriptions
