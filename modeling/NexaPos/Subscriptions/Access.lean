import NexaPos.Core.Inputs
import NexaPos.Subscriptions.Entitlements
import NexaPos.Subscriptions.Payments

/-!
# The access engine

`evaluate_access` decides what a request may do for a member of a business.  It goes through layers
in order: who asks, the subscription of the business, the modules of its plan, the permission of
the member's role and the scope of the object.  What the first two layers say is kept on the
request, for each user, business and membership, and so is the subscription of the business of the
request.

Rows are read from the database as it is at the time of each call (`World`).  A membership or a
business that a caller hands over is the object it has in memory.
-/

namespace NexaPos.Subscriptions

/-! ## Permissions and rows -/

/-- The codes of `PERMISSIONS`. -/
def permissionCodes : List String :=
  ["dashboard.view", "reports.view", "reports.sales", "reports.financial", "reports.export",
    "profit.view", "cost.view", "sales.view", "sales.create", "sales.void", "sales.delete",
    "sales.refund", "sales.discount", "sales.price_override", "sales.credit",
    "workshop.fabric_actual", "products.view", "products.manage", "products.import",
    "products.archive", "products.delete", "products.export", "inventory.view",
    "inventory.export", "inventory.import", "inventory.adjust", "inventory.adjust_approve",
    "inventory.transfer", "inventory.transfer_approve", "inventory.count", "purchases.view",
    "purchases.manage", "purchases.approve", "suppliers.view", "suppliers.manage",
    "customers.view", "customers.manage", "customers.payments", "customers.export",
    "customers.import", "credit.approve", "expenses.view", "expenses.manage", "expenses.approve",
    "registers.manage", "shifts.open", "shifts.close", "shifts.approve", "shifts.reopen",
    "users.manage", "branches.manage", "settings.manage", "audit.view", "notifications.view",
    "backups.view", "backups.create", "backups.download", "backups.schedule", "backups.pin",
    "backups.restore"]

namespace Access

structure Business where
  pk : ℕ
  isActive : Bool
  deriving DecidableEq, Repr

structure Role where
  isOwner : Bool
  permissions : List String
  deriving DecidableEq, Repr

structure Membership where
  pk : ℕ
  user : ℕ
  business : ℕ
  role : Role
  isActive : Bool
  deriving DecidableEq, Repr

/-- `membership.permission_set`. -/
def Membership.permissionSet (m : Membership) : List String :=
  if m.role.isOwner then permissionCodes else m.role.permissions

/-- `membership.has_perm(code)`. -/
def Membership.hasPerm (m : Membership) (code : String) : Bool := m.permissionSet.contains code

structure Plan where
  isActive : Bool
  allowTrial : Bool
  /-- `bool(getattr(plan, field, False))`. -/
  features : String → Bool

/-- A subscription with its plan, as both loaders select it. -/
structure Subscription where
  business : ℕ
  plan : Plan
  status : Status
  trialEndsAt : Option ℤ
  currentPeriodEnd : Option ℤ
  graceDays : ℕ

namespace Subscription

/-- `subscription.effective_status`. -/
def effectiveStatus (sub : Subscription) (now : ℤ) : Status :=
  match sub.status with
  | .trial => if sub.trialEndsAt.any (· < now) then .expired else .trial
  | .active =>
    match sub.currentPeriodEnd with
    | some periodEnd =>
      if periodEnd < now then
        if now ≤ periodEnd + timedeltaDays sub.graceDays then .grace else .expired
      else .active
    | none => .active
  | status => status

/-- `subscription.is_operational`. -/
def isOperational (sub : Subscription) (business : Business) (now : ℤ) : Bool :=
  business.isActive && match sub.effectiveStatus now with
    | .trial | .active | .grace => true
    | _ => false

end Subscription

/-- What a call reads besides its arguments. -/
structure World where
  /-- `timezone.now()`. -/
  now : ℤ
  /-- `platform_config.expiry_mode` is `SUSPEND`. -/
  suspends : Bool
  /-- `Subscription.objects.filter(business_id=...).first()`. -/
  subscriptionOf : ℕ → Option Subscription
  memberships : List Membership
  /-- The order of the sets of the process. -/
  orders : SetOrder
  subscription_business : ∀ {b s}, subscriptionOf b = some s → s.business = b

/-! ## Contexts -/

/-- `AccessMode`. -/
inductive AccessMode
  | full
  | readOnly
  | denied
  deriving DecidableEq, Repr

/-- `AccessAction`. -/
inductive AccessAction
  | read
  | write
  deriving DecidableEq, Repr

/-- `AccessContext`. -/
structure AccessContext where
  mode : AccessMode
  effectiveModules : Finset String
  business : Option Business
  membership : Option Membership
  subscription : Option Subscription
  denial : Option AccessDenial
  moduleDenials : List (String × AccessDenial)

/-- `_empty_context`. -/
def emptyContext (denial : Option AccessDenial) (business : Option Business)
    (membership : Option Membership) (subscription : Option Subscription) : AccessContext where
  mode := .denied
  effectiveModules := ∅
  business := business
  membership := membership
  subscription := subscription
  denial := denial
  moduleDenials := []

/-- `_subscription_mode`. -/
def subscriptionMode (w : World) (sub : Subscription) : AccessMode × Option AccessDenial :=
  if sub.status = .trial then
    match sub.trialEndsAt with
    | none => (.denied, some ⟨.trialInvalid, "The trial is not valid or has expired.", none, []⟩)
    | some trialEnd =>
      if !sub.plan.allowTrial || trialEnd ≤ w.now then
        (.denied, some ⟨.trialInvalid, "The trial is not valid or has expired.", none, []⟩)
      else (.full, none)
  else
    match sub.effectiveStatus w.now with
    | .active | .grace => (.full, none)
    | .pastDue | .expired | .cancelled =>
      if w.suspends then
        (.denied, some ⟨.subscriptionInactive, "The subscription is not active.", none, []⟩)
      else (.readOnly, none)
    | .suspended =>
      (.denied, some ⟨.subscriptionSuspended, "The subscription is suspended.", none, []⟩)
    | .trial =>
      (.denied, some ⟨.subscriptionInactive,
        "The subscription does not permit application access.", none, []⟩)

/-- `calculate_effective_modules(plan)` for the registry of the program.  The passes are enough
for every plan, so the empty resolution never stands in. -/
def resolveModules (w : World) (plan : Plan) : ModuleResolution :=
  (calculateEffectiveModules featureRegistry w.orders (featureRegistry.keys.length + 2)
    plan.features).getD ⟨∅, ∅, []⟩

/-- The context of a member of an active business, from the subscription that was loaded. -/
def subscriptionContext (w : World) (business : Option Business) (membership : Option Membership)
    (subscription : Option Subscription) : AccessContext :=
  match subscription with
  | none =>
    emptyContext
      (some ⟨.subscriptionMissing, "The business does not have a subscription.", none, []⟩)
      business membership none
  | some sub =>
    if sub.plan.isActive = false then
      emptyContext (some ⟨.planInactive, "The assigned plan is inactive.", none, []⟩) business
        membership (some sub)
    else
      match subscriptionMode w sub with
      | (.denied, denial) => emptyContext denial business membership (some sub)
      | (mode, _) =>
        let resolution := resolveModules w sub.plan
        { mode := mode
          effectiveModules := resolution.effectiveModules
          business := business
          membership := membership
          subscription := some sub
          denial := none
          moduleDenials := resolution.denials }

/-! ## Requests -/

/-- The primary keys of the user, the business and the membership: `_cache_key`. -/
abbrev CacheKey := Option ℕ × Option ℕ × Option ℕ

/-- A request, with the attributes that the engine and its middleware keep on it. -/
structure Request where
  method : Text
  /-- The signed-in user; `none` is an anonymous request. -/
  user : Option ℕ
  business : Option Business
  membership : Option Membership
  subscription : Option Subscription := none
  subscriptionResolved : Bool := false
  /-- `_subscription_business_id`; `none` when the attribute is missing. -/
  subscriptionBusinessId : Option (Option ℕ) := none
  contexts : List (CacheKey × AccessContext) := []

/-- `SubscriptionMiddleware.process_request`. -/
def Request.attachSubscription (r : Request) (w : World) : Request :=
  match r.business with
  | none =>
    { r with
      subscription := none
      subscriptionResolved := true
      subscriptionBusinessId := some none }
  | some business =>
    { r with
      subscription := w.subscriptionOf business.pk
      subscriptionResolved := true
      subscriptionBusinessId := some (some business.pk) }

/-- `WRITE_METHODS` of the middleware. -/
def writeMethods : List Text := ["POST".toList, "PUT".toList, "PATCH".toList, "DELETE".toList]

/-- `SubscriptionMiddleware.process_view` turns the request away: for a view that guards itself, or
one that must keep working, it never does. -/
def Request.isTurnedAway (r : Request) (w : World) (guarded exempt : Bool) : Bool :=
  match r.subscription, r.business with
  | some sub, some business =>
    !sub.isOperational business w.now && !guarded && !exempt &&
      (w.suspends || writeMethods.contains r.method)
  | _, _ => false

/-- `_load_subscription`, with the request it leaves. -/
def loadSubscription (w : World) (r : Request) (business : Business) :
    Option Subscription × Request :=
  let isRequestBusiness := r.business.any (·.pk = business.pk)
  let resolvedBusinessId := r.subscriptionBusinessId.getD (r.business.map Business.pk)
  match r.subscription.filter (·.business = business.pk) with
  | some candidate => (some candidate, r)
  | none =>
    if r.subscriptionResolved ∧ resolvedBusinessId = some business.pk then (none, r)
    else
      let candidate := w.subscriptionOf business.pk
      if isRequestBusiness then
        (candidate, { r with
          subscription := candidate
          subscriptionResolved := true
          subscriptionBusinessId := some (some business.pk) })
      else (candidate, r)

/-- The part of `get_access_context` that computes a context. -/
def computeContext (w : World) (r : Request) (business : Option Business)
    (membership : Option Membership) : AccessContext × Request :=
  match r.user with
  | none =>
    (emptyContext (some ⟨.authenticationRequired, "Authentication is required.", none, []⟩) none
      none none, r)
  | some user =>
    match business, membership with
    | some b, some m =>
      if !m.isActive || m.user ≠ user || m.business ≠ b.pk then
        (emptyContext (some ⟨.membershipRequired,
          "The business membership is not active or does not match this user.", none, []⟩)
          business membership none, r)
      else if !b.isActive then
        (emptyContext (some ⟨.businessInactive, "The business is inactive.", none, []⟩) business
          membership none, r)
      else
        let (subscription, r) := loadSubscription w r b
        (subscriptionContext w business membership subscription, r)
    | _, _ =>
      (emptyContext
        (some ⟨.membershipRequired, "An active business membership is required.", none, []⟩)
        business membership none, r)

/-- `get_access_context`. -/
def getAccessContext (w : World) (r : Request) (business : Option Business)
    (membership : Option Membership) : AccessContext × Request :=
  let business := business.or r.business
  let membership := membership.or r.membership
  let key : CacheKey := (r.user, business.map Business.pk, membership.map Membership.pk)
  match r.contexts.lookup key with
  | some context => (context, r)
  | none =>
    let (context, r) := computeContext w r business membership
    (context, { r with contexts := (key, context) :: r.contexts })

/-! ## Decisions -/

/-- The `action` argument: missing, a member of the enumeration, or another text. -/
inductive ActionArgument
  | missing
  | action (action : AccessAction)
  | text (text : Text)
  deriving DecidableEq, Repr

/-- `AccessDecision`. -/
structure AccessDecision where
  allowed : Bool
  context : AccessContext
  denial : Option AccessDenial := none

/-- `SAFE_METHODS`. -/
def safeMethods : List Text := ["GET".toList, "HEAD".toList, "OPTIONS".toList]

/-- The texts that mean reading. -/
def readTexts : List Text := ["read".toList, "safe".toList, "view".toList]

/-- `_resolve_action`. -/
def resolveAction (method : Text) (action : ActionArgument) : AccessAction :=
  if method.map Char.toUpper ∉ safeMethods then .write
  else
    match action with
    | .action action => action
    | .text text => if text.strip.casefold ∈ readTexts then .read else .write
    | .missing => .read

/-- `_normalize_module_keys`, for keys in a list. -/
def normalizeModuleKeys (keys : List String) : List String :=
  if keys.any fun key => key.toList.all Text.isSpace then [] else keys

/-- The loop of `evaluate_access` over the modules: the first denial. -/
def moduleDenial? (context : AccessContext) : List String → Option AccessDenial
  | [] => none
  | key :: keys =>
    match featureRegistry.getModuleDefinition key with
    | none =>
      some ⟨.unknownModule, "The requested commercial module is not registered.", some key, []⟩
    | some definition =>
      if key ∉ context.effectiveModules then
        some ((context.moduleDenials.lookup key).getD
          ⟨.moduleDisabled, definition.label ++ " is not available.", some key, []⟩)
      else moduleDenial? context keys

/-- The permission layer. -/
def permissionDenial? (context : AccessContext) : Option String → Option AccessDenial
  | none => none
  | some code =>
    if code ∉ permissionCodes then
      some ⟨.permissionDenied, "The required role permission is not registered.", none, []⟩
    else if context.membership.any (·.hasPerm code) = false then
      some ⟨.permissionDenied, "Permission '" ++ code ++ "' is required.", none, []⟩
    else none

/-- What `evaluate_access` is asked besides the business and the membership. -/
structure Question where
  moduleKeys : List String
  permissionCode : Option String := none
  action : ActionArgument := .missing
  scopeAllowed : Bool := true

/-- `evaluate_access`, from the context on. -/
def decideAccess (method : Text) (q : Question) (context : AccessContext) : AccessDecision :=
  let modules := normalizeModuleKeys q.moduleKeys
  let refuse := fun denial => AccessDecision.mk false context (some denial)
  match context.denial with
  | some denial => refuse denial
  | none =>
    if modules = [] then
      refuse ⟨.unknownModule, "At least one registered commercial module is required.", none, []⟩
    else if context.mode = .readOnly ∧ resolveAction method q.action = .write then
      refuse ⟨.subscriptionReadOnly, "The subscription currently permits read-only access.", none,
        []⟩
    else
      match moduleDenial? context modules with
      | some denial => refuse denial
      | none =>
        match permissionDenial? context q.permissionCode with
        | some denial => refuse denial
        | none =>
          if !q.scopeAllowed then
            refuse ⟨.scopeDenied, "The requested object is outside the allowed business scope.",
              none, []⟩
          else { allowed := true, context := context }

/-- `evaluate_access`. -/
def evaluateAccess (w : World) (r : Request) (q : Question) (business : Option Business)
    (membership : Option Membership) : AccessDecision × Request :=
  let (context, r) := getAccessContext w r business membership
  (decideAccess r.method q context, r)

/-! ## Actors of services -/

/-- `_resolve_actor_membership`. -/
def resolveActorMembership (w : World) (user : Option ℕ) (business : Option Business)
    (membership : Option Membership) (request : Option Request) : Option Membership :=
  match (request.bind Request.membership).filter fun m =>
      some m.business = business.map Business.pk ∧ some m.user = user ∧
        membership.all (·.pk = m.pk) with
  | some m => some m
  | none =>
    match business, user with
    | some b, some u =>
      w.memberships.find? fun m => m.business = b.pk && m.user = u && m.isActive &&
        membership.all (·.pk = m.pk)
    | _, _ => none

/-- The method of the stand-in for a request that is missing. -/
def standInMethod : ActionArgument → Text
  | .action .read => "GET".toList
  | .action .write => "POST".toList
  | .text text => if text.strip.casefold ∈ readTexts then "GET".toList else "POST".toList
  | .missing => "POST".toList

/-- `evaluate_actor_access`, with the request it was reached through, if any. -/
def evaluateActorAccess (w : World) (request : Option Request) (user : Option ℕ)
    (business : Option Business) (q : Question) (membership : Option Membership) :
    AccessDecision × Option Request :=
  let authorization := request.filter fun r => r.user = user
  let membership := resolveActorMembership w user business membership authorization
  match authorization with
  | some r =>
    let (decision, r) := evaluateAccess w r q business membership
    (decision, some r)
  | none =>
    let standIn : Request :=
      { method := standInMethod q.action, user := user, business := business,
        membership := membership }
    ((evaluateAccess w standIn q business membership).1, request)

end Access

end NexaPos.Subscriptions
