import NexaPos.Properties.Entitlements
import NexaPos.Subscriptions.Access

/-!
# What a request may do

A request asks the access engine many times, for its own member and for others, and services reached
through it ask again.  The engine keeps contexts and a subscription on the request, so an answer may
come from an earlier moment, but never from the rows of another user, business or membership: what
is kept (`Request.Kept`) comes from the calls of the request so far, and every step keeps that.  A
decision then allows exactly what the rows authorize (`Authorized`).
-/

namespace NexaPos.Subscriptions.Access

/-! ## Requests and what they ask -/

/-- The calls that a request makes, each with the database and the clock at its time. -/
inductive Event
  | attach (world : World)
  | evaluate (world : World) (question : Question) (business : Option Business)
      (membership : Option Membership)
  | actor (world : World) (question : Question) (user : Option ℕ) (business : Option Business)
      (membership : Option Membership)

namespace Event

def world : Event → World
  | attach w => w
  | evaluate w _ _ _ => w
  | actor w _ _ _ _ => w

/-- What a call answers, and the request it leaves. -/
def step (r : Request) : Event → Option AccessDecision × Request
  | attach w => (none, r.attachSubscription w)
  | evaluate w q business membership =>
    ((evaluateAccess w r q business membership).1, (evaluateAccess w r q business membership).2)
  | actor w q user business membership =>
    ((evaluateActorAccess w (some r) user business q membership).1,
      (evaluateActorAccess w (some r) user business q membership).2.getD r)

end Event

/-- The request after some calls. -/
def Request.after (r : Request) (events : List Event) : Request :=
  events.foldl (fun r e => (e.step r).2) r

/-- Who is asked about, and the world at that time. -/
structure Ask where
  world : World
  method : Text
  question : Question
  user : Option ℕ
  business : Option Business
  membership : Option Membership

/-- The primary keys of an ask. -/
def Ask.key (a : Ask) : CacheKey :=
  (a.user, a.business.map Business.pk, a.membership.map Membership.pk)

/-- What a call asks: a service that acts for another user than that of the request asks with a
request of its own. -/
def Event.ask (r : Request) : Event → Option Ask
  | attach _ => none
  | evaluate w q business membership =>
    some ⟨w, r.method, q, r.user, business.or r.business, membership.or r.membership⟩
  | actor w q user business membership =>
    if r.user = user then
      some ⟨w, r.method, q, user, business.or r.business,
        (resolveActorMembership w user business membership (some r)).or r.membership⟩
    else
      some ⟨w, standInMethod q.action, q, user, business,
        resolveActorMembership w user business membership none⟩

/-- The context that the rows give, with the subscriptions of another moment. -/
def memberContext (a : Ask) (subscriptionOf : ℕ → Option Subscription) : AccessContext :=
  match a.user with
  | none =>
    emptyContext (some ⟨.authenticationRequired, "Authentication is required.", none, []⟩) none none
      none
  | some user =>
    match a.business, a.membership with
    | some b, some m =>
      if !m.isActive || m.user ≠ user || m.business ≠ b.pk then
        emptyContext (some ⟨.membershipRequired,
          "The business membership is not active or does not match this user.", none, []⟩)
          a.business a.membership none
      else if !b.isActive then
        emptyContext (some ⟨.businessInactive, "The business is inactive.", none, []⟩) a.business
          a.membership none
      else subscriptionContext a.world a.business a.membership (subscriptionOf b.pk)
    | _, _ =>
      emptyContext
        (some ⟨.membershipRequired, "An active business membership is required.", none, []⟩)
        a.business a.membership none

/-! ## What a request keeps -/

/-- What a request keeps comes from its calls so far, and is about the rows it is kept for. -/
structure Request.Kept (asks : List Ask) (worlds : List World) (r : Request) : Prop where
  subscription : ∀ s, r.subscription = some s → ∃ w ∈ worlds, w.subscriptionOf s.business = some s
  resolved : r.subscriptionResolved = true → ∃ id, r.subscriptionBusinessId = some id ∧
    ∀ b ∈ id, ∃ w ∈ worlds, w.subscriptionOf b = r.subscription
  contexts : ∀ key context, (key, context) ∈ r.contexts → ∃ a ∈ asks, a.key = key ∧
    ∃ w ∈ worlds, context = memberContext a w.subscriptionOf

section Kept

variable {asks asks' : List Ask} {worlds worlds' : List World} {r : Request} {w : World}

lemma Request.Kept.mono (h : r.Kept asks worlds) (hasks : asks ⊆ asks')
    (hworlds : worlds ⊆ worlds') : r.Kept asks' worlds' where
  subscription := fun s hs => by
    obtain ⟨w, hw, hrow⟩ := h.subscription s hs
    exact ⟨w, hworlds hw, hrow⟩
  resolved := fun hr => by
    obtain ⟨id, hid, hrow⟩ := h.resolved hr
    refine ⟨id, hid, fun b hb => ?_⟩
    obtain ⟨w, hw, hrow⟩ := hrow b hb
    exact ⟨w, hworlds hw, hrow⟩
  contexts := fun key context hmem => by
    obtain ⟨a, ha, hkey, w, hw, hcontext⟩ := h.contexts key context hmem
    exact ⟨a, hasks ha, hkey, w, hworlds hw, hcontext⟩

lemma kept_attachSubscription (h : r.Kept asks worlds) (hw : w ∈ worlds) :
    (r.attachSubscription w).Kept asks worlds := by
  unfold Request.attachSubscription
  cases r.business with
  | none =>
    exact ⟨fun _ hs => (nomatch hs), fun _ => ⟨none, rfl, fun _ hb => (nomatch hb)⟩, h.contexts⟩
  | some business =>
    refine ⟨fun s hs => ⟨w, hw, ?_⟩, fun _ => ⟨some business.pk, rfl, fun b hb => ⟨w, hw, ?_⟩⟩,
      h.contexts⟩
    · rw [w.subscription_business hs]
      exact hs
    · rw [← Option.mem_some.mp hb]

/-- The subscription that is loaded is a row of the business, read during the request. -/
lemma loadSubscription_spec (h : r.Kept asks worlds) (hw : w ∈ worlds) (b : Business) :
    (∃ w' ∈ worlds, (loadSubscription w r b).1 = w'.subscriptionOf b.pk) ∧
      (loadSubscription w r b).2.Kept asks worlds ∧
      (loadSubscription w r b).2.contexts = r.contexts := by
  unfold loadSubscription
  dsimp only
  split
  · rename_i candidate hcandidate
    obtain ⟨hsome, hb⟩ := Option.filter_eq_some_iff.mp hcandidate
    obtain ⟨w', hw', hrow⟩ := h.subscription candidate hsome
    have hb : candidate.business = b.pk := by simpa using hb
    exact ⟨⟨w', hw', by rw [← hb, hrow]⟩, h, rfl⟩
  · rename_i hnone
    split
    · rename_i hresolved
      obtain ⟨id, hid, hrows⟩ := h.resolved hresolved.1
      have hb : id = some b.pk := by
        have := hresolved.2
        rwa [hid, Option.getD_some] at this
      obtain ⟨w', hw', hrow⟩ := hrows b.pk hb
      refine ⟨⟨w', hw', ?_⟩, h, rfl⟩
      rw [hrow]
      symm
      rw [← Option.not_isSome_iff_eq_none, Option.isSome_iff_exists]
      rintro ⟨s, hs⟩
      rw [hs] at hrow hnone
      have := w'.subscription_business hrow
      simp [Option.filter, this] at hnone
    · split
      · refine ⟨⟨w, hw, rfl⟩, ⟨fun s hs => ⟨w, hw, ?_⟩, fun _ => ⟨some b.pk, rfl, fun b' hb' =>
          ⟨w, hw, ?_⟩⟩, h.contexts⟩, rfl⟩
        · rw [w.subscription_business hs]
          exact hs
        · rw [← Option.mem_some.mp hb']
      · exact ⟨⟨w, hw, rfl⟩, h, rfl⟩

/-- A context that is not in the cache is what the rows give. -/
lemma computeContext_spec (h : r.Kept asks worlds) (hw : w ∈ worlds) (a : Ask)
    (hworld : a.world = w) (huser : a.user = r.user) :
    (∃ w' ∈ worlds, (computeContext w r a.business a.membership).1 =
      memberContext a w'.subscriptionOf) ∧
      (computeContext w r a.business a.membership).2.Kept asks worlds ∧
      (computeContext w r a.business a.membership).2.contexts = r.contexts := by
  unfold computeContext memberContext
  rw [huser, hworld]
  cases r.user with
  | none => exact ⟨⟨w, hw, rfl⟩, h, rfl⟩
  | some user =>
    cases a.business with
    | none => exact ⟨⟨w, hw, rfl⟩, h, rfl⟩
    | some b =>
      cases a.membership with
      | none => exact ⟨⟨w, hw, rfl⟩, h, rfl⟩
      | some m =>
        dsimp only
        split
        · exact ⟨⟨w, hw, rfl⟩, h, rfl⟩
        · split
          · exact ⟨⟨w, hw, rfl⟩, h, rfl⟩
          · obtain ⟨⟨w', hw', hrow⟩, hkept, hcontexts⟩ := loadSubscription_spec h hw b
            exact ⟨⟨w', hw', by rw [← hrow]⟩, hkept, hcontexts⟩

/-- The caller of a request is not touched. -/
structure Request.SameCaller (r r' : Request) : Prop where
  method : r'.method = r.method
  user : r'.user = r.user
  business : r'.business = r.business
  membership : r'.membership = r.membership

lemma Request.SameCaller.refl : r.SameCaller r := ⟨rfl, rfl, rfl, rfl⟩

lemma Request.SameCaller.trans {r₁ r₂ r₃ : Request} (h₁ : r₁.SameCaller r₂)
    (h₂ : r₂.SameCaller r₃) : r₁.SameCaller r₃ :=
  ⟨h₂.method.trans h₁.method, h₂.user.trans h₁.user, h₂.business.trans h₁.business,
    h₂.membership.trans h₁.membership⟩

lemma Request.SameCaller.ask {r' : Request} (h : r.SameCaller r') (e : Event) :
    e.ask r' = e.ask r := by
  cases e with
  | attach w => rfl
  | evaluate w q business membership =>
    simp only [Event.ask, h.method, h.user, h.business, h.membership]
  | actor w q user business membership =>
    simp only [Event.ask, h.method, h.user, h.business, h.membership, resolveActorMembership,
      Option.bind_some]

lemma sameCaller_loadSubscription (b : Business) : r.SameCaller (loadSubscription w r b).2 := by
  unfold loadSubscription
  dsimp only
  split
  · exact .refl
  · split
    · exact .refl
    · split <;> exact ⟨rfl, rfl, rfl, rfl⟩

lemma sameCaller_computeContext (business : Option Business) (membership : Option Membership) :
    r.SameCaller (computeContext w r business membership).2 := by
  unfold computeContext
  split
  · exact .refl
  · split
    · split
      · exact .refl
      · split
        · exact .refl
        · exact sameCaller_loadSubscription _
    · exact .refl

lemma sameCaller_getAccessContext (business : Option Business) (membership : Option Membership) :
    r.SameCaller (getAccessContext w r business membership).2 := by
  unfold getAccessContext
  dsimp only
  split
  · exact .refl
  · have h := sameCaller_computeContext (w := w) (r := r) (business.or r.business)
      (membership.or r.membership)
    exact ⟨h.method, h.user, h.business, h.membership⟩

/-- The context that the engine answers with is what the rows gave to an ask for the same user,
business and membership. -/
lemma getAccessContext_spec (h : r.Kept asks worlds) (hw : w ∈ worlds) {a : Ask} (ha : a ∈ asks)
    {business : Option Business} {membership : Option Membership} (hworld : a.world = w)
    (huser : a.user = r.user) (hbusiness : a.business = business.or r.business)
    (hmembership : a.membership = membership.or r.membership) :
    (∃ a' ∈ asks, a'.key = a.key ∧ ∃ w' ∈ worlds,
      (getAccessContext w r business membership).1 = memberContext a' w'.subscriptionOf) ∧
      (getAccessContext w r business membership).2.Kept asks worlds := by
  have hkey : a.key = (r.user, (business.or r.business).map Business.pk,
      (membership.or r.membership).map Membership.pk) := by
    rw [Ask.key, huser, hbusiness, hmembership]
  unfold getAccessContext
  dsimp only
  rw [← hkey, ← hbusiness, ← hmembership]
  split
  · rename_i context hcontext
    obtain ⟨before, later, hsplit, -⟩ := List.lookup_eq_some_iff.mp hcontext
    have hmem : (a.key, context) ∈ r.contexts := by
      rw [hsplit]
      exact List.mem_append_right _ List.mem_cons_self
    obtain ⟨a', ha', hsame, w', hw', heq⟩ := h.contexts _ _ hmem
    exact ⟨⟨a', ha', hsame, w', hw', heq⟩, h⟩
  · obtain ⟨⟨w', hw', heq⟩, hkept, hcontexts⟩ := computeContext_spec h hw a hworld huser
    refine ⟨⟨a, ha, rfl, w', hw', heq⟩, hkept.subscription, hkept.resolved,
      fun key context hmem => ?_⟩
    rcases List.mem_cons.mp hmem with hnew | hold
    · obtain ⟨rfl, rfl⟩ := Prod.mk.inj hnew
      exact ⟨a, ha, rfl, w', hw', heq⟩
    · exact hkept.contexts key context hold

end Kept

/-! ## Runs -/

section Runs

variable {asks : List Ask} {worlds : List World} {r : Request}

/-- What a step answers, and what the request keeps after it. -/
structure Answers (asks : List Ask) (worlds : List World) (r : Request) (e : Event) : Prop where
  caller : r.SameCaller (e.step r).2
  kept : (e.step r).2.Kept asks worlds
  decision : ∀ d, (e.step r).1 = some d → ∃ a ∈ e.ask r, ∃ a' ∈ asks, a'.key = a.key ∧
    ∃ w ∈ worlds, d = decideAccess a.method a.question (memberContext a' w.subscriptionOf)

lemma answers_evaluate (h : r.Kept asks worlds) {w : World} (hw : w ∈ worlds) {a : Ask}
    (ha : a ∈ asks) {q : Question} {business : Option Business} {membership : Option Membership}
    (hworld : a.world = w) (huser : a.user = r.user)
    (hbusiness : a.business = business.or r.business)
    (hmembership : a.membership = membership.or r.membership) :
    r.SameCaller (evaluateAccess w r q business membership).2 ∧
      (evaluateAccess w r q business membership).2.Kept asks worlds ∧
      ∃ a' ∈ asks, a'.key = a.key ∧ ∃ w' ∈ worlds, (evaluateAccess w r q business membership).1 =
        decideAccess r.method q (memberContext a' w'.subscriptionOf) := by
  obtain ⟨⟨a', ha', hkey, w', hw', heq⟩, hkept⟩ :=
    getAccessContext_spec h hw ha hworld huser hbusiness hmembership
  have hcaller := sameCaller_getAccessContext (w := w) (r := r) business membership
  refine ⟨hcaller, hkept, a', ha', hkey, w', hw', ?_⟩
  show decideAccess (getAccessContext w r business membership).2.method q
    (getAccessContext w r business membership).1 = _
  rw [hcaller.method, heq]

/-- A request that nothing was kept on. -/
structure Request.Plain (r : Request) : Prop where
  subscription : r.subscription = none
  subscriptionResolved : r.subscriptionResolved = false
  contexts : r.contexts = []

lemma Request.Plain.kept (h : r.Plain) : r.Kept asks worlds where
  subscription := fun s hs => by simp [h.subscription] at hs
  resolved := fun hr => by simp [h.subscriptionResolved] at hr
  contexts := fun key context hmem => by simp [h.contexts] at hmem

lemma answers_step (h : r.Kept asks worlds) {e : Event} (hw : e.world ∈ worlds)
    (ha : ∀ a ∈ e.ask r, a ∈ asks) : Answers asks worlds r e := by
  cases e with
  | attach w =>
    refine ⟨?_, kept_attachSubscription h hw, fun d hd => (nomatch hd)⟩
    show r.SameCaller (r.attachSubscription w)
    unfold Request.attachSubscription
    split <;> exact ⟨rfl, rfl, rfl, rfl⟩
  | evaluate w q business membership =>
    obtain ⟨hcaller, hkept, a', ha', hkey, w', hw', heq⟩ :=
      answers_evaluate h hw (ha _ rfl) rfl rfl rfl rfl (q := q)
    refine ⟨hcaller, hkept, fun d hd => ⟨_, rfl, a', ha', hkey, w', hw', ?_⟩⟩
    rw [← heq]
    exact (Option.some.inj hd).symm
  | actor w q user business membership =>
    by_cases hsame : r.user = user
    · have hask : (Event.actor w q user business membership).ask r = some ⟨w, r.method, q, user,
          business.or r.business,
          (resolveActorMembership w user business membership (some r)).or r.membership⟩ :=
        if_pos hsame
      obtain ⟨hcaller, hkept, a', ha', hkey, w', hw', heq⟩ :=
        answers_evaluate h hw (ha _ hask) rfl hsame.symm rfl rfl (q := q)
      have hstep : (Event.actor w q user business membership).step r =
          (some (evaluateAccess w r q business
            (resolveActorMembership w user business membership (some r))).1,
          (evaluateAccess w r q business
            (resolveActorMembership w user business membership (some r))).2) := by
        simp [Event.step, evaluateActorAccess, Option.filter, hsame]
      refine ⟨by rw [hstep]; exact hcaller, by rw [hstep]; exact hkept, fun d hd =>
        ⟨_, hask, a', ha', hkey, w', hw', ?_⟩⟩
      rw [hstep] at hd
      rw [← heq]
      exact (Option.some.inj hd).symm
    · -- The stand-in is asked once and dropped.
      let standIn : Request :=
        { method := standInMethod q.action, user := user, business := business,
          membership := resolveActorMembership w user business membership none }
      have hplain : standIn.Plain := ⟨rfl, rfl, rfl⟩
      have hask : (Event.actor w q user business membership).ask r = some ⟨w,
          standInMethod q.action, q, user, business,
          resolveActorMembership w user business membership none⟩ := if_neg hsame
      obtain ⟨-, -, a', ha', hkey, w', hw', heq⟩ :=
        answers_evaluate hplain.kept hw (ha _ hask) rfl rfl
          (show business = business.or business by simp)
          (show _ = (resolveActorMembership w user business membership none).or
            (resolveActorMembership w user business membership none) by simp) (q := q)
      have hstep : (Event.actor w q user business membership).step r =
          (some (evaluateAccess w standIn q business
            (resolveActorMembership w user business membership none)).1, r) := by
        simp [Event.step, evaluateActorAccess, Option.filter, hsame, standIn]
      refine ⟨by rw [hstep]; exact .refl, by rw [hstep]; exact h, fun d hd =>
        ⟨_, hask, a', ha', hkey, w', hw', ?_⟩⟩
      rw [hstep] at hd
      rw [← heq]
      exact (Option.some.inj hd).symm

/-- A step answers from what the request keeps and what the step itself reads. -/
lemma answers_after {events : List Event} {e : Event} (hcaller : r.SameCaller (r.after events))
    (hkept : (r.after events).Kept (events.filterMap (Event.ask r)) (events.map Event.world)) :
    Answers ((events ++ [e]).filterMap (Event.ask r)) ((events ++ [e]).map Event.world)
      (r.after events) e := by
  have hgrown : (r.after events).Kept ((events ++ [e]).filterMap (Event.ask r))
      ((events ++ [e]).map Event.world) := by
    rw [List.filterMap_append, List.map_append]
    exact hkept.mono (List.subset_append_left _ _) (List.subset_append_left _ _)
  refine answers_step hgrown (by simp) fun a ha => ?_
  rw [hcaller.ask] at ha
  exact List.mem_filterMap.mpr ⟨e, by simp, ha⟩

/-- In a run from a plain request, every step finds what the request keeps in order. -/
lemma kept_after (hplain : r.Plain) (events : List Event) :
    r.SameCaller (r.after events) ∧
      (r.after events).Kept (events.filterMap (Event.ask r)) (events.map Event.world) := by
  induction events using List.reverseRecOn with
  | nil => exact ⟨.refl, hplain.kept⟩
  | append_singleton events e ih =>
    obtain ⟨hcaller, hkept⟩ := ih
    have hanswers := answers_after (e := e) hcaller hkept
    unfold Request.after at hanswers hcaller ⊢
    rw [List.foldl_append, List.foldl_cons, List.foldl_nil]
    exact ⟨hcaller.trans hanswers.caller, hanswers.kept⟩

/-- Every decision of a run is what the rows of the run give to an ask for the same user, business
and membership. -/
lemma decision_of_run (hplain : r.Plain) (events : List Event) (e : Event) {d : AccessDecision}
    (hd : (e.step (r.after events)).1 = some d) :
    ∃ a ∈ e.ask r, ∃ a' ∈ (events ++ [e]).filterMap (Event.ask r), a'.key = a.key ∧
      ∃ w ∈ (events ++ [e]).map Event.world,
        d = decideAccess a.method a.question (memberContext a' w.subscriptionOf) := by
  obtain ⟨hcaller, hkept⟩ := kept_after hplain events
  have hdecision := (answers_after hcaller hkept).decision d hd
  rwa [hcaller.ask] at hdecision

end Runs

/-! ## What a decision means -/

/-- The rows allow it: an active member of the active business asks, its subscription is in force
and entitles to the modules, the role has the permission, and the object is in scope. -/
structure Authorized (method : Text) (q : Question) (a : Ask) (sub : Subscription) (b : Business)
    (m : Membership) : Prop where
  business : a.business = some b
  membership : a.membership = some m
  user : a.user = some m.user
  own : m.business = b.pk
  activeMember : m.isActive = true
  activeBusiness : b.isActive = true
  activePlan : sub.plan.isActive = true
  mode : (subscriptionMode a.world sub).1 ≠ .denied
  writes : resolveAction method q.action = .write → (subscriptionMode a.world sub).1 = .full
  named : normalizeModuleKeys q.moduleKeys ≠ []
  modules : ∀ key ∈ q.moduleKeys, Entitled featureRegistry sub.plan.features key
  permission : ∀ code ∈ q.permissionCode, code ∈ permissionCodes ∧ m.hasPerm code = true
  scope : q.scopeAllowed = true

section Decisions

variable {method : Text} {q : Question}

lemma mem_effectiveModules (w : World) (plan : Plan) (key : String) :
    key ∈ (resolveModules w plan).effectiveModules ↔
      Entitled featureRegistry plan.features key := by
  obtain ⟨final, hfinal, hentitled⟩ := effectiveModules_eq layered_featureRegistry w.orders
    (Nat.le_refl (featureRegistry.keys.length + 2))
  rw [resolveModules, calculateEffectiveModules, hfinal, Option.map_some, Option.getD_some]
  exact hentitled key

lemma moduleDenial_eq_none {context : AccessContext} {keys : List String} :
    moduleDenial? context keys = none ↔
      ∀ key ∈ keys, key ∈ featureRegistry.keys ∧ key ∈ context.effectiveModules := by
  induction keys with
  | nil => simp [moduleDenial?]
  | cons key keys ih =>
    rw [List.forall_mem_cons, ← ih, ← FeatureRegistry.getModuleDefinition_isSome]
    simp only [moduleDenial?]
    cases featureRegistry.getModuleDefinition key with
    | none => simp
    | some definition =>
      by_cases hkey : key ∈ context.effectiveModules <;> simp [hkey]

lemma allowed_iff {context : AccessContext} :
    (decideAccess method q context).allowed = true ↔
      context.denial = none ∧ normalizeModuleKeys q.moduleKeys ≠ [] ∧
      ¬ (context.mode = .readOnly ∧ resolveAction method q.action = .write) ∧
      moduleDenial? context (normalizeModuleKeys q.moduleKeys) = none ∧
      permissionDenial? context q.permissionCode = none ∧ q.scopeAllowed = true := by
  unfold decideAccess
  dsimp only
  cases context.denial with
  | some denial => simp
  | none =>
    dsimp only
    split
    · rename_i hnone
      simp [hnone]
    · rename_i hsome
      split
      · rename_i hread
        simp [hread]
      · rename_i hwrites
        cases moduleDenial? context (normalizeModuleKeys q.moduleKeys) with
        | some denial => simp
        | none =>
          cases permissionDenial? context q.permissionCode with
          | some denial => simp
          | none =>
            dsimp only
            split
            · rename_i hscope
              have hscope : q.scopeAllowed = false := by simpa using hscope
              simp [hscope]
            · rename_i hscope
              simpa [hsome, hwrites] using hscope

lemma permissionDenial_eq_none {context : AccessContext} {m : Membership}
    (hm : context.membership = some m) {code : Option String} :
    permissionDenial? context code = none ↔
      ∀ c ∈ code, c ∈ permissionCodes ∧ m.hasPerm c = true := by
  cases code with
  | none => simp [permissionDenial?]
  | some c =>
    simp only [permissionDenial?, hm, Option.any_some]
    by_cases hcode : c ∈ permissionCodes <;> simp [hcode]

lemma subscriptionMode_denial {w : World} {sub : Subscription} :
    (subscriptionMode w sub).1 = .denied ↔ (subscriptionMode w sub).2 ≠ none := by
  unfold subscriptionMode
  repeat' split
  all_goals simp

/-- The context that a subscription in force gives. -/
def grantedContext (a : Ask) (sub : Subscription) : AccessContext where
  mode := (subscriptionMode a.world sub).1
  effectiveModules := (resolveModules a.world sub.plan).effectiveModules
  business := a.business
  membership := a.membership
  subscription := some sub
  denial := none
  moduleDenials := (resolveModules a.world sub.plan).denials

lemma subscriptionContext_of_granted {a : Ask} {sub : Subscription}
    (hplan : sub.plan.isActive = true) (hmode : (subscriptionMode a.world sub).1 ≠ .denied) :
    subscriptionContext a.world a.business a.membership (some sub) = grantedContext a sub := by
  simp only [subscriptionContext, hplan, Bool.true_eq_false, if_false]
  rfl

lemma subscriptionContext_denial {a : Ask} {subscription : Option Subscription} :
    (subscriptionContext a.world a.business a.membership subscription).denial = none ↔
      ∃ sub, subscription = some sub ∧ sub.plan.isActive = true ∧
        (subscriptionMode a.world sub).1 ≠ .denied := by
  cases subscription with
  | none => simp [subscriptionContext, emptyContext]
  | some sub =>
    by_cases hplan : sub.plan.isActive = true
    · by_cases hmode : (subscriptionMode a.world sub).1 = .denied
      · have hdenial := subscriptionMode_denial.mp hmode
        obtain ⟨denial, heq⟩ : ∃ denial, subscriptionMode a.world sub = (.denied, denial) :=
          ⟨_, Prod.ext hmode rfl⟩
        rw [heq] at hdenial
        simp [subscriptionContext, emptyContext, hplan, heq, hdenial]
      · rw [subscriptionContext_of_granted hplan hmode]
        exact ⟨fun _ => ⟨sub, rfl, hplan, hmode⟩, fun _ => rfl⟩
    · simp [subscriptionContext, emptyContext, hplan]

/-- The context of a member has no denial exactly when the layers before the modules pass. -/
lemma memberContext_denial {a : Ask} {subscriptionOf : ℕ → Option Subscription} :
    (memberContext a subscriptionOf).denial = none ↔
      ∃ b m sub, a.business = some b ∧ a.membership = some m ∧ a.user = some m.user ∧
        m.business = b.pk ∧ m.isActive = true ∧ b.isActive = true ∧
        subscriptionOf b.pk = some sub ∧ sub.plan.isActive = true ∧
        (subscriptionMode a.world sub).1 ≠ .denied ∧
        memberContext a subscriptionOf = grantedContext a sub := by
  constructor
  · intro hnone
    unfold memberContext at hnone ⊢
    split at hnone
    · simp [emptyContext] at hnone
    · rename_i user huser
      split at hnone
      · rename_i b m hb hm
        split at hnone
        · simp [emptyContext] at hnone
        · rename_i hmember
          split at hnone
          · simp [emptyContext] at hnone
          · rename_i hactive
            obtain ⟨sub, hsub, hplan, hmode⟩ := subscriptionContext_denial.mp hnone
            simp only [Bool.or_eq_true, Bool.not_eq_true', decide_eq_true_eq, not_or,
              Bool.not_eq_false, not_not] at hmember hactive
            obtain ⟨⟨hm', rfl⟩, hown⟩ := hmember
            refine ⟨b, m, sub, hb, hm, huser, hown, hm', hactive, hsub, hplan, hmode, ?_⟩
            simp only [hb, hm, hm', hown, hactive, hsub]
            have := subscriptionContext_of_granted (a := a) hplan hmode
            rw [hb, hm] at this
            simpa using this
      · simp [emptyContext] at hnone
  · rintro ⟨b, m, sub, -, -, -, -, -, -, -, -, -, heq⟩
    rw [heq]
    rfl

/-- A decision on what the rows give allows exactly what the rows authorize. -/
theorem decideAccess_memberContext {a : Ask} {subscriptionOf : ℕ → Option Subscription} :
    (decideAccess method q (memberContext a subscriptionOf)).allowed = true ↔
      ∃ b m sub, subscriptionOf b.pk = some sub ∧ Authorized method q a sub b m := by
  have hkeys : normalizeModuleKeys q.moduleKeys ≠ [] →
      normalizeModuleKeys q.moduleKeys = q.moduleKeys := by
    unfold normalizeModuleKeys
    split
    · exact fun h => absurd rfl h
    · exact fun _ => rfl
  have hmodules : ∀ sub : Subscription,
      moduleDenial? (grantedContext a sub) q.moduleKeys = none ↔
        ∀ key ∈ q.moduleKeys, Entitled featureRegistry sub.plan.features key := by
    intro sub
    rw [moduleDenial_eq_none]
    refine forall₂_congr fun key _ => ?_
    rw [← mem_effectiveModules a.world sub.plan key]
    refine ⟨fun h => h.2, fun h => ⟨?_, h⟩⟩
    obtain ⟨d, hd, rfl, -⟩ := ((mem_effectiveModules a.world sub.plan key).mp h).definition
    exact FeatureRegistry.key_mem_keys hd
  rw [allowed_iff]
  constructor
  · rintro ⟨hdenial, hnamed, hwrites, hmoduleDenial, hpermission, hscope⟩
    obtain ⟨b, m, sub, hb, hm, huser, hown, hactive, hbusiness, hsub, hplan, hmode, heq⟩ :=
      memberContext_denial.mp hdenial
    rw [heq] at hwrites hmoduleDenial hpermission
    rw [hkeys hnamed, hmodules] at hmoduleDenial
    rw [permissionDenial_eq_none hm] at hpermission
    refine ⟨b, m, sub, hsub, hb, hm, huser, hown, hactive, hbusiness, hplan, hmode,
      fun hwrite => ?_, hnamed, hmoduleDenial, hpermission, hscope⟩
    have hnot : (subscriptionMode a.world sub).1 ≠ .readOnly := fun hread => hwrites ⟨hread, hwrite⟩
    cases hcase : (subscriptionMode a.world sub).1 with
    | full => rfl
    | readOnly => exact absurd hcase hnot
    | denied => exact absurd hcase hmode
  · rintro ⟨b, m, sub, hsub, h⟩
    have heq : memberContext a subscriptionOf = grantedContext a sub := by
      have hgranted := subscriptionContext_of_granted (a := a) h.activePlan h.mode
      simp [memberContext, h.user, h.business, h.membership, h.activeMember, h.own,
        h.activeBusiness, hsub] at hgranted ⊢
      exact hgranted
    rw [heq]
    refine ⟨rfl, h.named, ?_, ?_, (permissionDenial_eq_none h.membership).mpr h.permission, h.scope⟩
    · rintro ⟨hread, hwrite⟩
      have hfull := h.writes hwrite
      rw [grantedContext, hfull] at hread
      exact absurd hread (by simp)
    · rw [hkeys h.named, hmodules]
      exact h.modules

end Decisions

section Operational

variable {w : World} {sub : Subscription} {b : Business}

lemma isOperational_of_full (hactive : b.isActive = true)
    (h : (subscriptionMode w sub).1 = .full) : sub.isOperational b w.now = true := by
  unfold subscriptionMode at h
  unfold Subscription.isOperational
  rw [hactive, Bool.true_and]
  split at h
  · rename_i htrial
    split at h
    · exact absurd h (by simp)
    · rename_i trialEnd hend
      split at h
      · exact absurd h (by simp)
      · rename_i hvalid
        simp only [Bool.or_eq_true, Bool.not_eq_true', decide_eq_true_eq, not_or, not_le] at hvalid
        have hkept : ¬ trialEnd < w.now := not_lt.mpr hvalid.2.le
        simp [Subscription.effectiveStatus, htrial, hend, hkept]
  · split at h
    · rename_i hstatus
      rw [hstatus]
    · rename_i hstatus
      rw [hstatus]
    all_goals first | exact absurd h (by simp) | (split at h <;> exact absurd h (by simp))

/-- What is neither full nor denied is read-only, and the platform does not suspend then. -/
lemma suspends_of_readOnly (h : (subscriptionMode w sub).1 = .readOnly) : w.suspends = false := by
  unfold subscriptionMode at h
  split at h
  · split at h
    · exact absurd h (by simp)
    · split at h <;> exact absurd h (by simp)
  · split at h
    all_goals first
      | exact absurd h (by simp)
      | (split at h
         · exact absurd h (by simp)
         · rename_i hsuspends
           simpa using hsuspends)

end Operational

/-- Whatever a request asked before, and whatever the database and the clock did meanwhile, a
decision allows exactly what the rows authorize that were read during the request for the same
user, business and membership. -/
theorem decisions_follow_rows {r : Request} (hplain : r.Plain) (events : List Event) (e : Event)
    {d : AccessDecision} (hd : (e.step (r.after events)).1 = some d) :
    ∃ a ∈ e.ask r, ∃ a' ∈ (events ++ [e]).filterMap (Event.ask r), a'.key = a.key ∧
      ∃ w ∈ (events ++ [e]).map Event.world,
        (d.allowed = true ↔ ∃ b m sub, w.subscriptionOf b.pk = some sub ∧
          Authorized a.method a.question a' sub b m) := by
  obtain ⟨a, ha, a', ha', hkey, w, hw, rfl⟩ := decision_of_run hplain events e hd
  exact ⟨a, ha, a', ha', hkey, w, hw, decideAccess_memberContext⟩

/-- A shop with a sales plan that is paid for, and its owner. -/
def shopWorld : World where
  now := 1000
  suspends := false
  subscriptionOf := fun b => if b = 1 then
    some ⟨1, ⟨true, false, fun field => field = "feature_sales"⟩, .active, none, some 2000, 7⟩
    else none
  memberships := []
  orders := default
  subscription_business := by
    intro b s h
    by_cases hb : b = 1
    · rw [if_pos hb] at h
      rw [← Option.some.inj h, hb]
    · simp [hb] at h

/-- The request of the owner. -/
def shopRequest : Request where
  method := "POST".toList
  user := some 5
  business := some ⟨1, true⟩
  membership := some ⟨9, 5, 1, ⟨true, []⟩, true⟩

/-- The middleware attaches the subscription, and the page looks at the customers. -/
def shopEvents : List Event :=
  [.attach shopWorld, .evaluate shopWorld { moduleKeys := ["customers"] } none none]

/-- The sale that the owner asks for. -/
def saleQuestion : Question := { moduleKeys := ["pos_core"], permissionCode := some "sales.create" }

/-- The question is asked for the member of the request. -/
def saleEvent : Event := .evaluate shopWorld saleQuestion none none

theorem decisions_follow_rows_shop :
    ∃ a ∈ saleEvent.ask shopRequest,
      ∃ a' ∈ (shopEvents ++ [saleEvent]).filterMap (Event.ask shopRequest), a'.key = a.key ∧
        ∃ w ∈ (shopEvents ++ [saleEvent]).map Event.world,
          ((evaluateAccess shopWorld (shopRequest.after shopEvents) saleQuestion none
            none).1.allowed = true ↔ ∃ b m sub, w.subscriptionOf b.pk = some sub ∧
              Authorized a.method a.question a' sub b m) :=
  decisions_follow_rows ⟨rfl, rfl, rfl⟩ shopEvents saleEvent rfl

/-- What the engine allows at the moment of the middleware, the middleware does not turn away. -/
theorem middleware_admits_allowed {r : Request} (hplain : r.Plain) (w : World) (q : Question)
    (hallowed : (evaluateAccess w (r.attachSubscription w) q none none).1.allowed = true)
    (guarded exempt : Bool) : (r.attachSubscription w).isTurnedAway w guarded exempt = false := by
  obtain ⟨a, ha, a', ha', -, w', hw', hdecision⟩ :=
    decision_of_run hplain [.attach w] (.evaluate w q none none) rfl
  obtain rfl : a = ⟨w, r.method, q, r.user, r.business, r.membership⟩ := by
    simpa [Event.ask] using ha.symm
  obtain rfl : a' = ⟨w, r.method, q, r.user, r.business, r.membership⟩ := by
    simpa [Event.ask, eq_comm] using ha'
  obtain rfl : w' = w := by simpa [Event.world] using hw'
  have hrun : (decideAccess r.method q (memberContext ⟨w', r.method, q, r.user, r.business,
      r.membership⟩ w'.subscriptionOf)).allowed = true := by
    rw [← hdecision]
    exact hallowed
  obtain ⟨b, m, sub, hsub, h⟩ := decideAccess_memberContext.mp hrun
  have hbusiness : r.business = some b := h.business
  simp only [Request.attachSubscription, hbusiness, Request.isTurnedAway, hsub]
  by_cases hwrite : resolveAction r.method q.action = .write
  · rw [isOperational_of_full h.activeBusiness (h.writes hwrite)]
    rfl
  · have hsafe : r.method.map Char.toUpper ∈ safeMethods := by
      by_contra hunsafe
      exact hwrite (if_pos hunsafe)
    cases hmode : (subscriptionMode w' sub).1 with
    | denied => exact absurd hmode h.mode
    | full =>
      rw [isOperational_of_full h.activeBusiness hmode]
      rfl
    | readOnly =>
      have hread : r.method ∉ writeMethods := by
        intro hmem
        simp only [writeMethods, List.mem_cons, List.not_mem_nil, or_false] at hmem
        rcases hmem with heq | heq | heq | heq <;> rw [heq] at hsafe <;>
          exact absurd hsafe (by decide +kernel)
      rw [suspends_of_readOnly hmode, Bool.false_or, List.contains_eq_mem,
        decide_eq_false hread, Bool.and_false]

/-- The sales plan entitles to the sale. -/
lemma entitled_posCore :
    Entitled featureRegistry (fun field => field = "feature_sales") "pos_core" := by
  refine .intro (d := { key := "pos_core", label := "POS Core", planField := some "feature_sales" })
    (by decide +kernel) (Or.inl (by decide +kernel)) fun k hk => ?_
  exact absurd hk List.not_mem_nil

theorem middleware_admits_allowed_shop :
    (shopRequest.attachSubscription shopWorld).isTurnedAway shopWorld false false = false := by
  refine middleware_admits_allowed ⟨rfl, rfl, rfl⟩ shopWorld saleQuestion ?_ false false
  have hallowed : (decideAccess shopRequest.method saleQuestion (memberContext ⟨shopWorld,
      shopRequest.method, saleQuestion, shopRequest.user, shopRequest.business,
      shopRequest.membership⟩ shopWorld.subscriptionOf)).allowed = true := by
    refine decideAccess_memberContext.mpr ⟨⟨1, true⟩, ⟨9, 5, 1, ⟨true, []⟩, true⟩, _, rfl, ?_⟩
    refine ⟨rfl, rfl, rfl, rfl, rfl, rfl, rfl, by decide, fun _ => by decide, by decide +kernel,
      List.forall_mem_singleton.mpr entitled_posCore, ?_, rfl⟩
    rintro code ⟨⟩
    exact ⟨by decide +kernel, by decide +kernel⟩
  exact hallowed

end NexaPos.Subscriptions.Access
