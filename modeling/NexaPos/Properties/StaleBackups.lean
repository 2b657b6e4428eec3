import NexaPos.Backups.LiveTenant
import NexaPos.Lib.Transaction
import Mathlib.Algebra.Order.BigOperators.Group.List

/-!
# A backup under ordinary use

Ordinary use changes only what a restore replaces, and still the restore compares a field that
every request of a member may change: the last activity of the membership.  Activity only ever
gets later, so a backup is accepted exactly when none was recorded for the business since.
-/

namespace NexaPos.Backups

open NexaPos.Accounts

variable {business : ℕ} {urls : UrlSettings}

/-! ## Activity gets later -/

/-- The sum of the last activities. -/
def totalActivity (memberships : List Membership) : ℕ := (memberships.map (·.activity)).sum

/-- The request is no activity in the business: it acts in another one or in none, it belongs to
a support session, it goes to a platform or asset page, or the last activity of the acting member
is less than a minute old. -/
def QuietRequest (urls : UrlSettings) (business : ℕ) (a : AccountTables) (r : Request)
    (now : ℕ) : Prop :=
  ∀ user ∈ (a.supportSession r).1, ∀ m ∈ a.membership r user, m.business = business →
    (a.supportSession r).2.isSome = true ∨ urls.ignores r.pathInfo = true ∨
      ∃ t ∈ m.lastActivityAt, now < t + activityInterval

instance (a : AccountTables) (r : Request) (now : ℕ) :
    Decidable (QuietRequest urls business a r now) :=
  inferInstanceAs (Decidable (∀ user ∈ (a.supportSession r).1, ∀ m ∈ a.membership r user,
    m.business = business → (a.supportSession r).2.isSome = true ∨
      urls.ignores r.pathInfo = true ∨ ∃ t ∈ m.lastActivityAt, now < t + activityInterval))

/-- The request of the visit, if it has one, is no activity in the business. -/
def Quiet (urls : UrlSettings) (s : LiveSite) (v : Visit business) : Prop :=
  ∀ r ∈ v.request, QuietRequest urls business s.accounts r v.now

instance (s : LiveSite) (v : Visit business) : Decidable (Quiet urls s v) :=
  inferInstanceAs (Decidable (∀ r ∈ v.request, QuietRequest urls business s.accounts r v.now))

lemma filter_marked (memberships : List Membership) (m : Membership) (user : User) (now : ℕ) :
    (memberships.map fun x => x.marked m user now).filter (·.business == business) =
      (memberships.filter (·.business == business)).map fun x => x.marked m user now := by
  rw [List.filter_map]
  congr 1
  refine List.filter_congr fun x _ => ?_
  simp

lemma totalActivity_lt_marked {memberships : List Membership} {m : Membership} {user : User}
    {now : ℕ} (h : ∃ x ∈ memberships, x.due m user now = true) :
    totalActivity memberships < totalActivity (memberships.map fun x => x.marked m user now) := by
  obtain ⟨x, hx, hdue⟩ := h
  rw [totalActivity, totalActivity, List.map_map]
  exact List.sum_lt_sum _ _ (fun x _ => x.activity_le_marked m user now)
    ⟨x, hx, Membership.activity_lt_of_due hdue⟩

/-- Rows that are not due stay as they are. -/
lemma map_marked_eq_self {memberships : List Membership} {m : Membership} {user : User} {now : ℕ}
    (h : ∀ x ∈ memberships, x.due m user now = false) :
    (memberships.map fun x => x.marked m user now) = memberships := by
  refine (List.map_congr_left fun x hx => ?_).trans (List.map_id _)
  rw [Membership.marked, if_neg (by simp [h x hx]), id]

/-- A quiet request leaves the memberships of the business alone. -/
lemma membershipsOf_quiet {s : LiveSite} {r : Request} {now : ℕ}
    (h : QuietRequest urls business s.accounts r now) :
    (s.recordActivity urls r now).membershipsOf business = s.membershipsOf business := by
  show (s.accounts.recordActivity urls r now).memberships.filter _ = _
  rcases recordActivity_cases s.accounts urls r now with hsame | ⟨m, user, huser, hm, hmarked⟩
  · rw [hsame]
    rfl
  by_cases hbusiness : m.business = business
  · -- the acting member is one of the business, and then the middleware stops before the update
    have hstop : s.accounts.recordActivity urls r now = s.accounts := by
      have hbind : (s.accounts.supportSession r).1.bind (s.accounts.membership r) = some m := by
        rw [huser]
        exact hm
      have hcases := h user huser m hm hbusiness
      unfold AccountTables.recordActivity recordMembershipActivity
      simp only [huser, Option.bind_some, hm]
      rcases hcases with hadmin | hpath | ⟨t, ht, hnow⟩
      · simp [hadmin]
      · simp [hpath]
      · have ht : m.lastActivityAt = some t := ht
        rw [ht, Option.any_some, decide_eq_true hnow]
        split
        · rfl
        · split <;> rfl
    rw [hstop]
    rfl
  · rw [hmarked, filter_marked]
    refine map_marked_eq_self fun x hx => ?_
    rw [Bool.eq_false_iff]
    intro hd
    have hxb : x.business = business := by simpa using (List.mem_filter.mp hx).2
    exact hbusiness ((Membership.business_of_due hd).symm.trans hxb)

/-- A request that is not quiet makes the activity of the acting member later. -/
lemma totalActivity_lt_of_not_quiet {s : LiveSite} {r : Request} {now : ℕ}
    (h : ¬ QuietRequest urls business s.accounts r now) :
    totalActivity (s.membershipsOf business) <
      totalActivity ((s.recordActivity urls r now).membershipsOf business) := by
  simp only [QuietRequest, not_forall, not_or, not_exists, not_and] at h
  obtain ⟨user, huser, m, hm, hbusiness, hadmin, hpath, hlate⟩ := h
  have huser : (s.accounts.supportSession r).1 = some user := huser
  have hm : s.accounts.membership r user = some m := hm
  obtain ⟨hmem, hpk, hactive⟩ := AccountTables.of_membership hm
  have hsigned := AccountTables.isActive_of_supportSession huser
  have hlast : m.lastActivityAt.any (fun t => decide (now < t + activityInterval)) = false := by
    cases hlast : m.lastActivityAt with
    | none => rfl
    | some t =>
      rw [Option.any_some]
      exact decide_eq_false (hlate t hlast)
  have hmarked : s.accounts.recordActivity urls r now =
      { s.accounts with
        memberships := s.accounts.memberships.map fun x => x.marked m user now } := by
    unfold AccountTables.recordActivity recordMembershipActivity
    simp only [huser, Option.bind_some, hm, hlast]
    simp [hsigned, hactive, hpk, hadmin, hpath]
  have hdue : m.due m user now = true := by
    simp only [Membership.due, hactive, hpk, beq_self_eq_true, Bool.and_self, Bool.true_and]
    cases hlast : m.lastActivityAt with
    | none => rfl
    | some t =>
      rw [Option.all_some]
      exact decide_eq_true (Nat.not_lt.mp (hlate t hlast))
  show _ < totalActivity ((s.accounts.recordActivity urls r now).memberships.filter _)
  rw [hmarked, filter_marked]
  exact totalActivity_lt_marked ⟨m, List.mem_filter.mpr ⟨hmem, by simpa using hbusiness⟩, hdue⟩

/-- One visit. -/
lemma membershipsOf_serve (s : LiveSite) (v : Visit business) :
    (Quiet urls s v ∧ (serve urls s v).membershipsOf business = s.membershipsOf business) ∨
    (¬ Quiet urls s v ∧ totalActivity (s.membershipsOf business) <
      totalActivity ((serve urls s v).membershipsOf business)) := by
  rw [serve, v.change.memberships, Quiet]
  cases v.request with
  | none => exact .inl ⟨fun m hm => absurd hm (Option.not_mem_none m), rfl⟩
  | some r =>
    simp only [Option.mem_some_iff, forall_eq', Option.elim_some]
    by_cases hquiet : QuietRequest urls business s.accounts r v.now
    · exact .inl ⟨hquiet, membershipsOf_quiet hquiet⟩
    · exact .inr ⟨hquiet, totalActivity_lt_of_not_quiet hquiet⟩

lemma totalActivity_run (s : LiveSite) (visits : List (Visit business)) :
    totalActivity (s.membershipsOf business) ≤
      totalActivity ((Trace.run (serve urls) s visits).membershipsOf business) := by
  induction visits generalizing s with
  | nil => exact Nat.le_refl _
  | cons v visits ih =>
    have hrest := ih (serve urls s v)
    rw [Trace.run_cons]
    rcases @membershipsOf_serve business urls s v with ⟨-, hsame⟩ | ⟨-, hlt⟩
    · rwa [hsame] at hrest
    · omega

/-- A run: the memberships stay when every visit is quiet, and otherwise activity got later. -/
lemma membershipsOf_run (s : LiveSite) (visits : List (Visit business)) :
    (Trace.All (serve urls) (Quiet urls) s visits ∧
      (Trace.run (serve urls) s visits).membershipsOf business = s.membershipsOf business) ∨
    (¬ Trace.All (serve urls) (Quiet urls) s visits ∧ totalActivity (s.membershipsOf business) <
      totalActivity ((Trace.run (serve urls) s visits).membershipsOf business)) := by
  induction visits generalizing s with
  | nil => exact .inl ⟨trivial, rfl⟩
  | cons v visits ih =>
    rw [Trace.run_cons, Trace.all_cons]
    rcases @membershipsOf_serve business urls s v with ⟨hquiet, hsame⟩ | ⟨hloud, hlt⟩
    · rcases ih (serve urls s v) with ⟨hall, hrun⟩ | ⟨hnot, hlt⟩
      · exact .inl ⟨⟨hquiet, hall⟩, hrun.trans hsame⟩
      · rw [hsame] at hlt
        exact .inr ⟨fun h => hnot h.2, hlt⟩
    · have hle := @totalActivity_run business urls (serve urls s v) visits
      exact .inr ⟨fun h => hloud h.1, by omega⟩

/-! ## The other rows -/

lemma other_run (s : LiveSite) (visits : List (Visit business)) {key : ComponentKey}
    (hkey : nonMutating key = true) {m : ModelLabel} (hm : m ∈ modelsOf key) :
    ofModel (Trace.run (serve urls) s visits).other.rows m = ofModel s.other.rows m := by
  induction visits generalizing s with
  | nil => rfl
  | cons v visits ih =>
    rw [Trace.run_cons, ih, serve, v.change.compared _ key hkey m hm]
    cases v.request <;> rfl

/-! ## The comparison -/

/-- The rows of a business are identified by their keys. -/
lemma LiveSite.nodup_tenant (s : LiveSite) (business : ℕ) :
    ((s.tenant business).map (·.key)).Nodup := by
  rw [LiveSite.tenant, List.map_append, List.nodup_append, List.map_map]
  refine ⟨?_, s.other.distinct, ?_⟩
  · have hids : ((s.membershipsOf business).map (·.publicId)).Nodup :=
      s.distinct.sublist (List.filter_sublist.map _)
    have hkeys : (s.membershipsOf business).map ((·.key) ∘ membershipRecord) =
        ((s.membershipsOf business).map (·.publicId)).map fun i => (ModelLabel.membership, i) := by
      rw [List.map_map]
      rfl
    rw [hkeys]
    exact hids.map fun i j h => (Prod.mk.inj h).2
  · rintro _ hm _ ho rfl
    obtain ⟨m, -, hm⟩ := List.mem_map.mp hm
    obtain ⟨r, hr, ho⟩ := List.mem_map.mp ho
    exact s.other.noMembership r hr (Prod.mk.inj (ho.trans hm.symm)).1

lemma ofModel_tenant_membership (s : LiveSite) :
    ofModel (s.tenant business) .membership = (s.membershipsOf business).map membershipRecord := by
  have hothers : ofModel s.other.rows .membership = [] := by
    refine List.filter_eq_nil_iff.mpr fun r hr => ?_
    simpa using s.other.noMembership r hr
  have happend : ofModel (s.tenant business) .membership =
      ofModel ((s.membershipsOf business).map membershipRecord) .membership ++
        ofModel s.other.rows .membership := List.filter_append _ _
  rw [happend, hothers, List.append_nil]
  refine List.filter_eq_self.mpr fun r hr => ?_
  obtain ⟨m, -, rfl⟩ := List.mem_map.mp hr
  rfl

lemma ofModel_tenant_other (s : LiveSite) {m : ModelLabel} (hm : m ≠ .membership) :
    ofModel (s.tenant business) m = ofModel s.other.rows m := by
  have happend : ofModel (s.tenant business) m =
      ofModel ((s.membershipsOf business).map membershipRecord) m ++ ofModel s.other.rows m :=
    List.filter_append _ _
  have hnone : ofModel ((s.membershipsOf business).map membershipRecord) m = [] := by
    refine List.filter_eq_nil_iff.mpr fun r hr => ?_
    obtain ⟨x, -, rfl⟩ := List.mem_map.mp hr
    simpa [membershipRecord] using hm.symm
  rw [happend, hnone, List.nil_append]

/-- The activity of the member that a record is of. -/
def recordActivity (r : LogicalRecord) : ℕ :=
  match r.field "last_activity_at" with
  | .instant t => t + 1
  | _ => 0

lemma recordActivity_membershipRecord (m : Membership) :
    recordActivity (membershipRecord m) = m.activity := by
  have hfield : (membershipRecord m).field "last_activity_at" =
      m.lastActivityAt.elim .null .instant := rfl
  rw [recordActivity, hfield, Membership.activity]
  cases m.lastActivityAt <;> rfl

/-- Memberships with the same records have the same total activity. -/
lemma totalActivity_eq_of_perm {l l' : List Membership}
    (h : (l.map membershipRecord).Perm (l'.map membershipRecord)) :
    totalActivity l = totalActivity l' := by
  have hsum : ∀ l : List Membership,
      ((l.map membershipRecord).map recordActivity).sum = totalActivity l := by
    intro l
    rw [List.map_map, totalActivity]
    congr 1
    exact List.map_congr_left fun m _ => recordActivity_membershipRecord m
  rw [← hsum l, ← hsum l']
  exact (h.map _).sum_eq

/-- Every scope has the access control component. -/
lemma accessControl_mem_of_resolve {scope : BackupScope} {enabled : List ProductOwner}
    {components : List ComponentDefinition} (h : resolveComponents scope enabled = .ok components) :
    ComponentKey.sharedAccessControl ∈ components.map (·.key) := by
  have hmem : ∀ d ∈ componentDefinitions, d.key = .sharedAccessControl →
      d.scopeEligibility.contains scope = true ∧ (d.productOwner == .shared) = true := by
    cases scope <;> decide
  obtain ⟨d, hd, hkey⟩ : ∃ d ∈ componentDefinitions, d.key = .sharedAccessControl := by decide
  obtain ⟨helig, hshared⟩ := hmem d hd hkey
  refine List.mem_map.mpr ⟨d, ?_, hkey⟩
  revert h
  cases scope <;> simp only [resolveComponents, bind, Except.bind, pure, Except.pure] <;>
    split <;> intro h <;> cases h <;>
    exact (List.mem_insertionSort _).mpr (List.mem_filter.mpr ⟨hd, by rw [helig, hshared]; rfl⟩)

/-- A backup of the business is accepted by the comparison of a restore after ordinary use exactly
when no request was an activity in the business. -/
theorem backup_accepted_iff (urls : UrlSettings) (business : ℕ) (s : LiveSite)
    {scope : BackupScope} {enabled : List ProductOwner} {components : List ComponentDefinition}
    (hscope : resolveComponents scope enabled = .ok components)
    (visits : List (Visit business)) :
    validateNonMutatingDependencies
        ((Trace.run (serve urls) s visits).tenant business)
        (backupOf (s.tenant business) (components.map (·.key))) = .ok ⟨⟩ ↔
      Trace.All (serve urls) (Quiet urls) s visits := by
  have hmodels := nodup_models_of_resolve hscope
  have hrecords : (backupOf (s.tenant business) (components.map (·.key))).records.Nodup :=
    nodup_exportComponents (nodup_of_keys (s.nodup_tenant business)) hmodels
  rw [validate_eq_ok (LiveSite.nodup_tenant _ business) hrecords]
  have hexport : ∀ key ∈ components.map (·.key), ∀ m ∈ modelsOf key,
      (ofModel (backupOf (s.tenant business) (components.map (·.key))).records m).Perm
        (ofModel (s.tenant business) m) := by
    intro key hkey m hm
    rw [backupOf, ofModel_exportComponents hmodels (List.mem_flatMap.mpr ⟨key, hkey, hm⟩)]
    exact perm_exportModel _ _
  rcases @membershipsOf_run business urls s visits with ⟨hall, hsame⟩ | ⟨hnot, hlt⟩
  · refine iff_of_true (fun key hkey hmutating m hm => ?_) hall
    refine List.Perm.trans (List.Perm.of_eq ?_) (hexport key hkey m hm).symm
    by_cases hmember : m = .membership
    · rw [hmember, ofModel_tenant_membership, ofModel_tenant_membership, hsame]
    · rw [ofModel_tenant_other _ hmember, ofModel_tenant_other _ hmember,
        other_run s visits hmutating hm]
  · refine iff_of_false (fun haccepted => ?_) hnot
    have hkey := accessControl_mem_of_resolve hscope
    have hm : ModelLabel.membership ∈ modelsOf .sharedAccessControl := by decide
    have hperm := (haccepted _ hkey (by decide) _ hm).trans (hexport _ hkey _ hm)
    rw [ofModel_tenant_membership, ofModel_tenant_membership] at hperm
    have heq := totalActivity_eq_of_perm hperm
    omega

/-! ## Runs -/

/-- A shop with one member, last active at second 1000. -/
def shop : LiveSite where
  accounts :=
    { users := [{ pk := 7 }]
      memberships :=
        [{ publicId := 1, business := 3, user := 7, role := 4,
           lastActivityAt := some 1000000000 }] }
  other :=
    { rows := [⟨.role, 4, [("name", .text "Owner")]⟩, ⟨.expense, 9, [("total", .number 5)]⟩]
      distinct := by decide
      noMembership := by decide }
  distinct := by decide

/-- The expenses are deleted. -/
def deleteExpenses : Change 3 where
  apply s :=
    { s with
      other :=
        { rows := s.other.rows.filter (·.model != .expense)
          distinct := s.other.distinct.sublist (List.filter_sublist.map _)
          noMembership := fun r hr => s.other.noMembership r (List.mem_filter.mp hr).1 } }
  memberships _ := rfl
  compared s key hkey m hm := by
    have hne : m ≠ .expense := by
      rintro rfl
      revert hkey hm
      cases key <;> decide
    show ofModel (s.other.rows.filter _) m = _
    rw [ofModel, List.filter_filter]
    refine List.filter_congr fun r _ => ?_
    by_cases hr : r.model = m <;> simp [hr, hne]

/-- The member deletes the expenses in a request. -/
def deletion (now : ℕ) : Visit 3 where
  now := now
  request := some { pathInfo := "/expenses/", user := some 7 }
  change := deleteExpenses

/-- Half a minute after the last activity none is recorded. -/
theorem backup_accepted_half_minute :
    ∃ components, resolveComponents .pos [.pos] = .ok components ∧
      validateNonMutatingDependencies
        ((Trace.run (serve {}) shop [deletion 1030000000]).tenant 3)
        (backupOf (shop.tenant 3) (components.map (·.key))) = .ok ⟨⟩ := by
  obtain ⟨components, hscope⟩ : ∃ components,
      resolveComponents .pos [.pos] = .ok components := ⟨_, rfl⟩
  refine ⟨components, hscope, (backup_accepted_iff {} 3 shop hscope _).mpr ?_⟩
  decide +kernel

/-- Two minutes after it one request is enough for the backup to be refused. -/
theorem backup_refused_after_request :
    ∃ components, resolveComponents .pos [.pos] = .ok components ∧
      validateNonMutatingDependencies
        ((Trace.run (serve {}) shop [deletion 1120000000]).tenant 3)
        (backupOf (shop.tenant 3) (components.map (·.key))) =
          .error (.dependencyContent .membership 1) := by
  refine ⟨_, rfl, ?_⟩
  decide +kernel

end NexaPos.Backups
