import Mathlib.Data.List.DropRight
import Mathlib.Tactic.Common

/-!
# Requests and the activity of members

What happens to a request before its view runs, as far as it concerns the activity of members:
`SupportSessionMiddleware` and `BusinessMiddleware` find the acting user and the membership, and
`ActivityMiddleware` records the activity of the membership, at most once per minute.  Times are in
microseconds.
-/

namespace NexaPos.Accounts

/-- `accounts.User`. -/
structure User where
  pk : ℕ
  isActive : Bool := true
  isPlatformStaff : Bool := false
  deriving DecidableEq, Repr

/-- `accounts.Membership`; its public identity stands for its primary key. -/
structure Membership where
  publicId : ℕ
  business : ℕ
  user : ℕ
  role : ℕ
  branches : List ℕ := []
  isActive : Bool := true
  createdAt : ℕ := 0
  updatedAt : ℕ := 0
  lastActivityAt : Option ℕ := none
  deriving DecidableEq, Repr

/-- The context of a support session, as the session keeps it. -/
structure SupportSession where
  adminId : ℕ
  ownerId : ℕ
  deriving DecidableEq, Repr

/-- A request, with the user of its session. -/
structure Request where
  pathInfo : String
  user : Option ℕ
  supportSession : Option SupportSession := none
  /-- `session[SESSION_BUSINESS_KEY]`. -/
  activeBusinessId : Option ℕ := none
  deriving DecidableEq, Repr

/-- The settings that the middleware reads. -/
structure UrlSettings where
  staticUrl : String := "/static/"
  mediaUrl : String := "/media/"
  deriving DecidableEq, Repr

/-- What the middleware reads of the accounts. -/
structure AccountTables where
  users : List User
  /-- In the order of the queryset `user.memberships`. -/
  memberships : List Membership
  inactiveBusinesses : List ℕ := []
  deriving DecidableEq, Repr

def AccountTables.user (a : AccountTables) (pk : ℕ) : Option User := a.users.find? (·.pk == pk)

/-! ## The acting user and the membership -/

/-- `AuthenticationMiddleware`: an inactive user is not signed in. -/
def AccountTables.authenticated (a : AccountTables) (r : Request) : Option User :=
  (r.user.bind a.user).filter (·.isActive)

/-- `SupportSessionMiddleware`: the acting user, and the real platform admin behind it. -/
def AccountTables.supportSession (a : AccountTables) (r : Request) : Option User × Option User :=
  match a.authenticated r, r.supportSession with
  | none, _ => (none, none)
  | some user, none => (some user, none)
  | some user, some data =>
    if user.pk != data.adminId || !user.isPlatformStaff then
      (some user, none)
    else
      match (a.user data.ownerId).filter (·.isActive) with
      | none => (some user, none)
      | some owner => (some owner, some user)

/-- `BusinessMiddleware`: the membership in the business of the session, or the first one. -/
def AccountTables.membership (a : AccountTables) (r : Request) (user : User) : Option Membership :=
  let memberships := a.memberships.filter fun m =>
    m.user == user.pk && m.isActive && !a.inactiveBusinesses.contains m.business
  match r.activeBusinessId.bind fun wanted => memberships.find? (·.business == wanted) with
  | some m => some m
  | none => memberships.head?

/-! ## Activity -/

/-- `ACTIVITY_INTERVAL`, a minute. -/
def activityInterval : ℕ := 60000000

/-- The row is one that the conditional update of `record_membership_activity` changes. -/
def Membership.due (x m : Membership) (user : User) (now : ℕ) : Bool :=
  x.publicId == m.publicId && x.business == m.business && x.user == user.pk && x.isActive &&
    x.lastActivityAt.all fun t => decide (t + activityInterval ≤ now)

/-- The row after the conditional update. -/
def Membership.marked (x m : Membership) (user : User) (now : ℕ) : Membership :=
  if x.due m user now then { x with lastActivityAt := some now } else x

/-- `record_membership_activity`, with the table of memberships afterwards. -/
def recordMembershipActivity (table : List Membership) (m : Membership) (user : User) (now : ℕ) :
    Bool × List Membership :=
  if !user.isActive || !m.isActive || m.user != user.pk then
    (false, table)
  else if m.lastActivityAt.any fun t => decide (now < t + activityInterval) then
    (false, table)
  else
    (table.any fun x => x.due m user now, table.map fun x => x.marked m user now)

def startsWith (path : String) (start : List Char) : Bool := start.isPrefixOf path.toList

/-- Requests to the platform pages and to assets are no activity. -/
def UrlSettings.ignores (u : UrlSettings) (path : String) : Bool :=
  startsWith path "/platform/".toList || startsWith path "/django-admin/".toList ||
    [u.staticUrl, u.mediaUrl].any fun url =>
      startsWith path (url.toList.rdropWhile (· == '/') ++ ['/'])

/-- `ActivityMiddleware.record_activity`, after the middleware before it. -/
def AccountTables.recordActivity (a : AccountTables) (urls : UrlSettings) (r : Request) (now : ℕ) :
    AccountTables :=
  let (user, supportAdmin) := a.supportSession r
  match user, user.bind (a.membership r) with
  | some user, some m =>
    if !user.isActive || !m.isActive || supportAdmin.isSome || urls.ignores r.pathInfo then
      a
    else
      { a with memberships := (recordMembershipActivity a.memberships m user now).2 }
  | _, _ => a

/-! ## What is recorded -/

/-- The acting user is active. -/
lemma AccountTables.isActive_of_supportSession {a : AccountTables} {r : Request} {user : User}
    (h : (a.supportSession r).1 = some user) : user.isActive = true := by
  have hsigned : ∀ u, a.authenticated r = some u → u.isActive = true := fun u hu =>
    (Option.filter_eq_some_iff.mp hu).2
  unfold supportSession at h
  cases hu : a.authenticated r with
  | none => simp [hu] at h
  | some u =>
    cases hs : r.supportSession with
    | none =>
      simp only [hu, hs, Option.some.injEq] at h
      exact hsigned user (by rw [hu, h])
    | some data =>
      simp only [hu, hs] at h
      split at h
      · cases h
        exact hsigned user hu
      · cases howner : (a.user data.ownerId).filter (·.isActive) with
        | none =>
          rw [howner] at h
          cases h
          exact hsigned user hu
        | some owner =>
          rw [howner] at h
          cases h
          exact (Option.filter_eq_some_iff.mp howner).2

/-- The membership of a request is an active one of the acting user. -/
lemma AccountTables.of_membership {a : AccountTables} {r : Request} {user : User} {m : Membership}
    (h : a.membership r user = some m) :
    m ∈ a.memberships ∧ m.user = user.pk ∧ m.isActive = true := by
  have hmem : ∀ x ∈ a.memberships.filter (fun m =>
      m.user == user.pk && m.isActive && !a.inactiveBusinesses.contains m.business),
      x ∈ a.memberships ∧ x.user = user.pk ∧ x.isActive = true := by
    intro x hx
    obtain ⟨hx, hx'⟩ := List.mem_filter.mp hx
    simp only [Bool.and_eq_true, beq_iff_eq] at hx'
    exact ⟨hx, hx'.1⟩
  unfold membership at h
  dsimp only at h
  split at h
  · next hwanted =>
    cases h
    obtain ⟨wanted, -, hfind⟩ := Option.bind_eq_some_iff.mp hwanted
    exact hmem m (List.mem_of_find?_eq_some hfind)
  · exact hmem m (List.mem_of_head? h)

/-- A request records nothing, or it marks the rows that are due for the acting member. -/
lemma recordActivity_cases (a : AccountTables) (urls : UrlSettings) (r : Request) (now : ℕ) :
    a.recordActivity urls r now = a ∨
    ∃ m user, (a.supportSession r).1 = some user ∧ a.membership r user = some m ∧
      a.recordActivity urls r now =
        { a with memberships := a.memberships.map fun x => x.marked m user now } := by
  unfold AccountTables.recordActivity recordMembershipActivity
  obtain ⟨user, supportAdmin⟩ := a.supportSession r
  dsimp only
  split
  case h_2 => exact .inl rfl
  case h_1 user m hmembership =>
    split
    · exact .inl rfl
    · split
      · exact .inl rfl
      · split
        · exact .inl rfl
        · exact .inr ⟨m, user, rfl, hmembership, rfl⟩

@[simp] lemma Membership.marked_publicId (x m : Membership) (user : User) (now : ℕ) :
    (x.marked m user now).publicId = x.publicId := by
  unfold marked
  split <;> rfl

@[simp] lemma Membership.marked_business (x m : Membership) (user : User) (now : ℕ) :
    (x.marked m user now).business = x.business := by
  unfold marked
  split <;> rfl

lemma Membership.business_of_due {x m : Membership} {user : User} {now : ℕ}
    (h : x.due m user now = true) : x.business = m.business := by
  simp only [due, Bool.and_eq_true, beq_iff_eq] at h
  exact h.1.1.1.2

/-- How late the last activity is; zero for a member who was never active. -/
def Membership.activity (m : Membership) : ℕ := m.lastActivityAt.elim 0 (· + 1)

lemma activityInterval_pos : 0 < activityInterval := by
  rw [activityInterval]
  exact Nat.succ_pos _

/-- A row that is due is marked with a later activity. -/
lemma Membership.activity_lt_of_due {x m : Membership} {user : User} {now : ℕ}
    (h : x.due m user now = true) : x.activity < (x.marked m user now).activity := by
  have hpos := activityInterval_pos
  have hmarked : (x.marked m user now).activity = now + 1 := by
    rw [marked, if_pos h, activity, Option.elim_some]
  rw [hmarked]
  rw [due, Bool.and_eq_true] at h
  cases hlast : x.lastActivityAt with
  | none =>
    rw [activity, hlast, Option.elim_none]
    omega
  | some t =>
    have hdue := h.2
    rw [hlast, Option.all_some, decide_eq_true_iff] at hdue
    rw [activity, hlast, Option.elim_some]
    omega

lemma Membership.activity_le_marked (x m : Membership) (user : User) (now : ℕ) :
    x.activity ≤ (x.marked m user now).activity := by
  by_cases h : x.due m user now = true
  · exact Nat.le_of_lt (activity_lt_of_due h)
  · rw [marked, if_neg h]

end NexaPos.Accounts
