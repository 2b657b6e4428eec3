import NexaPos.Accounts.Activity
import NexaPos.Backups.LogicalFrame

/-!
# A tenant in use

The rows that a backup of a business compares on its restore, while requests of signed-in members
and background tasks change rows that it replaces.  The memberships are those of the accounts, with
the fields that `accounts.Membership` exports; the other rows are kept as the exporter sees them.
-/

namespace NexaPos.Backups

open NexaPos.Accounts

/-- The record of a membership. -/
def membershipRecord (m : Membership) : LogicalRecord where
  model := .membership
  publicId := m.publicId
  fields := [
    ("created_at", .instant m.createdAt),
    ("updated_at", .instant m.updatedAt),
    ("is_active", .number (if m.isActive then 1 else 0)),
    ("last_activity_at", m.lastActivityAt.elim .null .instant),
    ("user", .relation .user m.user),
    ("role", .relation .role m.role),
    ("branches", .relations .branch m.branches)]

/-- The rows of a business other than memberships. -/
structure OtherRows where
  rows : Rows
  distinct : (rows.map (·.key)).Nodup
  noMembership : ∀ r ∈ rows, r.model ≠ .membership

/-- The accounts of all businesses and the other rows of one of them. -/
structure LiveSite where
  accounts : AccountTables
  other : OtherRows
  distinct : (accounts.memberships.map (·.publicId)).Nodup

def LiveSite.membershipsOf (s : LiveSite) (business : ℕ) : List Membership :=
  s.accounts.memberships.filter (·.business == business)

/-- The rows of the business. -/
def LiveSite.tenant (s : LiveSite) (business : ℕ) : Rows :=
  (s.membershipsOf business).map membershipRecord ++ s.other.rows

/-- A change of the site that leaves alone what a restore of the business compares. -/
structure Change (business : ℕ) where
  apply : LiveSite → LiveSite
  memberships : ∀ s, (apply s).membershipsOf business = s.membershipsOf business
  compared : ∀ s key, nonMutating key = true → ∀ m ∈ modelsOf key,
    ofModel (apply s).other.rows m = ofModel s.other.rows m

/-- A request with what its view does, or a background task. -/
structure Visit (business : ℕ) where
  now : ℕ
  request : Option Request
  change : Change business

/-- Activity keeps the identities of the memberships. -/
lemma map_publicId_recordActivity (a : AccountTables) (urls : UrlSettings) (r : Request)
    (now : ℕ) : (a.recordActivity urls r now).memberships.map (·.publicId) =
      a.memberships.map (·.publicId) := by
  rcases recordActivity_cases a urls r now with h | ⟨m, user, -, -, h⟩
  · rw [h]
  · rw [h]
    simp

/-- The site after the middleware of a request. -/
def LiveSite.recordActivity (s : LiveSite) (urls : UrlSettings) (r : Request) (now : ℕ) :
    LiveSite :=
  { s with
    accounts := s.accounts.recordActivity urls r now
    distinct := by
      rw [map_publicId_recordActivity]
      exact s.distinct }

/-- A visit: the middleware, then the view; a background task has no request. -/
def serve {business : ℕ} (urls : UrlSettings) (s : LiveSite) (v : Visit business) : LiveSite :=
  v.change.apply (v.request.elim s fun r => s.recordActivity urls r v.now)

/-- A backup of the components, prepared for its restore. -/
def backupOf (rows : Rows) (keys : List ComponentKey) : PreparedLogicalRestore where
  records := exportComponents rows keys
  componentKeys := keys

end NexaPos.Backups
