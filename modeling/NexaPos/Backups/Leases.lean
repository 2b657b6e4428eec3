import Mathlib.Tactic.Common
import Mathlib.Data.List.Basic
import Mathlib.Data.List.Count

/-!
# Tenant operation leases

One table holds the leases of all businesses.  A row is active until it is released or until an
acquisition finds its time over; a unique constraint lets one active row stand for a business.
Every service reads the clock once, before its first statement; `now` is what it read, and its
statements may come later.

The primary key of a lease is its position in the table.  Its token is a random UUID, which no
two rows share; the position stands for it as well.
-/

namespace NexaPos.Backups

inductive OperationKind
  | backup
  | restore
  | retention
  | download
  | verification
  deriving DecidableEq, Repr

/-- `TenantOperationLock`; times are in microseconds. -/
structure TenantOperationLock where
  business : ℕ
  operationKind : OperationKind
  operationPublicId : ℕ
  acquiredAt : ℕ
  leaseExpiresAt : ℕ
  heartbeatAt : ℕ
  releasedAt : Option ℕ := none
  active : Bool := true
  deriving DecidableEq, Repr

/-- The table of leases. -/
abbrev Locks := List TenantOperationLock

inductive LeaseError
  /-- `TenantOperationLocked`. -/
  | locked
  /-- `ValidationError`. -/
  | invalid
  deriving DecidableEq, Repr

def microseconds (seconds : ℕ) : ℕ := seconds * 1000000

/-- An active lease of the business whose time is over. -/
def TenantOperationLock.expired (business now : ℕ) (l : TenantOperationLock) : Bool :=
  l.business == business && l.active && l.leaseExpiresAt ≤ now

/-- The first statement of an acquisition: leases whose time is over end. -/
def endExpired (locks : Locks) (business now : ℕ) : Locks :=
  locks.map fun l =>
    if l.expired business now then { l with active := false, releasedAt := some now } else l

/-- `TenantOperationLock.objects.for_business(business).filter(active=True).exists()`. -/
def hasActive (locks : Locks) (business : ℕ) : Bool :=
  locks.any fun l => l.business == business && l.active

/-- `acquire_tenant_operation_lock`; it returns the key of the new lease.  A failed call rolls
back, and the leases it ended stand again. -/
def acquireTenantOperationLock (locks : Locks) (business : ℕ) (kind : OperationKind)
    (operation leaseSeconds now : ℕ) : Except LeaseError (ℕ × Locks) :=
  if 1 ≤ leaseSeconds ∧ leaseSeconds ≤ 86400 then
    let ended := endExpired locks business now
    if hasActive ended business then
      .error .locked
    else
      .ok (ended.length,
        ended ++ [{ business := business, operationKind := kind, operationPublicId := operation,
                    acquiredAt := now, leaseExpiresAt := now + microseconds leaseSeconds,
                    heartbeatAt := now }])
  else
    .error .invalid

/-- `heartbeat_tenant_operation_lock`; it returns whether the lease was renewed. -/
def heartbeatTenantOperationLock (locks : Locks) (lock token leaseSeconds now : ℕ) :
    Except LeaseError (Bool × Locks) :=
  if 1 ≤ leaseSeconds ∧ leaseSeconds ≤ 86400 then
    match locks[lock]? with
    | some l =>
      if token = lock ∧ l.active = true ∧ now < l.leaseExpiresAt then
        .ok (true, locks.set lock
          { l with heartbeatAt := now, leaseExpiresAt := now + microseconds leaseSeconds })
      else
        .ok (false, locks)
    | none => .ok (false, locks)
  else
    .error .invalid

/-- `release_tenant_operation_lock`; it returns whether the lease was released. -/
def releaseTenantOperationLock (locks : Locks) (lock token now : ℕ) : Bool × Locks :=
  match locks[lock]? with
  | some l =>
    if token = lock ∧ l.active = true then
      (true, locks.set lock { l with active := false, releasedAt := some now })
    else
      (false, locks)
  | none => (false, locks)

/-- The lease stands: its row is active. -/
def Stands (locks : Locks) (lock : ℕ) : Prop := ∃ l, locks[lock]? = some l ∧ l.active = true

instance (locks : Locks) (lock : ℕ) : Decidable (Stands locks lock) :=
  match h : locks[lock]? with
  | some l => decidable_of_iff (l.active = true) (by simp [Stands, h])
  | none => isFalse (by simp [Stands, h])

/-! ## What a call does to the table -/

/-- A call leaves the table, opens a lease after it ended those whose time is over, renews an
active lease before its time is over, or gives back the lease whose token it was given.  The
indices are the token that it gives back and the lease that it renews. -/
inductive LeaseMove (now : ℕ) (locks : Locks) : Option ℕ → Option ℕ → Locks → Prop
  | unchanged (token renewal : Option ℕ) : LeaseMove now locks token renewal locks
  | acquired (l : TenantOperationLock)
      (hfree : hasActive (endExpired locks l.business now) l.business = false) :
      LeaseMove now locks none none (endExpired locks l.business now ++ [l])
  | renewed (lock : ℕ) (l : TenantOperationLock) (expiry : ℕ) (h : locks[lock]? = some l)
      (hactive : l.active = true) (hnow : now < l.leaseExpiresAt) :
      LeaseMove now locks none (some lock)
        (locks.set lock { l with heartbeatAt := now, leaseExpiresAt := expiry })
  | released (token : ℕ) (l : TenantOperationLock) (h : locks[token]? = some l) :
      LeaseMove now locks (some token) none
        (locks.set token { l with active := false, releasedAt := some now })

variable {locks locks' : Locks} {now : ℕ}

lemma leaseMove_acquire {business operation leaseSeconds lock : ℕ} {kind : OperationKind}
    (h : acquireTenantOperationLock locks business kind operation leaseSeconds now =
      .ok (lock, locks')) :
    LeaseMove now locks none none locks' ∧ lock = locks.length ∧
      ∃ l, locks'[lock]? = some l ∧ l.business = business ∧ l.active = true := by
  unfold acquireTenantOperationLock at h
  split at h
  · dsimp only at h
    split at h
    · exact nomatch h
    case isFalse hfree =>
      let opened : TenantOperationLock :=
        { business := business, operationKind := kind, operationPublicId := operation,
          acquiredAt := now, leaseExpiresAt := now + microseconds leaseSeconds, heartbeatAt := now }
      cases h
      have hlen : (endExpired locks business now).length = locks.length := by simp [endExpired]
      exact ⟨.acquired opened (eq_false_of_ne_true hfree), hlen, opened,
        List.getElem?_concat_length, rfl, rfl⟩
  · exact nomatch h

lemma leaseMove_heartbeat {lock token leaseSeconds : ℕ} {renewed : Bool}
    (h : heartbeatTenantOperationLock locks lock token leaseSeconds now =
      .ok (renewed, locks')) : LeaseMove now locks none (some lock) locks' := by
  unfold heartbeatTenantOperationLock at h
  split at h
  · split at h
    case h_1 l hl =>
      split at h
      case isTrue hc =>
        cases h
        exact .renewed lock l _ hl hc.2.1 hc.2.2
      case isFalse =>
        cases h
        exact .unchanged none _
    case h_2 =>
      cases h
      exact .unchanged none _
  · exact nomatch h

lemma leaseMove_release (locks : Locks) (lock token now : ℕ) :
    LeaseMove now locks (some token) none
      (releaseTenantOperationLock locks lock token now).2 := by
  unfold releaseTenantOperationLock
  split
  case h_1 l hl =>
    split
    case isTrue hc =>
      obtain ⟨rfl, -⟩ := hc
      exact .released token l hl
    case isFalse => exact .unchanged _ _
  case h_2 => exact .unchanged _ _

/-- What a call does to one row: it is left alone, ended after its time, renewed, or given back
by its token. -/
lemma LeaseMove.row {token renewal : Option ℕ}
    (h : LeaseMove now locks token renewal locks') {i : ℕ} {l : TenantOperationLock}
    (hl : locks[i]? = some l) :
    ∃ l', locks'[i]? = some l' ∧ l'.business = l.business ∧
      (l' = l ∨
        (l'.active = false ∧ l'.leaseExpiresAt = l.leaseExpiresAt ∧
          (l.leaseExpiresAt ≤ now ∨ token = some i)) ∨
        (l.active = true ∧ now < l.leaseExpiresAt ∧ renewal = some i ∧ l'.active = true)) := by
  have hlt : i < locks.length := (List.getElem?_eq_some_iff.mp hl).1
  cases h with
  | unchanged => exact ⟨l, hl, rfl, .inl rfl⟩
  | acquired n hfree =>
    have hlen : i < (endExpired locks n.business now).length := by simpa [endExpired] using hlt
    rw [List.getElem?_append_left hlen]
    simp only [endExpired, List.getElem?_map, hl, Option.map_some]
    refine ⟨_, rfl, ?_⟩
    split
    case isTrue he =>
      simp only [TenantOperationLock.expired, Bool.and_eq_true, decide_eq_true_eq] at he
      exact ⟨rfl, .inr (.inl ⟨rfl, rfl, .inl he.2⟩)⟩
    case isFalse => exact ⟨rfl, .inl rfl⟩
  | renewed lock n expiry hn hactive hnow =>
    by_cases hi : lock = i
    · subst hi
      obtain rfl : n = l := Option.some.inj (hn.symm.trans hl)
      exact ⟨_, List.getElem?_set_self hlt, rfl, .inr (.inr ⟨hactive, hnow, rfl, hactive⟩)⟩
    · exact ⟨l, by rw [List.getElem?_set_ne hi, hl], rfl, .inl rfl⟩
  | released lock n hn =>
    by_cases hi : lock = i
    · subst hi
      obtain rfl : n = l := Option.some.inj (hn.symm.trans hl)
      exact ⟨_, List.getElem?_set_self hlt, rfl, .inr (.inl ⟨rfl, rfl, .inr rfl⟩)⟩
    · exact ⟨l, by rw [List.getElem?_set_ne hi, hl], rfl, .inl rfl⟩

/-- A row of the new table is a row of the old one, or the lease that was just opened, with no
other active one beside it. -/
lemma LeaseMove.row_of {token renewal : Option ℕ}
    (h : LeaseMove now locks token renewal locks') {i : ℕ} {l' : TenantOperationLock}
    (hl : locks'[i]? = some l') :
    (∃ l, locks[i]? = some l ∧ l.business = l'.business ∧ (l'.active = true → l.active = true)) ∨
    (i = locks.length ∧ ∀ (j : ℕ) (m : TenantOperationLock), j < i → locks'[j]? = some m →
      m.business = l'.business → m.active = false) := by
  cases hold : locks[i]? with
  | some l =>
    obtain ⟨l₁, hl₁, hb, hrow⟩ := h.row hold
    obtain rfl : l₁ = l' := Option.some.inj (hl₁.symm.trans hl)
    refine .inl ⟨l, rfl, hb.symm, fun ha => ?_⟩
    rcases hrow with rfl | ⟨hoff, -, -⟩ | ⟨hon, -, -, -⟩
    · exact ha
    · exact absurd (hoff.symm.trans ha) (by decide)
    · exact hon
  | none =>
    have hlen := List.getElem?_eq_none_iff.mp hold
    have hlt := (List.getElem?_eq_some_iff.mp hl).1
    cases h with
    | unchanged => exact absurd hlt (Nat.not_lt.mpr hlen)
    | acquired n hfree =>
      have hend : (endExpired locks n.business now).length = locks.length := by simp [endExpired]
      have hi : i = locks.length := by
        rw [List.length_append, hend, List.length_singleton] at hlt
        omega
      subst hi
      rw [← hend, List.getElem?_concat_length] at hl
      obtain rfl := Option.some.inj hl
      refine .inr ⟨rfl, fun j m hj hm hb => ?_⟩
      rw [List.getElem?_append_left (by omega)] at hm
      have hmem := List.mem_of_getElem? hm
      simp only [hasActive, List.any_eq_false, Bool.and_eq_true, beq_iff_eq, not_and,
        Bool.not_eq_true] at hfree
      exact hfree m hmem hb
    | renewed => exact absurd hlt (by simpa using hlen)
    | released => exact absurd hlt (by simpa using hlen)

/-! ## One active lease -/

/-- Once a later lease of its business was opened, a lease is over. -/
def Exclusive (locks : Locks) : Prop :=
  ∀ (i j : ℕ) (l m : TenantOperationLock), i < j → locks[i]? = some l → locks[j]? = some m →
    l.business = m.business → l.active = false

/-- At most one active lease stands for each business. -/
lemma Exclusive.one_active (h : Exclusive locks) {i j : ℕ} {l m : TenantOperationLock}
    (hl : locks[i]? = some l) (hm : locks[j]? = some m) (hla : l.active = true)
    (hma : m.active = true) (hb : l.business = m.business) : i = j := by
  rcases Nat.lt_trichotomy i j with hij | hij | hij
  · exact absurd ((h i j l m hij hl hm hb).symm.trans hla) (by decide)
  · exact hij
  · exact absurd ((h j i m l hij hm hl hb.symm).symm.trans hma) (by decide)

lemma Exclusive.move {token renewal : Option ℕ} (h : Exclusive locks)
    (hmove : LeaseMove now locks token renewal locks') : Exclusive locks' := by
  intro i j l m hij hl hm hb
  rcases hmove.row_of hm with ⟨m₀, hm₀, hbm, -⟩ | ⟨hj, hfresh⟩
  · rcases hmove.row_of hl with ⟨l₀, hl₀, hbl, hact⟩ | ⟨hi, -⟩
    · have hoff := h i j l₀ m₀ hij hl₀ hm₀ (by rw [hbl, hb, hbm])
      cases ha : l.active with
      | false => rfl
      | true => exact absurd (hoff.symm.trans (hact ha)) (by decide)
    · have hlt := (List.getElem?_eq_some_iff.mp hm₀).1
      omega
  · exact hfresh i l hij hl hb

/-! ## Leases whose time is over -/

/-- The lease is over: it has ended, or its time is over. -/
def Lapsed (locks : Locks) (lock now : ℕ) : Prop :=
  ∃ l, locks[lock]? = some l ∧ (l.active = false ∨ l.leaseExpiresAt ≤ now)

instance (locks : Locks) (lock now : ℕ) : Decidable (Lapsed locks lock now) :=
  inferInstanceAs (Decidable (∃ l ∈ locks[lock]?, l.active = false ∨ l.leaseExpiresAt ≤ now))

/-- A lease that has ended stays ended. -/
lemma ended_move {lock : ℕ} {token renewal : Option ℕ}
    (h : ∃ l, locks[lock]? = some l ∧ l.active = false)
    (hmove : LeaseMove now locks token renewal locks') :
    ∃ l, locks'[lock]? = some l ∧ l.active = false := by
  obtain ⟨l, hl, hoff⟩ := h
  obtain ⟨l', hl', -, rfl | ⟨hoff', -, -⟩ | ⟨hon, -, -, -⟩⟩ := hmove.row hl
  · exact ⟨l', hl', hoff⟩
  · exact ⟨l', hl', hoff'⟩
  · exact absurd (hoff.symm.trans hon) (by decide)

/-- A renewal that read the clock before the time of its lease was over, and comes after it. -/
def RenewsLate (locks : Locks) (lock read now : ℕ) : Prop :=
  ∃ l ∈ locks[lock]?, l.active = true ∧ read < l.leaseExpiresAt ∧ l.leaseExpiresAt ≤ now

instance (locks : Locks) (lock read now : ℕ) : Decidable (RenewsLate locks lock read now) :=
  inferInstanceAs (Decidable (∃ l ∈ locks[lock]?,
    l.active = true ∧ read < l.leaseExpiresAt ∧ l.leaseExpiresAt ≤ now))

/-- No call takes a lease back that is over, but for a late renewal. -/
lemma Lapsed.move {lock read : ℕ} {token renewal : Option ℕ} (h : Lapsed locks lock now)
    (hmove : LeaseMove read locks token renewal locks')
    (hlate : renewal = some lock → ¬ RenewsLate locks lock read now) :
    Lapsed locks' lock now := by
  obtain ⟨l, hl, hover⟩ := h
  obtain ⟨l', hl', -, rfl | ⟨hoff, -, -⟩ | ⟨hon, hread, hrenewal, -⟩⟩ := hmove.row hl
  · exact ⟨l', hl', hover⟩
  · exact ⟨l', hl', .inl hoff⟩
  · rcases hover with hoff | hover
    · exact absurd (hoff.symm.trans hon) (by decide)
    · exact absurd ⟨l, hl, hon, hread, hover⟩ (hlate hrenewal)

lemma Lapsed.later {lock now' : ℕ} (h : Lapsed locks lock now) (hle : now ≤ now') :
    Lapsed locks lock now' := by
  obtain ⟨l, hl, hover⟩ := h
  exact ⟨l, hl, hover.imp_right fun h => Nat.le_trans h hle⟩

/-- A lease that is over is not renewed. -/
lemma Lapsed.heartbeat {lock token leaseSeconds : ℕ} (h : Lapsed locks lock now)
    (hlen : 1 ≤ leaseSeconds ∧ leaseSeconds ≤ 86400) :
    heartbeatTenantOperationLock locks lock token leaseSeconds now = .ok (false, locks) := by
  obtain ⟨l, hl, hover⟩ := h
  have hnot : ¬ (token = lock ∧ l.active = true ∧ now < l.leaseExpiresAt) := by
    rintro ⟨-, hon, hnow⟩
    rcases hover with hoff | hover
    · exact absurd (hoff.symm.trans hon) (by decide)
    · exact absurd hnow (Nat.not_lt.mpr hover)
  simp only [heartbeatTenantOperationLock, if_pos hlen, hl, if_neg hnot]

/-- A release ends no lease but that of its token. -/
lemma release_of_ne {lock token i : ℕ} (h : i ≠ token) :
    (releaseTenantOperationLock locks lock token now).2[i]? = locks[i]? := by
  unfold releaseTenantOperationLock
  split
  case h_1 l hl =>
    split
    case isTrue hc => rw [← hc.1, List.getElem?_set_ne (hc.1 ▸ h.symm)]
    case isFalse => rfl
  case h_2 => rfl

/-! ## Leases that were not given back -/

/-- The lease of the business was opened, and not given back before its time was over. -/
def Held (locks : Locks) (business lock now : ℕ) : Prop :=
  ∃ l, locks[lock]? = some l ∧ l.business = business ∧
    (l.active = true ∨ l.leaseExpiresAt ≤ now)

lemma Held.move {business lock read : ℕ} {token renewal : Option ℕ}
    (h : Held locks business lock now) (hmove : LeaseMove read locks token renewal locks')
    (hread : read ≤ now) (htoken : token ≠ some lock) : Held locks' business lock now := by
  obtain ⟨l, hl, hb, hheld⟩ := h
  obtain ⟨l', hl', hb', hrow⟩ := hmove.row hl
  refine ⟨l', hl', hb'.trans hb, ?_⟩
  rcases hrow with rfl | ⟨-, he, hover | hrel⟩ | ⟨-, -, -, hon⟩
  · exact hheld
  · exact .inr (he ▸ Nat.le_trans hover hread)
  · exact absurd hrel htoken
  · exact .inl hon

lemma Held.later {business lock now' : ℕ} (h : Held locks business lock now) (hle : now ≤ now') :
    Held locks business lock now' := by
  obtain ⟨l, hl, hb, hheld⟩ := h
  exact ⟨l, hl, hb, hheld.imp_right fun h => Nat.le_trans h hle⟩

/-- Before its time is over, a lease that was not given back stands. -/
lemma Held.stands {business lock : ℕ} (h : Held locks business lock now)
    (hnow : ∀ l, locks[lock]? = some l → now < l.leaseExpiresAt) : Stands locks lock := by
  obtain ⟨l, hl, -, hon | hover⟩ := h
  · exact ⟨l, hl, hon⟩
  · exact absurd (hnow l hl) (Nat.not_lt.mpr hover)

end NexaPos.Backups
