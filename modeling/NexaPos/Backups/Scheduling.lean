import NexaPos.Backups.Dispatch
import NexaPos.Backups.Registry
import NexaPos.Lib.LocalTime
import NexaPos.Lib.Transaction

/-!
# Daily schedules

A schedule asks for one backup a day at a local time.  `nextDailyOccurrence` and
`latestDueOccurrence` go between local dates and instants, and the dispatcher claims the schedules
that are due, each in a transaction of its own.

Instants and local times count microseconds from 1970, and dates count days.  What `ZoneInfo` gives
for a name it knows is a `TimeZone`: the offset changes by at most three hours at a time, and not
again within three hours, so that its search for a change by bisection is a walk along the changes.
-/

namespace NexaPos.Backups.Scheduling

open LocalTime Tx
open Dispatching (BackupTrigger)

abbrev Instant := ℤ

def minute : ℤ := 60000000

def day : ℤ := 86400000000

structure TimeZone extends Zone where
  steady : toZone.Steady (180 * minute)
  deriving DecidableEq

/-- A `time` without a zone. -/
structure TimeOfDay where
  value : ℤ
  nonneg : 0 ≤ value
  lt_day : value < day
  deriving DecidableEq

/-- What the services raise. -/
inductive ScheduleFault
  /-- `ScheduleDispatchError`. -/
  | scheduleDispatch
  /-- `ScopeNotAllowed`. -/
  | scopeNotAllowed
  | permissionDenied
  | validation (message : String)
  | idempotencyConflict
  deriving DecidableEq, Repr

/-! ## Occurrences -/

/-- `astimezone(zone).date()`. -/
def TimeZone.dateOf (z : TimeZone) (u : Instant) : ℤ := z.toLocal u / day

/-- `datetime.combine`. -/
def combine (d : ℤ) (t : TimeOfDay) : ℤ := d * day + t.value

/-- The instants that come back to a local time. -/
def validUtc (z : TimeZone) (w : ℤ) : List Instant :=
  ([false, true].map fun fold => z.toUtc fold w).filter fun u => z.toLocal u = w

/-- `_timezone`, for what `ZoneInfo` gives. -/
def findTimezone (zone : Option TimeZone) : Except ScheduleFault TimeZone :=
  match zone with
  | some z => pure z
  | none => throw .scheduleDispatch

/-- The loop of `resolve_local_daily_occurrence` over the minutes. -/
def searchMinutes (z : TimeZone) (w : ℤ) : Option Instant :=
  (List.range 181).findSome? fun k : ℕ => (validUtc z (w + k * minute)).min?

def resolveLocalDailyOccurrence (d : ℤ) (t : TimeOfDay) (zone : Option TimeZone) :
    Except ScheduleFault Instant := do
  let z ← findTimezone zone
  match searchMinutes z (combine d t) with
  | some u => pure u
  | none => throw .scheduleDispatch

/-- The loop of `next_daily_occurrence` over the dates. -/
def firstAfter (t : TimeOfDay) (zone : Option TimeZone) (after : Instant) :
    List ℤ → Except ScheduleFault Instant
  | [] => throw .scheduleDispatch
  | d :: ds => do
    let candidate ← resolveLocalDailyOccurrence d t zone
    if after < candidate then pure candidate else firstAfter t zone after ds

def nextDailyOccurrence (t : TimeOfDay) (zone : Option TimeZone) (after : Instant) :
    Except ScheduleFault Instant := do
  let z ← findTimezone zone
  let d := z.dateOf after
  firstAfter t zone after [d, d + 1, d + 2]

/-! ## Rows -/

structure BackupSchedule where
  business : ℕ
  enabled : Bool
  zone : Option TimeZone
  localExecutionTime : TimeOfDay
  nextRun : Option Instant
  lastClaimedRun : Option Instant := none
  scope : BackupScope := .allEnabled
  deriving DecidableEq

structure BackupRecord where
  business : ℕ
  scope : BackupScope
  includedProducts : List ProductOwner
  trigger : BackupTrigger
  scheduledLocalDate : Option ℤ
  status : BackupStatus := .queued
  parentRestoreOperation : Option ℕ
  idempotencyKey : String
  /-- The occurrence that the dispatcher claimed the backup for.  No program reads it. -/
  occurrence : Option Instant
  deriving DecidableEq

structure Subscription where
  planActive : Bool
  operational : Bool
  deriving DecidableEq

/-- A business, with the products it is entitled to. -/
structure Tenant where
  isActive : Bool
  subscription : Option Subscription
  products : List ProductOwner
  deriving DecidableEq

structure Site where
  tenants : ℕ → Tenant
  schedules : List BackupSchedule := []
  backups : List BackupRecord := []
  /-- The time of the last request. -/
  clock : Instant := 0

/-- `generate_idempotency_key` for a business, a local date and an occurrence. -/
structure ScheduleSetup where
  scheduledKey : ℕ → ℤ → Instant → String

/-! ## Backup requests -/

structure ScopeResolution where
  scope : BackupScope
  includedProducts : List ProductOwner
  deriving DecidableEq

def resolveRequestedScope (products : List ProductOwner) (scope : BackupScope) :
    Except ScheduleFault ScopeResolution :=
  match resolveComponents scope products with
  | .error _ => throw .scopeNotAllowed
  | .ok _ => pure ⟨scope, match scope with
    | .pos => [.pos]
    | .wms => [.wms]
    | .allEnabled => [ProductOwner.pos, .wms].filter products.contains⟩

/-- What `create_backup_request` is given; `authorized` is the answer of the access checks. -/
structure BackupRequest where
  business : ℕ
  scope : BackupScope
  trigger : BackupTrigger
  scheduledLocalDate : Option ℤ
  idempotencyKey : String
  /-- The restore operation and its business. -/
  parentRestoreOperation : Option (ℕ × ℕ) := none
  systemActor : Bool := false
  authorized : Bool := false
  occurrence : Option Instant := none
  deriving DecidableEq

/-- `_validate_existing_backup_idempotency`. -/
def matchesRequest (record : BackupRecord) (resolution : ScopeResolution) (r : BackupRequest) :
    Bool :=
  record.scope = resolution.scope ∧ record.includedProducts = resolution.includedProducts ∧
    record.trigger = r.trigger ∧ record.scheduledLocalDate = r.scheduledLocalDate ∧
    record.parentRestoreOperation = r.parentRestoreOperation.map (·.1)

/-- The backup of the business with an idempotency key. -/
def Site.findBackup (s : Site) (business : ℕ) (key : String) : Option ℕ :=
  s.backups.findIdx? fun b => b.business = business ∧ b.idempotencyKey = key

/-- `create_backup_request`, up to the primary key of the row. -/
def createBackupRequest (r : BackupRequest) : Tx Site ScheduleFault ℕ := do
  let resolution ← reads fun s => resolveRequestedScope (s.tenants r.business).products r.scope
  check (r.trigger ≠ .scheduled || r.scheduledLocalDate.isSome)
    (.validation "Scheduled backup metadata requires a local date.")
  check (r.trigger ≠ .scheduled || resolution.scope = .allEnabled)
    (.validation "Daily schedules must use ALL_ENABLED scope.")
  check (r.trigger = .scheduled || r.scheduledLocalDate.isNone)
    (.validation "Only scheduled backups may have a scheduled local date.")
  check (r.trigger ≠ .preRestoreSafety || r.parentRestoreOperation.isSome)
    (.validation "A safety backup must reference its restore operation.")
  check (r.trigger ≠ .preRestoreSafety || r.parentRestoreOperation.all (·.2 = r.business))
    (.validation "The restore operation belongs to another business.")
  check (!r.systemActor || r.trigger ≠ .manual)
    (.validation "A manual backup request requires a human actor.")
  check (r.systemActor || r.authorized) .permissionDenied
  let s ← get
  match s.findBackup r.business r.idempotencyKey with
  | some pk => do
    check (s.backups[pk]?.any (matchesRequest · resolution r)) .idempotencyConflict
    pure pk
  | none => do
    modify fun s =>
      { s with
        backups := s.backups ++
          [{ business := r.business
             scope := resolution.scope
             includedProducts := resolution.includedProducts
             trigger := r.trigger
             scheduledLocalDate := r.scheduledLocalDate
             parentRestoreOperation := r.parentRestoreOperation.map (·.1)
             idempotencyKey := r.idempotencyKey
             occurrence := r.occurrence }] }
    pure s.backups.length

/-! ## The dispatcher -/

/-- `ACTIVE_BACKUP_STATUSES`. -/
def activeBackupStatuses : List BackupStatus :=
  [.queued, .preparing, .snapshotting, .packaging, .uploading, .verifying]

inductive ScheduleClaimState
  | dispatched
  | alreadyDispatched
  | deferredActive
  | future
  | disabled
  | ineligible
  | invalid
  | initialized
  deriving DecidableEq, Repr

structure ScheduleClaimResult where
  state : ScheduleClaimState
  backup : Option ℕ := none
  business : Option ℕ := none
  deriving DecidableEq

def latestDueOccurrence (schedule : BackupSchedule) (now : Instant) :
    Except ScheduleFault (Option Instant) :=
  match schedule.nextRun with
  | none => pure none
  | some nextRun =>
    if now < nextRun then
      pure none
    else do
      let z ← findTimezone schedule.zone
      let d := z.dateOf now
      let candidate ← resolveLocalDailyOccurrence d schedule.localExecutionTime schedule.zone
      if now < candidate then do
        let candidate ←
          resolveLocalDailyOccurrence (d - 1) schedule.localExecutionTime schedule.zone
        pure (some (max candidate nextRun))
      else
        pure (some (max candidate nextRun))

/-- `_schedule_is_eligible`. -/
def scheduleIsEligible (tenant : Tenant) (schedule : BackupSchedule) : Bool :=
  if !tenant.isActive || schedule.scope ≠ .allEnabled then
    false
  else
    match tenant.subscription with
    | none => false
    | some subscription =>
      if !subscription.planActive || !subscription.operational then
        false
      else
        match resolveRequestedScope tenant.products .allEnabled with
        | .error _ => false
        | .ok resolution => !resolution.includedProducts.isEmpty

def Site.saveSchedule (s : Site) (pk : ℕ) (schedule : BackupSchedule) : Site :=
  { s with schedules := s.schedules.set pk schedule }

/-- `_advance_schedule`. -/
def advanceSchedule (pk : ℕ) (schedule : BackupSchedule) (now : Instant)
    (claimedRun : Option Instant) : Tx Site ScheduleFault PUnit := do
  let next ← reads fun _ => nextDailyOccurrence schedule.localExecutionTime schedule.zone now
  modify (·.saveSchedule pk
    { schedule with
      nextRun := some next
      lastClaimedRun := claimedRun <|> schedule.lastClaimedRun })

/-- The cursor is moved, and a time that cannot be resolved is a result. -/
def moveCursor (pk : ℕ) (schedule : BackupSchedule) (now : Instant) (state : ScheduleClaimState) :
    Tx Site ScheduleFault ScheduleClaimResult := do
  match ← Tx.attempt (advanceSchedule pk schedule now none) with
  | .ok _ => pure { state }
  | .error _ => pure { state := .invalid }

/-- The end of `_claim_due_schedule`, for an occurrence that is due. -/
def claimOccurrence (setup : ScheduleSetup) (pk : ℕ) (schedule : BackupSchedule)
    (now due : Instant) : Tx Site ScheduleFault ScheduleClaimResult := do
  let z ← reads fun _ => findTimezone schedule.zone
  let localDate := z.dateOf due
  let key := setup.scheduledKey schedule.business localDate due
  let s ← get
  let backup ← createBackupRequest
    { business := schedule.business
      scope := .allEnabled
      trigger := .scheduled
      scheduledLocalDate := some localDate
      idempotencyKey := key
      systemActor := true
      occurrence := some due }
  advanceSchedule pk schedule now (some due)
  if (s.findBackup schedule.business key).isSome then
    pure ⟨.alreadyDispatched, some backup, some schedule.business⟩
  else
    pure ⟨.dispatched, some backup, some schedule.business⟩

/-- `_claim_due_schedule`. -/
def claimDueSchedule (setup : ScheduleSetup) (now : Instant) (pk : ℕ) :
    Tx Site ScheduleFault ScheduleClaimResult := do
  let s ← get
  match s.schedules[pk]? with
  | none => pure { state := .disabled }
  | some schedule =>
    if !schedule.enabled then
      pure { state := .disabled }
    else if schedule.nextRun.isNone then
      moveCursor pk schedule now .initialized
    else
      match latestDueOccurrence schedule now with
      | .error _ => pure { state := .invalid }
      | .ok none => pure { state := .future }
      | .ok (some due) =>
        if !scheduleIsEligible (s.tenants schedule.business) schedule then
          moveCursor pk schedule now .ineligible
        else if s.backups.any fun b =>
            b.business = schedule.business && activeBackupStatuses.contains b.status then
          pure { state := .deferredActive }
        else
          claimOccurrence setup pk schedule now due

/-- The enabled schedules with their primary keys and cursors. -/
def Site.enabledSchedules (s : Site) : List (ℕ × Option Instant) :=
  (s.schedules.zipIdx.filter (·.1.enabled)).map fun x => (x.2, x.1.nextRun)

/-- The schedules that a scan takes: those that are due by their cursor, and then those without a
cursor. -/
def Site.scan (s : Site) (now : Instant) (limit : ℕ) : List ℕ :=
  let due := ((s.enabledSchedules.filterMap fun x => x.2.map fun u => (x.1, u)).filter
    (·.2 ≤ now)).insertionSort fun x y => x.2 < y.2 ∨ x.2 = y.2 ∧ x.1 ≤ y.1
  let ids := (due.map (·.1)).take limit
  ids ++ ((s.enabledSchedules.filter (·.2.isNone)).map (·.1)).take (limit - ids.length)

/-- The claims of a scan, one transaction after the other. -/
def claimAll (setup : ScheduleSetup) (now : Instant) :
    List ℕ → Site → Except ScheduleFault (List ScheduleClaimResult) × Site
  | [], s => (.ok [], s)
  | pk :: pks, s =>
    match (claimDueSchedule setup now pk).run s with
    | .error e => (.error e, s)
    | .ok (result, t) =>
      let (results, u) := claimAll setup now pks t
      (results.map (result :: ·), u)

/-- `dispatch_due_schedules`, up to the counts of its result. -/
def dispatchDueSchedules (setup : ScheduleSetup) (now : Instant) (limit : ℕ) (s : Site) :
    Except ScheduleFault (List ScheduleClaimResult) × Site :=
  if 1 ≤ limit ∧ limit ≤ 1000 then
    claimAll setup now (s.scan now limit) s
  else
    (.error .scheduleDispatch, s)

/-! ## The configuration of a schedule -/

structure ScheduleRequest where
  business : ℕ
  localExecutionTime : TimeOfDay
  enabled : Bool
  zone : Option TimeZone
  scope : BackupScope := .allEnabled
  nextRun : Option Instant := none
  authorized : Bool
  deriving DecidableEq

/-- The cursor that `upsert_backup_schedule` saves. -/
def savedCursor (r : ScheduleRequest) (now : Instant) : Except ScheduleFault (Option Instant) :=
  if r.enabled then
    match r.nextRun with
    | some u => pure (some u)
    | none =>
      match nextDailyOccurrence r.localExecutionTime r.zone now with
      | .ok u => pure (some u)
      | .error _ => throw (.validation "The daily schedule time cannot be resolved safely.")
  else
    pure none

/-- `upsert_backup_schedule`. -/
def upsertBackupSchedule (r : ScheduleRequest) (now : Instant) :
    Tx Site ScheduleFault PUnit := do
  let resolution ← reads fun s => resolveRequestedScope (s.tenants r.business).products r.scope
  check (resolution.scope = .allEnabled)
    (.validation "The v1 daily schedule must use ALL_ENABLED scope.")
  check r.authorized .permissionDenied
  check r.zone.isSome (.validation "The schedule timezone is not recognized.")
  let nextRun ← reads fun _ => savedCursor r now
  let saved (lastClaimedRun : Option Instant) : BackupSchedule :=
    { business := r.business
      enabled := r.enabled
      zone := r.zone
      localExecutionTime := r.localExecutionTime
      nextRun
      lastClaimedRun }
  modify fun s =>
    match s.schedules.findIdx? (·.business = r.business) with
    | none => { s with schedules := s.schedules ++ [saved none] }
    | some pk => s.saveSchedule pk (saved (s.schedules[pk]?.bind (·.lastClaimedRun)))

/-! ## Runs -/

/-- A request at a time, or a change that others make. -/
inductive Move
  | dispatch (now : Instant) (limit : ℕ)
  | upsert (now : Instant) (r : ScheduleRequest)
  | request (r : BackupRequest)
  | progress (pk : ℕ) (status : BackupStatus)
  | tenant (business : ℕ) (t : Tenant)

def step (setup : ScheduleSetup) (s : Site) : Move → Site
  | .dispatch now limit => (dispatchDueSchedules setup now limit { s with clock := now }).2
  | .upsert now r => commit (upsertBackupSchedule r now) { s with clock := now }
  | .request r => commit (createBackupRequest r) s
  | .progress pk status => { s with backups := s.backups.modify pk ({ · with status }) }
  | .tenant business t => { s with tenants := Function.update s.tenants business t }

end NexaPos.Backups.Scheduling
