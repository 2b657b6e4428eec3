import NexaPos.Backups.Dispatch
import NexaPos.Lib.Transaction
import Mathlib.Tactic.Ring

/-!
# Recovery of stranded requests

A reconciliation cuts the journal to its oldest intents before it asks which of them are still
eligible, so a waiting request is reached exactly when its intent is among the first rows.  A
handover reads the number of attempts, and a reconciliation the eligibility, some steps before it
records an attempt; the limit on attempts and the refusal to repeat a confirmed delivery hold as
long as nobody else acts on the operation in between.
-/

namespace NexaPos.Backups.Dispatching

open Routine

/-! ## Rows about an operation -/

/-- The row records a delivery attempt of the operation. -/
def BackupActivity.AttemptOf (a : BackupActivity) (op : Operation) : Prop :=
  a.subject = some op ∧ a.event = op.attempted

/-- `structured_metadata["redispatch"]` of an attempt. -/
def BackupActivity.redispatch (a : BackupActivity) : Bool :=
  match a.metadata with
  | .attempted _ _ redispatch => redispatch
  | _ => false

instance (a : BackupActivity) (op : Operation) : Decidable (a.AttemptOf op) :=
  inferInstanceAs (Decidable (_ ∧ _))

/-- The operation was confirmed, started or ended. -/
def Site.Settled (s : Site) (op : Operation) : Prop :=
  s.hasActivity op op.settling = true ∨
    match op with
    | .backup pk => ∃ row ∈ s.backups[pk]?, row.status ≠ .queued ∨ row.startedAt ≠ none
    | .restore pk => ∃ row ∈ s.restores[pk]?, row.status ≠ .queued ∨ row.startedAt ≠ none

/-- A row counts for an operation under an event of that relation when it is about it. -/
lemma concerns_iff {a : BackupActivity} {op : Operation} (h : a.event.relation = some op.relation) :
    a.concerns op = true ↔ a.subject = some op := by
  cases op with
  | backup pk =>
    simp [BackupActivity.concerns, BackupActivity.subject, h, Operation.relation,
      BackupActivity.related, Relation.operation]
  | restore pk =>
    simp [BackupActivity.concerns, BackupActivity.subject, h, Operation.relation,
      BackupActivity.related, Relation.operation]

@[simp] lemma relation_attempted (op : Operation) : op.attempted.relation = some op.relation := by
  cases op <;> rfl

lemma relation_settling {op : Operation} {event : JournalEvent} (h : event ∈ op.settling) :
    event.relation = some op.relation := by
  cases op with
  | backup pk =>
    simp only [Operation.settling, List.mem_cons, List.not_mem_nil, or_false] at h
    rcases h with rfl | rfl | rfl | rfl <;> rfl
  | restore pk =>
    simp only [Operation.settling, List.mem_cons, List.not_mem_nil, or_false] at h
    rcases h with rfl | rfl | rfl | rfl | rfl | rfl | rfl <;> rfl

lemma attempted_not_settling (op : Operation) : op.attempted ∉ op.settling := by
  cases op <;> simp [Operation.attempted, Operation.settling]

lemma concerns_attempted_iff {a : BackupActivity} {op : Operation} :
    (a.concerns op && a.event == op.attempted) = true ↔ a.AttemptOf op := by
  rw [Bool.and_eq_true, beq_iff_eq, BackupActivity.AttemptOf]
  refine and_congr_left fun h => concerns_iff ?_
  rw [h, relation_attempted]

lemma concerns_settling_iff {a : BackupActivity} {op : Operation} :
    (a.concerns op && op.settling.contains a.event) = true ↔
      a.subject = some op ∧ a.event ∈ op.settling := by
  rw [Bool.and_eq_true, List.contains_iff_mem]
  exact and_congr_left fun h => concerns_iff (relation_settling h)

/-! ## New rows -/

namespace Site

variable {s : Site} {who q : ℕ} {a : BackupActivity} {op : Operation}

/-- What a new row leaves alone, and the journal. -/
lemma record_frame (s : Site) (who : ℕ) (a : BackupActivity) :
    (s.record who a).journal = s.journal ++ [{ a with createdAt := s.clock }] ∧
      (s.record who a).backups = s.backups ∧ (s.record who a).restores = s.restores ∧
      (s.record who a).locks = s.locks := by
  cases h : a.subject with
  | none => simp [record, h]
  | some op =>
    simp only [record, h]
    split
    · exact ⟨rfl, rfl, rfl, rfl⟩
    · split <;> exact ⟨rfl, rfl, rfl, rfl⟩

/-- A party still holds an operation as checked when the new row does not settle it. -/
lemma checked_record (h : (s.record who a).checked q = some op) :
    s.checked q = some op ∧ ¬ (a.subject = some op ∧ a.event ∈ op.settling) := by
  cases hsubject : a.subject with
  | none =>
    simp only [record, hsubject] at h
    exact ⟨h, nofun⟩
  | some op' =>
    simp only [record, hsubject] at h
    split at h
    · simp only [settle] at h
      split at h
      · exact nomatch h
      · rename_i hne
        refine ⟨h, fun hop => hne ?_⟩
        rw [h, ← hop.1]
    · rename_i hsettling
      have hchecked : s.checked q = some op := by
        split at h
        · exact h
        · exact h
      refine ⟨hchecked, fun hop => hsettling ?_⟩
      cases hop.1
      exact hop.2

/-- A party still holds an operation as counted when it wrote the row itself, or the row records
no attempt of it. -/
lemma counted_record (h : (s.record who a).counted q = some op) :
    s.counted q = some op ∧ (a.AttemptOf op → q = who) := by
  cases hsubject : a.subject with
  | none =>
    simp only [record, hsubject] at h
    exact ⟨h, fun ha => absurd (hsubject.symm.trans ha.1) nofun⟩
  | some op' =>
    simp only [record, hsubject] at h
    split at h
    · rename_i hsettling
      refine ⟨h, fun ha => ?_⟩
      cases hsubject.symm.trans ha.1
      rw [ha.2] at hsettling
      exact absurd hsettling (attempted_not_settling op)
    · split at h
      · simp only [supersede] at h
        split at h
        · exact nomatch h
        · rename_i hne
          refine ⟨h, fun ha => ?_⟩
          by_contra hq
          exact hne ⟨hq, by rw [h, ← hsubject, ha.1]⟩
      · rename_i hattempted
        refine ⟨h, fun ha => ?_⟩
        cases hsubject.symm.trans ha.1
        exact absurd ha.2 hattempted

lemma attempts_record (s : Site) (who : ℕ) (a : BackupActivity) (op : Operation) :
    (s.record who a).attempts op = s.attempts op + if a.AttemptOf op then 1 else 0 := by
  rw [attempts, countActivity, (record_frame s who a).1, List.countP_append, List.countP_singleton]
  congr 1
  refine if_congr ?_ rfl rfl
  exact concerns_attempted_iff (a := { a with createdAt := s.clock })

lemma settled_record :
    (s.record who a).Settled op ↔ s.Settled op ∨ (a.subject = some op ∧ a.event ∈ op.settling) := by
  obtain ⟨hjournal, hbackups, hrestores, -⟩ := record_frame s who a
  have hactivity : (s.record who a).hasActivity op op.settling = true ↔
      s.hasActivity op op.settling = true ∨ (a.subject = some op ∧ a.event ∈ op.settling) := by
    rw [hasActivity, hjournal, List.any_append, Bool.or_eq_true, List.any_cons, List.any_nil,
      Bool.or_false]
    exact or_congr Iff.rfl (concerns_settling_iff (a := { a with createdAt := s.clock }))
  cases op with
  | backup pk =>
    simp only [Settled, hactivity, hbackups]
    exact or_right_comm
  | restore pk =>
    simp only [Settled, hactivity, hrestores]
    exact or_right_comm

end Site

/-! ## What a process may do -/

/-- What a process knows: the operation it last found eligible, and how many attempts of an
operation it may still record. -/
structure Phase where
  checked : Option Operation := none
  room : Option (Operation × ℕ) := none

/-- An attempt takes its room. -/
def Phase.after (g : Phase) (a : BackupActivity) : Phase :=
  { g with room := g.room.map fun x => if a.AttemptOf x.1 then (x.1, x.2 - 1) else x }

/-- The attempts that a count leaves. -/
def DispatchSettings.left (c : DispatchSettings) (attempts : ℕ) : ℕ := c.totalLimit - attempts

/-- An attempt is recorded within the room that the count left, and repeated only for the
operation that was found eligible. -/
def protocol (c : DispatchSettings) :
    Protocol Phase DispatchCall DispatchCall.Result DispatchFault where
  may g i :=
    match i with
    | .createActivity a => ∀ op, a.AttemptOf op →
        (∃ n, g.room = some (op, n + 1)) ∧ (a.redispatch = true → g.checked = some op)
    | _ => True
  next g i r g' :=
    match i, r with
    | .lockBackup pk, .ok (some _) => g' = { g with checked := some (.backup pk) }
    | .lockRestore pk, .ok (some _) => g' = { g with checked := some (.restore pk) }
    | .count op event, .ok n =>
        g' = { g with room := if event = op.attempted then some (op, c.left n) else none }
    | .createActivity a, _ => g' = g.after a
    | _, _ => g' = g

variable {c : DispatchSettings} {operation : Subject} {redispatch : Bool}

/-- The events that a dispatch of the operation is called with. -/
def Subject.events : Subject → DispatchEvents
  | .backup .. => backupDispatchEvents
  | .restore .. => restoreDispatchEvents

/-- The row that `createActivity` writes. -/
def Subject.activity (operation : Subject) (event : JournalEvent) (metadata : Metadata) :
    BackupActivity :=
  match operation with
  | .backup pk _ => { event, backup := some pk, metadata }
  | .restore pk row => { event, backup := some row.sourceBackup, restore := some pk, metadata }

lemma createActivity_eq (operation : Subject) (event : JournalEvent) (metadata : Metadata) :
    createActivity operation event metadata =
      ask (.createActivity (operation.activity event metadata)) := by
  cases operation <;> rfl

lemma subject_activity {event : JournalEvent} {metadata : Metadata}
    (h : event.relation = some operation.operation.relation) :
    (operation.activity event metadata).subject = some operation.operation := by
  cases operation with
  | backup pk row =>
    simp only [Subject.operation, Operation.relation] at h
    simp [Subject.activity, BackupActivity.subject, h, BackupActivity.related,
      Relation.operation, Subject.operation]
  | restore pk row =>
    simp only [Subject.operation, Operation.relation] at h
    simp [Subject.activity, BackupActivity.subject, h, BackupActivity.related,
      Relation.operation, Subject.operation]

@[simp] lemma event_activity {event : JournalEvent} {metadata : Metadata} :
    (operation.activity event metadata).event = event := by
  cases operation <;> rfl

lemma attempted_events (operation : Subject) :
    operation.events.attempted = operation.operation.attempted := by
  cases operation <;> rfl

/-- The code keeps to the protocol. -/
def Obeys {α : Type} (c : DispatchSettings) (g : Phase) (x : Code α) : Prop :=
  Meets (protocol c) x (fun _ _ _ => True) (fun _ _ _ => True) () g

lemma obeys_bind {β : Type} {g : Phase} {i : DispatchCall} {f : i.Result → Code β}
    (hmay : (protocol c).may g i)
    (hok : ∀ a g', (protocol c).next g i (.ok a) g' → Obeys c g' (f a)) :
    Obeys c g (ask i >>= f) :=
  meets_perform_bind hmay (fun _ _ _ => trivial) hok

/-- A row that records no attempt is always admitted. -/
lemma obeys_activity {β : Type} {g : Phase} {event : JournalEvent} {metadata : Metadata}
    {f : Unit → Code β} (hevent : event ≠ operation.operation.attempted)
    (hrelation : event.relation = some operation.operation.relation)
    (hok : ∀ g', Obeys c g' (f ⟨⟩)) :
    Obeys c g (createActivity operation event metadata >>= f) := by
  rw [createActivity_eq]
  refine meets_perform_bind ?_ (fun _ _ _ => trivial) fun _ g' _ => hok g'
  rintro op ⟨hsubject, hattempted⟩
  rw [subject_activity hrelation] at hsubject
  cases hsubject
  exact absurd (event_activity.symm.trans hattempted) hevent

lemma obeys_pure {β : Type} {g : Phase} (a : β) : Obeys c g (pure a) := meets_pure.mpr trivial

lemma obeys_confirm {g : Phase} {attempt : ℕ} :
    Obeys c g (confirm operation operation.events redispatch attempt) := by
  apply obeys_activity
  · cases operation <;> exact nofun
  · cases operation <;> rfl
  intro g'
  cases redispatch with
  | false => exact obeys_pure _
  | true =>
    apply obeys_activity
    · cases operation <;> exact nofun
    · cases operation <;> rfl
    exact fun g' => obeys_pure _

lemma obeys_publish {β : Type} {g : Phase} {f : Bool → Code β}
    (h : ∀ accepted, Obeys c g (f accepted)) : Obeys c g (publish operation >>= f) := by
  rw [Obeys, meets_bind, publish, meets_tryCatch]
  apply meets_perform_bind
  · trivial
  · rintro e g' rfl
    split
    · exact trivial
    · exact h false
  · rintro a g' rfl
    exact h true

/-- The loop records no more attempts than its rounds. -/
lemma obeys_deliver {maximum rounds attempts n : ℕ} {g : Phase}
    (hroom : g.room = some (operation.operation, n)) (hn : rounds ≤ n)
    (hchecked : redispatch = true → g.checked = some operation.operation) :
    Obeys c g (deliver operation operation.events redispatch maximum rounds attempts) := by
  induction rounds generalizing attempts n g with
  | zero =>
    apply obeys_activity
    · cases operation <;> exact nofun
    · cases operation <;> rfl
    exact fun g' => obeys_pure _
  | succ rounds ih =>
    obtain ⟨n, rfl⟩ : ∃ n', n = n' + 1 := ⟨n - 1, by omega⟩
    rw [deliver, createActivity_eq]
    have hsubject : (operation.activity operation.events.attempted
        (.attempted (attempts + 1) maximum redispatch)).AttemptOf operation.operation := by
      constructor
      · apply subject_activity
        rw [attempted_events, relation_attempted]
      · rw [event_activity, attempted_events]
    apply meets_perform_bind
    · intro op hop
      cases Option.some.inj (hsubject.1.symm.trans hop.1)
      refine ⟨⟨n, hroom⟩, fun hr => hchecked ?_⟩
      cases operation <;> exact hr
    · exact fun _ _ _ => trivial
    · rintro a g' rfl
      apply obeys_publish
      intro accepted
      cases accepted with
      | true => exact obeys_confirm
      | false =>
        apply ih (n := n)
        · simp [Phase.after, hroom, hsubject]
        · omega
        · exact hchecked

lemma obeys_dispatch {g : Phase} (hchecked : redispatch = true →
    g.checked = some operation.operation) :
    Obeys c g (dispatch c operation operation.events redispatch) := by
  apply meets_perform_bind
  · trivial
  · exact fun _ _ _ => trivial
  · rintro (n : ℕ) g' rfl
    rw [if_pos (attempted_events operation)]
    change Obeys c _ (if min c.immediateLimit (c.totalLimit - n) = 0 then _ else _)
    split
    · exact obeys_pure _
    · apply obeys_deliver rfl
      · exact Nat.min_le_right _ _
      · exact hchecked

lemma obeys_dispatchBackup {g : Phase} {pk : ℕ} {row : BackupRecord}
    (hchecked : redispatch = true → g.checked = some (.backup pk)) :
    Obeys c g (dispatchBackup c pk row redispatch) := by
  rw [dispatchBackup]
  split
  · exact obeys_pure _
  · exact obeys_dispatch hchecked

lemma obeys_dispatchRestore {g : Phase} {pk : ℕ} {row : RestoreOperation}
    (hchecked : redispatch = true → g.checked = some (.restore pk)) :
    Obeys c g (dispatchRestore c pk row redispatch) := by
  rw [dispatchRestore]
  split
  · exact obeys_pure _
  · exact obeys_dispatch hchecked

lemma obeys_ask {g : Phase} {i : DispatchCall} (hmay : (protocol c).may g i) :
    Obeys c g (ask i) := by
  refine meets_perform.mpr ⟨hmay, fun r g' _ => ?_⟩
  cases r <;> exact trivial

lemma obeys_then {α β : Type} {g : Phase} {x : Code α} {f : α → Code β} (hx : Obeys c g x)
    (hf : ∀ a g', Obeys c g' (f a)) : Obeys c g (x >>= f) := by
  rw [Obeys, meets_bind]
  exact hx.mono (fun a _ g' _ => hf a g') fun _ _ _ _ => trivial

/-- The loop over the candidates, when what is locked is what is dispatched. -/
lemma obeys_redispatchAll {α : Type} {lock : ℕ → Code (Option α)}
    {again : ℕ → α → Code DispatchOutcome} {op : ℕ → Operation}
    (hlock : ∀ pk g (f : Option α → Code DispatchReconciliationResult),
      (∀ g', Obeys c g' (f none)) →
      (∀ row g', g'.checked = some (op pk) → Obeys c g' (f (some row))) →
      Obeys c g (lock pk >>= f))
    (hagain : ∀ pk row g, g.checked = some (op pk) → Obeys c g (again pk row))
    (pks : List ℕ) (result : DispatchReconciliationResult) (g : Phase) :
    Obeys c g (redispatchAll lock again pks result) := by
  induction pks generalizing result g with
  | nil => exact obeys_pure _
  | cons pk pks ih =>
    apply hlock
    · exact fun g' => ih _ _
    · exact fun row g' hg' => obeys_then (hagain pk row g' hg') fun _ _ => ih _ _

lemma obeys_lockBackup {β : Type} (pk : ℕ) (g : Phase) (f : Option BackupRecord → Code β)
    (hnone : ∀ g', Obeys c g' (f none))
    (hsome : ∀ row g', g'.checked = some (.backup pk) → Obeys c g' (f (some row))) :
    Obeys c g (ask (.lockBackup pk) >>= f) := by
  refine obeys_bind trivial fun a g' hn => ?_
  cases a with
  | none => exact hnone g'
  | some row =>
    apply hsome
    rw [show g' = _ from hn]

lemma obeys_lockRestore {β : Type} (pk : ℕ) (g : Phase) (f : Option RestoreOperation → Code β)
    (hnone : ∀ g', Obeys c g' (f none))
    (hsome : ∀ row g', g'.checked = some (.restore pk) → Obeys c g' (f (some row))) :
    Obeys c g (ask (.lockRestore pk) >>= f) := by
  refine obeys_bind trivial fun a g' hn => ?_
  cases a with
  | none => exact hnone g'
  | some row =>
    apply hsome
    rw [show g' = _ from hn]

lemma obeys_currentTime {g : Phase} (now : Option ℤ) : Obeys c g (currentTime now) := by
  cases now with
  | some t => exact obeys_pure t
  | none => exact obeys_ask trivial

lemma obeys_candidateIds {g : Phase} (event : JournalEvent) (relation : Relation)
    (cutoff limit : ℤ) : Obeys c g (candidateIds event relation cutoff limit) := by
  by_cases h : 1 ≤ limit ∧ limit ≤ 1000
  · rw [candidateIds, if_pos h]
    exact obeys_ask trivial
  · rw [candidateIds, if_neg h]
    exact meets_throw.mpr trivial

lemma obeys_reconcile (g : Phase) (r : Reconciliation) : Obeys c g (r.code c) := by
  unfold Reconciliation.code
  split
  · apply obeys_then (obeys_currentTime _)
    intro t g
    apply obeys_then (obeys_candidateIds _ _ _ _)
    intro pks g
    exact obeys_redispatchAll (fun pk g f => obeys_lockBackup pk g f)
      (fun pk row g hg => obeys_dispatchBackup fun _ => hg) pks _ g
  · apply obeys_then (obeys_currentTime _)
    intro t g
    apply obeys_then (obeys_candidateIds _ _ _ _)
    intro pks g
    exact obeys_redispatchAll (fun pk g f => obeys_lockRestore pk g f)
      (fun pk row g hg => obeys_dispatchRestore fun _ => hg) pks _ g

lemma follows_of_obeys {α : Type} {g : Phase} {x : Code α} (h : Obeys c g x) :
    ((x.prog ()).bind fun _ => Prog.done PUnit.unit).Follows (protocol c) (fun _ _ => True) g := by
  rw [Prog.follows_bind]
  exact Prog.Follows.mono h fun _ _ _ => trivial

/-- Every process keeps to the protocol from the start. -/
lemma follows_code (c : DispatchSettings) (p : Program) :
    (p.code c).Follows (protocol c) (fun _ _ => True) {} := by
  cases p with
  | dispatch operation =>
    apply follows_of_obeys
    cases operation with
    | backup pk row => exact obeys_dispatchBackup nofun
    | restore pk row => exact obeys_dispatchRestore nofun
  | reconcile r => exact follows_of_obeys (obeys_reconcile {} r)

/-! ## What a run keeps -/

/-- Nobody has attempted the operation since the party that now records an attempt counted its
attempts; and when it repeats a delivery, nobody has settled the operation since it found it
eligible. -/
def Undisturbed (w : Pool ℕ Site DispatchCall DispatchCall.Result DispatchFault)
    (m : Move ℕ DispatchFault Program Outside) : Prop :=
  match System.calls w m with
  | some (who, .createActivity a, _) => ∀ op ∈ a.subject, a.event = op.attempted →
      w.shared.counted who = some op ∧ (a.redispatch = true → w.shared.checked who = some op)
  | _ => True

instance (w : Pool ℕ Site DispatchCall DispatchCall.Result DispatchFault)
    (m : Move ℕ DispatchFault Program Outside) : Decidable (Undisturbed w m) := by
  unfold Undisturbed
  split <;> infer_instance

/-- The attempts are within the limit, what a party has counted leaves it its room, and what it
holds as checked is not settled. -/
structure Site.Bounded (c : DispatchSettings) (s : Site) (g : ℕ → Phase) : Prop where
  attempts : ∀ op, s.attempts op ≤ c.totalLimit
  counted : ∀ who op n, s.counted who = some op → (g who).room = some (op, n) →
    s.attempts op + n ≤ c.totalLimit
  checked : ∀ who op, s.checked who = some op → (g who).checked = some op → ¬ s.Settled op

variable {s : Site} {g : ℕ → Phase} {a : BackupActivity} {who : ℕ}

lemma room_after {g : Phase} {op : Operation} {n : ℕ} (h : (g.after a).room = some (op, n)) :
    ∃ m, g.room = some (op, m) ∧ n = if a.AttemptOf op then m - 1 else m := by
  obtain ⟨⟨op', m⟩, hroom, hx⟩ := Option.map_eq_some_iff.mp h
  by_cases ha : a.AttemptOf op'
  · rw [if_pos ha] at hx
    cases hx
    exact ⟨m, hroom, by rw [if_pos ha]⟩
  · rw [if_neg ha] at hx
    cases hx
    exact ⟨n, hroom, by rw [if_neg ha]⟩

/-- A row that could not be written takes the room of its attempt all the same. -/
lemma Site.Bounded.lost (h : s.Bounded c g) (who : ℕ) (a : BackupActivity) :
    s.Bounded c (Function.update g who ((g who).after a)) := by
  refine ⟨h.attempts, fun q op n hcounted hroom => ?_, fun q op hchecked hg => ?_⟩
  · by_cases hq : q = who
    · subst hq
      rw [Function.update_self] at hroom
      obtain ⟨m, hroom', hn⟩ := room_after hroom
      have hbound := h.counted q op m hcounted hroom'
      split at hn <;> omega
    · rw [Function.update_of_ne hq] at hroom
      exact h.counted q op n hcounted hroom
  · by_cases hq : q = who
    · subst hq
      rw [Function.update_self] at hg
      exact h.checked q op hchecked hg
    · rw [Function.update_of_ne hq] at hg
      exact h.checked q op hchecked hg

/-- A row that is written. -/
lemma Site.Bounded.record (h : s.Bounded c g)
    (hroom : ∀ op, a.AttemptOf op →
      s.counted who = some op ∧ ∃ n, (g who).room = some (op, n + 1)) :
    (s.record who a).Bounded c (Function.update g who ((g who).after a)) := by
  have hnew : ∀ op,
      (s.record who a).attempts op = s.attempts op + if a.AttemptOf op then 1 else 0 :=
    s.attempts_record who a
  refine ⟨fun op => ?_, fun q op n hcounted hroom' => ?_, fun q op hchecked hg => ?_⟩
  · rw [hnew]
    split
    · rename_i ha
      obtain ⟨hcounted, n, hn⟩ := hroom op ha
      have hbound := h.counted who op (n + 1) hcounted hn
      omega
    · exact h.attempts op
  · obtain ⟨hcounted', hwriter⟩ := Site.counted_record hcounted
    rw [hnew]
    by_cases hq : q = who
    · subst hq
      rw [Function.update_self] at hroom'
      obtain ⟨m, hm, hn⟩ := room_after hroom'
      have hbound := h.counted q op m hcounted' hm
      split at hn
      · rename_i ha
        rw [if_pos ha]
        obtain ⟨-, k, hk⟩ := hroom op ha
        cases hm.symm.trans hk
        omega
      · rename_i ha
        rw [if_neg ha]
        omega
    · rw [Function.update_of_ne hq] at hroom'
      rw [if_neg fun ha => hq (hwriter ha)]
      exact h.counted q op n hcounted' hroom'
  · obtain ⟨hchecked', hsettling⟩ := Site.checked_record hchecked
    rw [Site.settled_record, not_or]
    refine ⟨?_, hsettling⟩
    by_cases hq : q = who
    · subst hq
      rw [Function.update_self] at hg
      exact h.checked q op hchecked' hg
    · rw [Function.update_of_ne hq] at hg
      exact h.checked q op hchecked' hg

/-- A row that records no attempt, written beside the processes. -/
lemma Site.Bounded.record_outside (h : s.Bounded c g) (ha : ∀ op, ¬ a.AttemptOf op) :
    (s.record who a).Bounded c g := by
  have hafter : (g who).after a = g who := by
    simp only [Phase.after, ha, if_false, Option.map_id']
  have hrecord : (s.record who a).Bounded c (Function.update g who ((g who).after a)) :=
    h.record fun op hop => absurd hop (ha op)
  rwa [hafter, Function.update_eq_self] at hrecord

/-- The shared state changes without a new attempt, and settles only what is no longer held as
checked. -/
lemma Site.Bounded.change {t : Site} (h : s.Bounded c g) (hjournal : t.journal = s.journal)
    (hcounted : t.counted = s.counted)
    (hchecked : ∀ q op, t.checked q = some op →
      s.checked q = some op ∧ (t.Settled op → s.Settled op)) :
    t.Bounded c g := by
  have hattempts : ∀ op, t.attempts op = s.attempts op := fun op => by
    rw [Site.attempts, Site.countActivity, hjournal, Site.attempts, Site.countActivity]
  refine ⟨fun op => ?_, fun q op n hc hroom => ?_, fun q op hc hg hsettled => ?_⟩
  · rw [hattempts]
    exact h.attempts op
  · rw [hattempts]
    rw [hcounted] at hc
    exact h.counted q op n hc hroom
  · obtain ⟨hc', hsettled'⟩ := hchecked q op hc
    exact h.checked q op hc' hg (hsettled' hsettled)

lemma Site.Bounded.settle (h : s.Bounded c g) {t : Site} (op : Operation)
    (hjournal : t.journal = s.journal) (hcounted : t.counted = s.counted)
    (hchecked : t.checked = s.checked)
    (hsettled : ∀ op', op' ≠ op → t.Settled op' → s.Settled op') : (t.settle op).Bounded c g := by
  refine h.change hjournal hcounted fun q op' hc => ?_
  simp only [Site.settle] at hc
  split at hc
  · exact nomatch hc
  · rename_i hne
    rw [← hchecked]
    refine ⟨hc, hsettled op' fun heq => hne ?_⟩
    rw [hc, heq]

/-- Appending a row or replacing it leaves the other rows alone. -/
lemma getElem?_append_of_ne {α : Type} {l : List α} {x : α} {i : ℕ} (h : i ≠ l.length) :
    (l ++ [x])[i]? = l[i]? := by
  rw [List.getElem?_append]
  split
  · rfl
  · rename_i hle
    rw [List.getElem?_eq_none (by simp; omega), List.getElem?_eq_none (by omega)]

/-- What happens beside the processes. -/
lemma Site.Bounded.outside (h : s.Bounded c g) (x : Outside) :
    (outside x s).Bounded c g := by
  cases x with
  | tick t => exact h.change rfl rfl fun q op hc => ⟨hc, id⟩
  | setLocks locks => exact h.change rfl rfl fun q op hc => ⟨hc, id⟩
  | createBackup row =>
    refine h.settle _ rfl rfl rfl fun op hne hsettled => ?_
    cases op with
    | backup pk =>
      have hpk : pk ≠ s.backups.length := fun heq => hne (by rw [heq])
      simpa only [Site.Settled, Site.hasActivity, getElem?_append_of_ne hpk] using hsettled
    | restore pk => exact hsettled
  | createRestore row =>
    refine h.settle _ rfl rfl rfl fun op hne hsettled => ?_
    cases op with
    | backup pk => exact hsettled
    | restore pk =>
      have hpk : pk ≠ s.restores.length := fun heq => hne (by rw [heq])
      simpa only [Site.Settled, Site.hasActivity, getElem?_append_of_ne hpk] using hsettled
  | updateBackup pk row =>
    refine h.settle _ rfl rfl rfl fun op hne hsettled => ?_
    cases op with
    | backup pk' =>
      have hpk : pk ≠ pk' := fun heq => hne (by rw [heq])
      simpa only [Site.Settled, Site.hasActivity, List.getElem?_set_ne hpk] using hsettled
    | restore pk' => exact hsettled
  | updateRestore pk row =>
    refine h.settle _ rfl rfl rfl fun op hne hsettled => ?_
    cases op with
    | backup pk' => exact hsettled
    | restore pk' =>
      have hpk : pk ≠ pk' := fun heq => hne (by rw [heq])
      simpa only [Site.Settled, Site.hasActivity, List.getElem?_set_ne hpk] using hsettled
  | recordIntent who pk row =>
    simp only [Dispatching.outside, recordBackupDispatchIntent]
    split
    · refine h.record_outside fun op hop => ?_
      cases op <;> exact nomatch hop.2
    · exact h
  | journal who a =>
    simp only [Dispatching.outside]
    split
    · exact h
    · rename_i hevent
      refine h.record_outside fun op hop => hevent ?_
      rw [hop.2]
      cases op <;> rfl

/-- A call that cannot be torn is served, or raises and changes nothing. -/
lemma answer_cases {i : DispatchCall} (h : torn i = false) (s : Site) (who : ℕ)
    (r : Answer DispatchFault) :
    (system c).answer who i s r = exec c who i s ∨
      ∃ e, (system c).answer who i s r = (.error e, s) := by
  cases r with
  | served => exact .inl rfl
  | raised e => exact .inr ⟨e, rfl⟩
  | lost e =>
    refine .inr ⟨e, ?_⟩
    change (_, if torn i then _ else s) = _
    rw [h]
    rfl

lemma Site.Bounded.same (h : s.Bounded c g) (who : ℕ) :
    ∃ g', g' = g who ∧ s.Bounded c (Function.update g who g') :=
  ⟨g who, rfl, by rwa [Function.update_eq_self]⟩

/-- An eligible operation is not settled. -/
lemma not_settled_of_backup {pk : ℕ} {row : BackupRecord}
    (h : lockBackupForRedispatch c s pk = some row) : ¬ s.Settled (.backup pk) := by
  obtain ⟨hrow, heligible⟩ := Option.filter_eq_some_iff.mp h
  rw [backupDispatchEligible] at heligible
  split at heligible
  · exact nomatch heligible
  rename_i hfields
  push Not at hfields
  split at heligible
  · exact nomatch heligible
  split at heligible
  · exact nomatch heligible
  rename_i hsettling
  rintro (hactivity | ⟨row', hrow', hstarted⟩)
  · exact hsettling hactivity
  · cases hrow.symm.trans hrow'
    exact hstarted.elim (fun hstatus => hstatus hfields.1) fun hat => hat hfields.2.2.1

lemma not_settled_of_restore {pk : ℕ} {row : RestoreOperation}
    (h : lockRestoreForRedispatch c s pk = some row) : ¬ s.Settled (.restore pk) := by
  obtain ⟨hrow, heligible⟩ := Option.filter_eq_some_iff.mp h
  rw [restoreDispatchEligible] at heligible
  split at heligible
  · exact nomatch heligible
  rename_i hfields
  push Not at hfields
  split at heligible
  · exact nomatch heligible
  split at heligible
  · exact nomatch heligible
  rename_i hsettling
  rintro (hactivity | ⟨row', hrow', hstarted⟩)
  · exact hsettling hactivity
  · cases hrow.symm.trans hrow'
    exact hstarted.elim (fun hstatus => hstatus hfields.1) fun hat => hat hfields.2.1

/-- A party has found an operation eligible. -/
lemma Site.Bounded.check (h : s.Bounded c g) {op : Operation} (hop : ¬ s.Settled op) :
    Site.Bounded c { s with checked := Function.update s.checked who (some op) }
      (Function.update g who { g who with checked := some op }) := by
  refine ⟨h.attempts, fun q op' n hcounted hroom => ?_, fun q op' hchecked hg => ?_⟩
  · by_cases hq : q = who
    · subst hq
      rw [Function.update_self] at hroom
      exact h.counted q op' n hcounted hroom
    · rw [Function.update_of_ne hq] at hroom
      exact h.counted q op' n hcounted hroom
  · by_cases hq : q = who
    · subst hq
      rw [Function.update_self] at hg
      cases hg
      exact hop
    · rw [Function.update_of_ne hq] at hg
      change Function.update s.checked who (some op) q = _ at hchecked
      rw [Function.update_of_ne hq] at hchecked
      exact h.checked q op' hchecked hg

/-- A party has counted the attempts of an operation. -/
lemma Site.Bounded.count (h : s.Bounded c g) {op : Operation} {event : JournalEvent} :
    Site.Bounded c { s with counted := Function.update s.counted who (some op) }
      (Function.update g who { g who with
        room := if event = op.attempted then some (op, c.left (s.countActivity op event))
          else none }) := by
  refine ⟨h.attempts, fun q op' n hcounted hroom => ?_, fun q op' hchecked hg => ?_⟩
  · change s.attempts op' + n ≤ _
    by_cases hq : q = who
    · subst hq
      rw [Function.update_self] at hroom
      change (if event = op.attempted then _ else _) = _ at hroom
      split at hroom
      · rename_i hevent
        cases hroom
        have hle := h.attempts op
        rw [hevent, DispatchSettings.left]
        change s.attempts op + (_ - s.attempts op) ≤ _
        omega
      · exact nomatch hroom
    · rw [Function.update_of_ne hq] at hroom
      change Function.update s.counted who (some op) q = _ at hcounted
      rw [Function.update_of_ne hq] at hcounted
      exact h.counted q op' n hcounted hroom
  · by_cases hq : q = who
    · subst hq
      rw [Function.update_self] at hg
      exact h.checked q op' hchecked hg
    · rw [Function.update_of_ne hq] at hg
      exact h.checked q op' hchecked hg

/-- Every call of a process, when nobody disturbed it. -/
lemma Site.Bounded.call {w : Pool ℕ Site DispatchCall DispatchCall.Result DispatchFault}
    {m : Move ℕ DispatchFault Program Outside} {i : DispatchCall} {r : Answer DispatchFault}
    (hcall : System.calls w m = some (who, i, r)) (hundisturbed : Undisturbed w m)
    (h : w.shared.Bounded c g) (hmay : (protocol c).may (g who) i) :
    ∃ g', (protocol c).next (g who) i ((system c).answer who i w.shared r).1 g' ∧
      ((system c).answer who i w.shared r).2.Bounded c (Function.update g who g') := by
  cases i with
  | now =>
    rcases answer_cases (c := c) (i := .now) rfl w.shared who r with he | ⟨e, he⟩ <;>
      rw [he] <;> exact h.same who
  | candidates event relation cutoff limit =>
    rcases answer_cases (c := c) (i := .candidates event relation cutoff limit) rfl w.shared who r
      with he | ⟨e, he⟩ <;> rw [he] <;> exact h.same who
  | publish op =>
    rcases answer_cases (c := c) (i := .publish op) rfl w.shared who r with he | ⟨e, he⟩ <;>
      rw [he] <;> exact h.same who
  | lockBackup pk =>
    rcases answer_cases (c := c) (i := .lockBackup pk) rfl w.shared who r with he | ⟨e, he⟩
    · rw [he, exec]
      cases hlock : lockBackupForRedispatch c w.shared pk with
      | none => exact h.same who
      | some row => exact ⟨_, rfl, h.check (not_settled_of_backup hlock)⟩
    · rw [he]
      exact h.same who
  | lockRestore pk =>
    rcases answer_cases (c := c) (i := .lockRestore pk) rfl w.shared who r with he | ⟨e, he⟩
    · rw [he, exec]
      cases hlock : lockRestoreForRedispatch c w.shared pk with
      | none => exact h.same who
      | some row => exact ⟨_, rfl, h.check (not_settled_of_restore hlock)⟩
    · rw [he]
      exact h.same who
  | count op event =>
    rcases answer_cases (c := c) (i := .count op event) rfl w.shared who r with he | ⟨e, he⟩
    · rw [he]
      exact ⟨_, rfl, h.count⟩
    · rw [he]
      exact h.same who
  | createActivity a =>
    rw [Undisturbed, hcall] at hundisturbed
    have hrecord := h.record (a := a) fun op hop =>
      ⟨(hundisturbed op hop.1 hop.2).1, (hmay op hop).1⟩
    refine ⟨(g who).after a, rfl, ?_⟩
    cases r with
    | served => exact hrecord
    | raised e => exact h.lost who a
    | lost e => exact hrecord

/-- The invariant of every run in which nobody is disturbed. -/
def Sound (c : DispatchSettings) (w : Pool ℕ Site DispatchCall DispatchCall.Result DispatchFault) :
    Prop :=
  System.Kept (protocol c) {} (Site.Bounded c) w

lemma sound_step {w : Pool ℕ Site DispatchCall DispatchCall.Result DispatchFault}
    {m : Move ℕ DispatchFault Program Outside} (hundisturbed : Undisturbed w m) (h : Sound c w) :
    Sound c ((system c).step w m) := by
  apply System.follows_step (follows_code c) ?_ ?_ h
  · exact fun g who i r hcall hbounded hmay => hbounded.call hcall hundisturbed hmay
  · exact fun g x _ hbounded => hbounded.outside x

/-! ## One reconciliation -/

/-- The operation is eligible for a repeated dispatch. -/
def Eligible (c : DispatchSettings) (s : Site) : Operation → Prop
  | .backup pk => (lockBackupForRedispatch c s pk).isSome = true
  | .restore pk => (lockRestoreForRedispatch c s pk).isSome = true

/-- Only rows about the operation were added. -/
structure Site.Adds (op : Operation) (s t : Site) : Prop where
  backups : t.backups = s.backups
  restores : t.restores = s.restores
  locks : t.locks = s.locks
  others : ∀ op' event, op' ≠ op → event.relation = some op'.relation →
    t.countActivity op' event = s.countActivity op' event
  attempts : s.attempts op ≤ t.attempts op

lemma Site.Adds.refl (op : Operation) (s : Site) : s.Adds op s :=
  ⟨rfl, rfl, rfl, fun _ _ _ _ => rfl, Nat.le_refl _⟩

lemma Site.Adds.trans {op : Operation} {s t u : Site} (h : s.Adds op t) (h' : t.Adds op u) :
    s.Adds op u where
  backups := h'.backups.trans h.backups
  restores := h'.restores.trans h.restores
  locks := h'.locks.trans h.locks
  others op' event hne hevent :=
    (h'.others op' event hne hevent).trans (h.others op' event hne hevent)
  attempts := h.attempts.trans h'.attempts

lemma countActivity_record_of_ne {op op' : Operation} {event : JournalEvent}
    (hsubject : a.subject = some op) (hne : op' ≠ op)
    (hevent : event.relation = some op'.relation) :
    (s.record who a).countActivity op' event = s.countActivity op' event := by
  rw [Site.countActivity, (Site.record_frame s who a).1, List.countP_append, List.countP_singleton,
    if_neg, Nat.add_zero, Site.countActivity]
  intro h
  rw [Bool.and_eq_true, beq_iff_eq] at h
  have hrelation : a.event.relation = some op'.relation := by rw [← hevent, ← h.2]
  have hconcerns := (@concerns_iff { a with createdAt := s.clock } op' hrelation).mp h.1
  exact hne (Option.some.inj (hconcerns.symm.trans hsubject))

lemma Site.adds_record {op : Operation} (hsubject : a.subject = some op) :
    s.Adds op (s.record who a) := by
  obtain ⟨-, hbackups, hrestores, hlocks⟩ := Site.record_frame s who a
  refine ⟨hbackups, hrestores, hlocks, fun op' event hne hevent => ?_, ?_⟩
  · exact countActivity_record_of_ne hsubject hne hevent
  · rw [Site.attempts_record]
    omega

/-- The rows with an event decide whether there is one. -/
lemma hasActivity_iff {op : Operation} {events : List JournalEvent} :
    s.hasActivity op events = true ↔ ∃ event ∈ events, 0 < s.countActivity op event := by
  simp only [Site.hasActivity, Site.countActivity, List.any_eq_true, List.countP_pos_iff,
    Bool.and_eq_true, List.contains_iff_mem, beq_iff_eq]
  constructor
  · rintro ⟨a, ha, hconcerns, hevent⟩
    exact ⟨a.event, hevent, a, ha, hconcerns, rfl⟩
  · rintro ⟨event, hevent, a, ha, hconcerns, rfl⟩
    exact ⟨a, ha, hconcerns, hevent⟩

lemma hasActivity_congr {s t : Site} {op : Operation} {events : List JournalEvent}
    (h : ∀ event, event.relation = some op.relation →
      t.countActivity op event = s.countActivity op event)
    (hevents : ∀ event ∈ events, event.relation = some op.relation) :
    t.hasActivity op events = s.hasActivity op events := by
  rw [Bool.eq_iff_iff, hasActivity_iff, hasActivity_iff]
  refine exists_congr fun event => and_congr_right fun hevent => ?_
  rw [h event (hevents event hevent)]

/-- Eligibility is decided by the row, the locks and the activities of the operation. -/
lemma eligible_congr {s t : Site} {op : Operation} (hbackups : t.backups = s.backups)
    (hrestores : t.restores = s.restores) (hlocks : t.locks = s.locks)
    (h : ∀ event, event.relation = some op.relation →
      t.countActivity op event = s.countActivity op event) :
    Eligible c t op ↔ Eligible c s op := by
  have hsettling := hasActivity_congr h fun event hevent => relation_settling hevent
  have hlocked : ∀ business, t.hasActiveLock business op = s.hasActiveLock business op := by
    intro business
    rw [Site.hasActiveLock, hlocks, Site.hasActiveLock]
  cases op with
  | backup pk =>
    have hintent : t.hasActivity (.backup pk) [.backupDispatchRequested] =
        s.hasActivity (.backup pk) [.backupDispatchRequested] :=
      hasActivity_congr h (by simp; rfl)
    have heligible : backupDispatchEligible c t pk = backupDispatchEligible c s pk := by
      funext row
      rw [Operation.settling] at hsettling
      rw [backupDispatchEligible, backupDispatchEligible, hintent, hsettling, hlocked,
        attemptBudgetAvailable, h .backupDispatchAttempted rfl, attemptBudgetAvailable]
    rw [Eligible, Eligible, lockBackupForRedispatch, lockBackupForRedispatch, hbackups, heligible]
  | restore pk =>
    have hintent : t.hasActivity (.restore pk) [.restoreQueued] =
        s.hasActivity (.restore pk) [.restoreQueued] :=
      hasActivity_congr h (by simp; rfl)
    have heligible : restoreDispatchEligible c t pk = restoreDispatchEligible c s pk := by
      funext row
      rw [Operation.settling] at hsettling
      rw [restoreDispatchEligible, restoreDispatchEligible, hintent, hsettling, hlocked,
        attemptBudgetAvailable, h .restoreDispatchAttempted rfl, attemptBudgetAvailable]
    rw [Eligible, Eligible, lockRestoreForRedispatch, lockRestoreForRedispatch, hrestores,
      heligible]

/-- The code of a party alone, which ends where `Q` holds unless it raises. -/
def Ends {α : Type} (c : DispatchSettings) (who : ℕ) (x : Code α) (Q : α → Site → Prop)
    (s : Site) : Prop :=
  Meets ((system c).protocol who) x (fun a _ t => Q a t) (fun _ _ _ => True) () s

section Alone

variable {op : Operation}

/-- A served call, and what follows it. -/
lemma ends_ask {i : DispatchCall} {β : Type} {f : i.Result → Code β} {Q : β → Site → Prop}
    (h : ∀ a t, exec c who i s = (.ok a, t) → Ends c who (f a) Q t) :
    Ends c who (ask i >>= f) Q s := by
  refine meets_perform_bind trivial (fun _ _ _ => trivial) ?_
  rintro a t ⟨r, hr⟩
  cases r with
  | served => exact h a t hr
  | raised e => cases hr
  | lost e => cases hr

lemma ends_activity {β : Type} {operation : Subject} {event : JournalEvent} {metadata : Metadata}
    {f : Unit → Code β} {Q : β → Site → Prop}
    (h : Ends c who (f ⟨⟩) Q (s.record who (operation.activity event metadata))) :
    Ends c who (createActivity operation event metadata >>= f) Q s := by
  rw [createActivity_eq]
  refine ends_ask ?_
  rintro a t ⟨⟩
  exact h

lemma ends_publish {β : Type} {operation : Subject} {f : Bool → Code β} {Q : β → Site → Prop}
    (h : ∀ accepted, Ends c who (f accepted) Q s) :
    Ends c who (publish operation >>= f) Q s := by
  rw [Ends, meets_bind, publish, meets_tryCatch]
  refine meets_perform_bind trivial ?_ ?_
  · rintro e t ⟨r, hr⟩
    have ht : t = s := by cases r <;> cases hr <;> rfl
    rw [ht]
    split
    · exact trivial
    · exact h false
  · rintro a t ⟨r, hr⟩
    have ht : t = s := by
      cases r <;> cases hr
      rfl
    rw [ht]
    exact h true

lemma ends_pure {β : Type} {b : β} {Q : β → Site → Prop} (h : Q b s) :
    Ends c who (pure b) Q s := meets_pure.mpr h

variable {operation : Subject}

lemma ends_confirm {attempt : ℕ} {t : Site} (h : s.Adds operation.operation t) :
    Ends c who (confirm operation operation.events redispatch attempt)
      (fun _ u => s.Adds operation.operation u) t := by
  apply ends_activity
  have hconfirmed : s.Adds operation.operation (t.record who
      (operation.activity operation.events.confirmed (.confirmed attempt redispatch))) :=
    h.trans (Site.adds_record (subject_activity (by cases operation <;> rfl)))
  cases redispatch with
  | false => exact ends_pure hconfirmed
  | true =>
    apply ends_activity
    apply ends_pure
    exact hconfirmed.trans (Site.adds_record (subject_activity (by cases operation <;> rfl)))

lemma ends_deliver {maximum rounds attempts : ℕ} {t : Site} (h : s.Adds operation.operation t) :
    Ends c who (deliver operation operation.events redispatch maximum rounds attempts)
      (fun _ u => s.Adds operation.operation u) t := by
  induction rounds generalizing attempts t with
  | zero =>
    apply ends_activity
    apply ends_pure
    exact h.trans (Site.adds_record (subject_activity (by cases operation <;> rfl)))
  | succ rounds ih =>
    apply ends_activity
    apply ends_publish
    have hattempted : s.Adds operation.operation (t.record who
        (operation.activity operation.events.attempted
          (.attempted (attempts + 1) maximum redispatch))) :=
      h.trans (Site.adds_record (subject_activity (by cases operation <;> rfl)))
    intro accepted
    cases accepted with
    | true => exact ends_confirm hattempted
    | false => exact ih hattempted

lemma immediateLimit_pos (c : DispatchSettings) : 0 < c.immediateLimit := by
  unfold DispatchSettings.immediateLimit boundedSetting
  split
  · split <;> omega
  · exact Nat.succ_pos 2

/-- A dispatch within the limit records an attempt. -/
lemma ends_dispatch (h : s.attempts operation.operation < c.totalLimit) :
    Ends c who (dispatch c operation operation.events redispatch)
      (fun _ u => s.Adds operation.operation u ∧
        s.attempts operation.operation < u.attempts operation.operation) s := by
  refine ends_ask ?_
  rintro n t ⟨⟩
  have hcount : s.countActivity operation.operation operation.events.attempted =
      s.attempts operation.operation := by rw [attempted_events, Site.attempts]
  have hpos : min c.immediateLimit (c.totalLimit -
      s.countActivity operation.operation operation.events.attempted) ≠ 0 := by
    have himmediate := immediateLimit_pos c
    rw [hcount]
    omega
  rw [if_neg hpos]
  obtain ⟨rounds, hrounds⟩ := Nat.exists_eq_succ_of_ne_zero hpos
  rw [hrounds]
  apply ends_activity
  apply ends_publish
  -- The first round records an attempt, and nothing takes it away.
  generalize hrow : operation.activity operation.events.attempted _ = row
  generalize hcounted : Site.mk _ _ _ _ _ _ _ = t
  have hsame : s.Adds operation.operation t := by
    rw [← hcounted]
    exact ⟨rfl, rfl, rfl, fun _ _ _ _ => rfl, Nat.le_refl _⟩
  have hsubject : row.AttemptOf operation.operation := by
    rw [← hrow]
    constructor
    · exact subject_activity (by cases operation <;> rfl)
    · rw [event_activity, attempted_events]
  have hgrown : s.attempts operation.operation <
      (t.record who row).attempts operation.operation := by
    have hle := hsame.attempts
    rw [Site.attempts_record, if_pos hsubject]
    omega
  have hrest : ∀ u, (t.record who row).Adds operation.operation u →
      s.Adds operation.operation u ∧
        s.attempts operation.operation < u.attempts operation.operation := fun u hu =>
    ⟨(hsame.trans (Site.adds_record hsubject.1)).trans hu, hgrown.trans_le hu.attempts⟩
  intro accepted
  cases accepted with
  | true =>
    exact Meets.mono (ends_confirm (Site.Adds.refl _ _)) (fun _ _ u hu => hrest u hu)
      fun _ _ _ _ => trivial
  | false =>
    exact Meets.mono (ends_deliver (Site.Adds.refl _ _)) (fun _ _ u hu => hrest u hu)
      fun _ _ _ _ => trivial

lemma Site.Adds.of_held {held : ℕ → Option Operation} {u : Site}
    (h : Site.Adds op { s with checked := held } u) : s.Adds op u :=
  ⟨h.backups, h.restores, h.locks, h.others, h.attempts⟩

/-- The row that was locked is the one that is dispatched, whatever is held as checked. -/
lemma ends_dispatchBackup {pk : ℕ} {row : BackupRecord}
    (h : lockBackupForRedispatch c s pk = some row) (held : ℕ → Option Operation) :
    Ends c who (dispatchBackup c pk row true)
      (fun _ u => s.Adds (.backup pk) u ∧ s.attempts (.backup pk) < u.attempts (.backup pk))
      { s with checked := held } := by
  have heligible := (Option.filter_eq_some_iff.mp h).2
  simp only [backupDispatchEligible, Bool.if_false_left, Bool.and_eq_true, Bool.not_eq_true',
    decide_eq_false_iff_not, not_or, Decidable.not_not, attemptBudgetAvailable,
    decide_eq_true_eq] at heligible
  rw [dispatchBackup, if_neg (fun hne => hne heligible.1.1)]
  exact Meets.mono (ends_dispatch (s := { s with checked := held })
    heligible.2.2.2.2)
    (fun _ _ u hu => ⟨hu.1.of_held, hu.2⟩) fun _ _ _ _ => trivial

lemma ends_dispatchRestore {pk : ℕ} {row : RestoreOperation}
    (h : lockRestoreForRedispatch c s pk = some row) (held : ℕ → Option Operation) :
    Ends c who (dispatchRestore c pk row true)
      (fun _ u => s.Adds (.restore pk) u ∧ s.attempts (.restore pk) < u.attempts (.restore pk))
      { s with checked := held } := by
  have heligible := (Option.filter_eq_some_iff.mp h).2
  simp only [restoreDispatchEligible, Bool.if_false_left, Bool.and_eq_true, Bool.not_eq_true',
    decide_eq_false_iff_not, not_or, Decidable.not_not, attemptBudgetAvailable,
    decide_eq_true_eq] at heligible
  rw [dispatchRestore, if_neg (fun hne => hne heligible.1.1)]
  exact Meets.mono (ends_dispatch (s := { s with checked := held })
    heligible.2.2.2.2)
    (fun _ _ u hu => ⟨hu.1.of_held, hu.2⟩) fun _ _ _ _ => trivial

/-- After some candidates: exactly the eligible ones among them were attempted, and nothing was
written about any other operation. -/
structure Site.Reached (c : DispatchSettings) (s : Site) (examined : List Operation) (t : Site) :
    Prop where
  backups : t.backups = s.backups
  restores : t.restores = s.restores
  locks : t.locks = s.locks
  attempted : ∀ op ∈ examined, Eligible c s op → s.attempts op < t.attempts op
  others : ∀ op, ¬ (op ∈ examined ∧ Eligible c s op) → ∀ event,
    event.relation = some op.relation → t.countActivity op event = s.countActivity op event

lemma Site.Reached.nil (c : DispatchSettings) (s : Site) : s.Reached c [] s :=
  ⟨rfl, rfl, rfl, fun _ h => (List.not_mem_nil h).elim, fun _ _ _ _ => rfl⟩

variable {examined : List Operation} {t u : Site}

/-- An operation that was not attempted is as eligible as before. -/
lemma Site.Reached.eligible (h : s.Reached c examined t)
    (hop : ¬ (op ∈ examined ∧ Eligible c s op)) : Eligible c t op ↔ Eligible c s op :=
  eligible_congr h.backups h.restores h.locks (h.others op hop)

/-- A candidate that is not eligible any more. -/
lemma Site.Reached.pass (h : s.Reached c examined t) (hop : ¬ Eligible c t op) :
    s.Reached c (examined ++ [op]) t := by
  have hbefore : Eligible c s op → op ∈ examined := fun heligible => by
    by_contra hnot
    exact hop ((h.eligible fun hin => hnot hin.1).mpr heligible)
  refine ⟨h.backups, h.restores, h.locks, fun op' hop' heligible => ?_, fun op' hop' => ?_⟩
  · rcases List.mem_append.mp hop' with hin | hlast
    · exact h.attempted op' hin heligible
    · cases List.mem_singleton.mp hlast
      exact h.attempted op (hbefore heligible) heligible
  · exact h.others op' fun hin => hop' ⟨List.mem_append_left _ hin.1, hin.2⟩

/-- A candidate that is dispatched again. -/
lemma Site.Reached.again (h : s.Reached c examined t) (hop : Eligible c t op)
    (hadds : t.Adds op u) (hattempted : t.attempts op < u.attempts op) :
    s.Reached c (examined ++ [op]) u := by
  have heligible : Eligible c s op := by
    by_contra hnot
    exact hnot ((h.eligible fun hin => hnot hin.2).mp hop)
  refine ⟨hadds.backups.trans h.backups, hadds.restores.trans h.restores,
    hadds.locks.trans h.locks, fun op' hop' heligible' => ?_,
    fun op' hop' event hevent => ?_⟩
  · by_cases heq : op' = op
    · subst heq
      by_cases hin : op' ∈ examined
      · exact (h.attempted op' hin heligible').trans hattempted
      · have hsame := h.others op' (fun hboth => hin hboth.1) _ (relation_attempted op')
        rw [Site.attempts, ← hsame]
        exact hattempted
    · have hin : op' ∈ examined := by simpa [heq] using hop'
      have hsame := hadds.others op' _ heq (relation_attempted op')
      rw [Site.attempts, Site.attempts, hsame]
      exact h.attempted op' hin heligible'
  · have hne : op' ≠ op := fun heq => hop' ⟨by simp [heq], heq ▸ heligible⟩
    rw [hadds.others op' event hne hevent]
    exact h.others op' (fun hin => hop' ⟨List.mem_append_left _ hin.1, hin.2⟩) event hevent

/-- What a lock leads to: nothing, when the operation is not eligible, and else an attempt. -/
def Locked {α : Type} (c : DispatchSettings) (who : ℕ) (op : Operation)
    (again : α → Code DispatchOutcome) (t : Site) : Option α → Site → Prop
  | none, t' => t' = t ∧ ¬ Eligible c t op
  | some row, t' => Eligible c t op ∧
      Ends c who (again row) (fun _ u => t.Adds op u ∧ t.attempts op < u.attempts op) t'

/-- The loop over the candidates, when what is locked is dispatched again. -/
lemma ends_redispatchAll {α : Type} {lock : ℕ → Code (Option α)}
    {again : ℕ → α → Code DispatchOutcome} {operation : ℕ → Operation}
    (hlock : ∀ pk t, Ends c who (lock pk) (Locked c who (operation pk) (again pk) t) t)
    {pks : List ℕ} {result : DispatchReconciliationResult} {examined : List Operation} {t : Site}
    (h : s.Reached c examined t) :
    Ends c who (redispatchAll lock again pks result)
      (fun _ u => s.Reached c (examined ++ pks.map operation) u) t := by
  induction pks generalizing result examined t with
  | nil =>
    apply ends_pure
    rwa [List.map_nil, List.append_nil]
  | cons pk pks ih =>
    have hsplit : examined ++ (pk :: pks).map operation =
        (examined ++ [operation pk]) ++ pks.map operation := by simp
    rw [hsplit, redispatchAll, Ends, meets_bind]
    refine Meets.mono (hlock pk t) (fun r _ t' hr => ?_) fun _ _ _ _ => trivial
    cases r with
    | none =>
      obtain ⟨rfl, hop⟩ := hr
      exact ih (h.pass hop)
    | some row =>
      obtain ⟨hop, hagain⟩ := hr
      change Meets _ (again pk row >>= _) _ _ _ _
      rw [meets_bind]
      refine Meets.mono hagain (fun outcome _ u hu => ?_) fun _ _ _ _ => trivial
      exact ih (h.again hop hu.1 hu.2)

lemma ends_lockBackup (pk : ℕ) (t : Site) : Ends c who (ask (.lockBackup pk))
    (Locked c who (.backup pk) (fun row => dispatchBackup c pk row true) t) t := by
  refine meets_perform.mpr ⟨trivial, ?_⟩
  rintro r t' ⟨answer, hanswer⟩
  rcases answer_cases (i := .lockBackup pk) rfl t who answer with he | ⟨e, he⟩
  · rw [exec] at he
    cases hlock : lockBackupForRedispatch c t pk with
    | none =>
      rw [hlock] at he
      cases hanswer.symm.trans he
      exact ⟨rfl, by simp [Eligible, hlock]⟩
    | some row =>
      rw [hlock] at he
      cases hanswer.symm.trans he
      exact ⟨by simp [Eligible, hlock], ends_dispatchBackup hlock _⟩
  · cases hanswer.symm.trans he
    exact trivial

lemma ends_lockRestore (pk : ℕ) (t : Site) : Ends c who (ask (.lockRestore pk))
    (Locked c who (.restore pk) (fun row => dispatchRestore c pk row true) t) t := by
  refine meets_perform.mpr ⟨trivial, ?_⟩
  rintro r t' ⟨answer, hanswer⟩
  rcases answer_cases (i := .lockRestore pk) rfl t who answer with he | ⟨e, he⟩
  · rw [exec] at he
    cases hlock : lockRestoreForRedispatch c t pk with
    | none =>
      rw [hlock] at he
      cases hanswer.symm.trans he
      exact ⟨rfl, by simp [Eligible, hlock]⟩
    | some row =>
      rw [hlock] at he
      cases hanswer.symm.trans he
      exact ⟨by simp [Eligible, hlock], ends_dispatchRestore hlock _⟩
  · cases hanswer.symm.trans he
    exact trivial

end Alone

/-- The cutoff of a reconciliation that starts now. -/
def Reconciliation.cutoff (c : DispatchSettings) (s : Site) (r : Reconciliation) : ℤ :=
  dispatchCutoff c (r.now.getD s.clock) r.eligibleBefore

/-- The operations that a reconciliation examines. -/
def Reconciliation.examined (c : DispatchSettings) (s : Site) (r : Reconciliation) :
    List Operation :=
  ((candidateRows s r.relation.intent r.relation (r.cutoff c s)).take r.limit.toNat).map
    r.relation.operation

/-- The candidates are read from the state that the reconciliation starts in. -/
lemma ends_candidates {event : JournalEvent} {relation : Relation} {cutoff : ℤ → ℤ} {limit : ℤ}
    {now : Option ℤ} {f : List ℕ → Code DispatchReconciliationResult}
    {Q : DispatchReconciliationResult → Site → Prop}
    (h : Ends c who (f ((candidateRows s event relation
      (cutoff (now.getD s.clock))).take limit.toNat)) Q s) :
    Ends c who (currentTime now >>= fun t => candidateIds event relation (cutoff t) limit >>= f)
      Q s := by
  have hrows : ∀ t, Ends c who (f ((candidateRows s event relation t).take limit.toNat)) Q s →
      Ends c who (candidateIds event relation t limit >>= f) Q s := by
    intro t ht
    by_cases hlimit : 1 ≤ limit ∧ limit ≤ 1000
    · rw [candidateIds, if_pos hlimit]
      refine ends_ask ?_
      rintro pks u ⟨⟩
      exact ht
    · rw [candidateIds, if_neg hlimit]
      exact trivial
  cases now with
  | some t => exact hrows _ h
  | none =>
    refine ends_ask ?_
    rintro t u ⟨⟩
    exact hrows _ h

lemma ends_reconcile (c : DispatchSettings) (who : ℕ) (r : Reconciliation) (s : Site) :
    Ends c who (r.code c) (fun _ t => s.Reached c (r.examined c s) t) s := by
  obtain ⟨relation, now, eligibleBefore, limit⟩ := r
  cases relation with
  | backup =>
    apply @ends_candidates _ _ _ _ _ (fun t => dispatchCutoff c t eligibleBefore)
    exact ends_redispatchAll ends_lockBackup (Site.Reached.nil c s)
  | restore =>
    apply @ends_candidates _ _ _ _ _ (fun t => dispatchCutoff c t eligibleBefore)
    exact ends_redispatchAll ends_lockRestore (Site.Reached.nil c s)

/-- The operation is eligible, and an intent of it is old enough. -/
def Waiting (c : DispatchSettings) (s : Site) (r : Reconciliation) (op : Operation) : Prop :=
  op.relation = r.relation ∧ Eligible c s op ∧
    ∃ a ∈ s.journal, a.event = r.relation.intent ∧ a.concerns op = true ∧
      a.createdAt ≤ r.cutoff c s

/-- What is examined has an intent that is old enough. -/
lemma intent_of_examined {r : Reconciliation} {op : Operation} (h : op ∈ r.examined c s) :
    op.relation = r.relation ∧ ∃ a ∈ s.journal, a.event = r.relation.intent ∧
      a.concerns op = true ∧ a.createdAt ≤ r.cutoff c s := by
  obtain ⟨pk, hpk, rfl⟩ := List.mem_map.mp h
  obtain ⟨a, ha, hrelated⟩ := List.mem_filterMap.mp (List.mem_of_mem_take hpk)
  obtain ⟨hjournal, hquery⟩ := List.mem_filter.mp ((List.mem_insertionSort _).mp ha)
  simp only [Bool.and_eq_true, beq_iff_eq, decide_eq_true_eq] at hquery
  have hrelation : (r.relation.operation pk).relation = r.relation := by cases r.relation <;> rfl
  refine ⟨hrelation, a, hjournal, hquery.1.1, ?_, hquery.1.2⟩
  revert hrelated
  cases r.relation <;>
    simp [BackupActivity.related, BackupActivity.concerns, Relation.operation]

/-- A reconciliation attempts what is waiting among the operations it examines, and nothing
else. -/
lemma attempted_iff {r : Reconciliation} {who : ℕ} {t : Site}
    {result : DispatchReconciliationResult}
    (hrun : Prog.Runs (system c).toMachine who ((r.code c).prog ()) s (.ok result, ()) t)
    (op : Operation) :
    s.attempts op < t.attempts op ↔ Waiting c s r op ∧ op ∈ r.examined c s := by
  have hreached : s.Reached c (r.examined c s) t := (ends_reconcile c who r s).sound hrun
  constructor
  · intro hlt
    by_contra hnot
    have hsame := hreached.others op (fun hboth => hnot ?_) _ (relation_attempted op)
    · exact absurd hsame (Nat.ne_of_gt hlt)
    · obtain ⟨hrelation, hintent⟩ := intent_of_examined hboth.1
      exact ⟨⟨hrelation, hboth.2, hintent⟩, hboth.1⟩
  · rintro ⟨⟨-, heligible, -⟩, hexamined⟩
    exact hreached.attempted op hexamined heligible

/-- In every run in which nobody is disturbed, the attempts stay within the limit and no settled
operation is dispatched again.  From every state, a reconciliation that returns has attempted
exactly the waiting operations when each of them is among those it examined. -/
theorem dispatch_recovery {c : DispatchSettings}
    {moves : List (Move ℕ DispatchFault Program Outside)}
    (h : Trace.All (system c).step Undisturbed { shared := {} } moves) :
    let w := Trace.run (system c).step { shared := {} } moves
    (∀ op, w.shared.attempts op ≤ c.totalLimit) ∧
    (∀ m who a r op, Undisturbed w m → System.calls w m = some (who, .createActivity a, r) →
      a.AttemptOf op → a.redispatch = true → ¬ w.shared.Settled op) ∧
    ∀ (r : Reconciliation) who result t,
      Prog.Runs (system c).toMachine who ((r.code c).prog ()) w.shared (.ok result, ()) t →
      ((∀ op, w.shared.attempts op < t.attempts op ↔ Waiting c w.shared r op) ↔
        ∀ op, Waiting c w.shared r op → op ∈ r.examined c w.shared) := by
  intro w
  have hstart : Sound c { shared := {} } := by
    refine ⟨fun _ => {}, ⟨fun op => ?_, nofun, nofun⟩, fun _ => rfl⟩
    exact Nat.zero_le _
  obtain ⟨g, hbounded, hkept⟩ : Sound c w :=
    Trace.invariant_of_all (fun _ _ hm => sound_step hm) hstart h
  refine ⟨hbounded.attempts, fun m who a r op hm hcall ha hagain => ?_,
    fun r who result t hrun => ?_⟩
  · rw [Undisturbed, hcall] at hm
    have hchecked := (hm op ha.1 ha.2).2 hagain
    have hmay := System.may_of_calls hkept hcall op ha
    exact hbounded.checked who op hchecked (hmay.2 hagain)
  · constructor
    · intro hall op hwaiting
      exact ((attempted_iff hrun op).mp ((hall op).mpr hwaiting)).2
    · intro hall op
      rw [attempted_iff hrun]
      exact ⟨fun hboth => hboth.1, fun hwaiting => ⟨hwaiting, hall op hwaiting⟩⟩

/-- A request whose three immediate deliveries fail, and a second process that dispatches it
again. -/
def lateDelivery : List (Move ℕ DispatchFault Program Outside) :=
  [.outside (.createBackup {}), .outside (.recordIntent 0 0 {}),
    .start 0 (.dispatch (.backup 0 {})),
    .turn 0 .served, .turn 0 .served, .turn 0 (.raised .error), .turn 0 .served,
    .turn 0 (.raised .error), .turn 0 .served, .turn 0 (.raised .error), .turn 0 .served,
    .outside (.tick 400000000), .start 1 (.reconcile { relation := .backup }),
    .turn 1 .served, .turn 1 .served, .turn 1 .served, .turn 1 .served, .turn 1 .served,
    .turn 1 .served, .turn 1 .served, .turn 1 .served]

theorem dispatch_recovery_late :
    let w := Trace.run (system {}).step { shared := {} } lateDelivery
    (∀ op, w.shared.attempts op ≤ 12) ∧ w.shared.attempts (.backup 0) = 4 ∧
      w.shared.hasActivity (.backup 0) [.backupRedispatched] = true := by
  have hquiet : Trace.All (system {}).step Undisturbed { shared := {} } lateDelivery := by
    decide +kernel
  exact ⟨(dispatch_recovery hquiet).1, by decide +kernel, by decide +kernel⟩

/-- The older of two requests has failed. -/
def stranded : List (Move ℕ DispatchFault Program Outside) :=
  [.outside (.createBackup {}), .outside (.recordIntent 0 0 {}),
    .outside (.journal 0 { event := .backupFailed, backup := some 0 }),
    .outside (.createBackup {}), .outside (.recordIntent 0 1 {})]

/-- Two reconciliations find the same request eligible before either dispatches it. -/
def twice : List (Move ℕ DispatchFault Program Outside) :=
  [.outside (.createBackup {}), .outside (.recordIntent 0 0 {}), .outside (.tick 400000000),
    .start 0 (.reconcile { relation := .backup }), .start 1 (.reconcile { relation := .backup }),
    .turn 0 .served, .turn 0 .served, .turn 0 .served, .turn 1 .served, .turn 1 .served,
    .turn 1 .served, .turn 0 .served, .turn 0 .served, .turn 0 .served, .turn 0 .served,
    .turn 1 .served]

/-- Two dispatches count the attempts before either records one. -/
def crowded : List (Move ℕ DispatchFault Program Outside) :=
  [.outside (.createBackup {}), .outside (.recordIntent 0 0 {}),
    .start 0 (.dispatch (.backup 0 {})), .start 1 (.dispatch (.backup 0 {})),
    .turn 0 .served, .turn 1 .served, .turn 0 .served, .turn 0 (.raised .error), .turn 0 .served,
    .turn 0 (.raised .error), .turn 0 .served, .turn 0 (.raised .error), .turn 0 .served,
    .turn 1 .served]

/-- With a limit of one, the request that is waiting is not attempted; a confirmed operation is
dispatched again; and a fourth attempt is recorded under a limit of three. -/
theorem dispatch_recovery_fails :
    let s := (Trace.run (system {}).step { shared := {} } stranded).shared
    let r : Reconciliation := { relation := .backup, now := some 400000000, limit := 1 }
    let w := Trace.run (system {}).step { shared := {} } twice
    let m : Move ℕ DispatchFault Program Outside := .turn 1 .served
    let c : DispatchSettings := { maxTotalAttempts := some 3 }
    ((∀ op, Waiting {} s r op ↔ op = .backup 1) ∧
      ∃ t, Prog.Runs (system {}).toMachine 0 ((r.code {}).prog ()) s
        (.ok { examinedCount := 1 }, ()) t ∧ t.attempts (.backup 1) = 0) ∧
    (w.shared.Settled (.backup 0) ∧ ∃ a r,
      System.calls w m = some (1, .createActivity a, r) ∧
        a.AttemptOf (.backup 0) ∧ a.redispatch = true) ∧
    c.totalLimit = 3 ∧
      (Trace.run (system c).step { shared := {} } crowded).shared.attempts (.backup 0) = 4 := by
  intro s r w m c
  have hlength : s.backups.length = 2 := by decide +kernel
  have hplay : Prog.play (system {}).toMachine 0 ((r.code {}).prog ()) s [.served, .served] =
      some ((.ok { examinedCount := 1 }, ()), s) := rfl
  refine ⟨⟨fun op => ⟨fun h => ?_, ?_⟩, s, Prog.runs_of_play hplay, ?_⟩, ⟨.inl ?_, ?_⟩, ?_, ?_⟩
  · cases op with
    | restore pk => exact nomatch h.1
    | backup pk =>
      obtain ⟨row, hrow⟩ := Option.isSome_iff_exists.mp h.2.1
      obtain ⟨hpk, -⟩ := List.getElem?_eq_some_iff.mp (Option.filter_eq_some_iff.mp hrow).1
      have hzero : (lockBackupForRedispatch {} s 0).isSome = false := by decide +kernel
      have hne : pk ≠ 0 := by
        rintro rfl
        exact absurd h.2.1 (by rw [Eligible, hzero]; exact Bool.false_ne_true)
      rw [show pk = 1 by omega]
  · rintro rfl
    have hone : (lockBackupForRedispatch {} s 1).isSome = true := by decide +kernel
    exact ⟨rfl, hone, by decide +kernel⟩
  · decide +kernel
  · decide +kernel
  · exact ⟨_, _, rfl, by decide, rfl⟩
  · decide
  · decide +kernel

end NexaPos.Backups.Dispatching
