import NexaPos.Backups.Scheduling
import NexaPos.Lib.Tables
import Mathlib.Order.Bounds.Basic

/-!
# Daily occurrences and the backups of a schedule

A local time of day that a date skips is put off to the first minute that the clock shows.  The
occurrences of successive dates follow each other, but one that is put off past midnight lies on
the next date, where neither the search for the next occurrence nor the date that a backup gets
expects it.
-/

namespace NexaPos.Backups.Scheduling

open LocalTime Tx
open Dispatching (BackupTrigger)

/-! ## Occurrences -/

/-- The occurrence of a date. -/
def IsOccurrence (z : TimeZone) (t : TimeOfDay) (d : ℤ) (u : Instant) : Prop :=
  resolveLocalDailyOccurrence d t (some z) = .ok u

/-- The first local time that is shown, a number of minutes after the time of day. -/
structure Resolves (z : TimeZone) (t : TimeOfDay) (d : ℤ) (k : ℕ) : Prop where
  le : k ≤ 180
  shown : z.Shows (combine d t + k * minute)
  first : ∀ j < k, ¬ z.Shows (combine d t + j * minute)

/-- The clock has already shown a local time that the occurrence of the date may be put off to. -/
def Passed (z : TimeZone) (t : TimeOfDay) (d : ℤ) (after : Instant) : Prop :=
  ∃ k : ℕ, k ≤ 180 ∧ ∃ u ≤ after, z.toLocal u = combine d t + k * minute

/-- The time of day, or a time some minutes after it, is shown on the date itself. -/
def KeepsDate (z : TimeZone) (t : TimeOfDay) (d : ℤ) : Prop :=
  ∃ k : ℕ, k ≤ 180 ∧ z.Shows (combine d t + k * minute) ∧
    combine d t + k * minute < (d + 1) * day

section Occurrences

variable {z : TimeZone} {t : TimeOfDay} {d d' w : ℤ} {u u' after : Instant} {k : ℕ}

lemma gap_nonneg : (0 : ℤ) ≤ 180 * minute := by decide

lemma TimeZone.toLocal_toUtc (hw : z.Shows w) : z.toLocal (z.toUtc false w) = w :=
  z.steady.toLocal_toUtc gap_nonneg hw

lemma min_validUtc (hw : z.Shows w) : (validUtc z w).min? = some (z.toUtc false w) := by
  have hback := z.toLocal_toUtc hw
  rw [validUtc, List.map_cons, List.map_cons, List.map_nil,
    List.filter_cons_of_pos (by simpa using hback)]
  by_cases hlate : z.toLocal (z.toUtc true w) = w
  · have hle := z.steady.toUtc_first gap_nonneg hlate
    rw [List.filter_cons_of_pos (by simpa using hlate), List.filter_nil]
    simp [List.min?_cons, hle]
  · rw [List.filter_cons_of_neg (by simpa using hlate), List.filter_nil]
    rfl

lemma validUtc_eq_nil (hw : ¬ z.Shows w) : validUtc z w = [] := by
  rw [validUtc, List.filter_eq_nil_iff]
  intro u _ hu
  exact hw ⟨u, of_decide_eq_true hu⟩

lemma exists_resolves (z : TimeZone) (t : TimeOfDay) (d : ℤ) : ∃ k, Resolves z t d k := by
  classical
  have hsome := z.steady.exists_shown (n := 180) (by decide) (by decide) (combine d t)
  obtain ⟨k, hk, hshown⟩ := hsome
  have hex : ∃ k : ℕ, z.Shows (combine d t + k * minute) := ⟨k, hshown⟩
  exact ⟨Nat.find hex, (Nat.find_min' hex hshown).trans hk, Nat.find_spec hex,
    fun j hj => Nat.find_min hex hj⟩

lemma Resolves.occurrence (h : Resolves z t d k) :
    IsOccurrence z t d (z.toUtc false (combine d t + k * minute)) := by
  have hsplit : List.range 181 = List.range k ++ k :: List.range' (k + 1) (180 - k) := by
    have happend := List.range'_append_1 (s := 0) (m := k) (n := 180 - k + 1)
    have hlength : k + (180 - k + 1) = 181 := by
      have hle := h.le
      omega
    rw [Nat.zero_add, List.range'_succ, hlength] at happend
    rw [List.range_eq_range', List.range_eq_range', happend]
  have hfind : searchMinutes z (combine d t) =
      some (z.toUtc false (combine d t + k * minute)) := by
    rw [searchMinutes, hsplit, List.findSome?_append, List.findSome?_eq_none_iff.mpr,
      Option.none_or, List.findSome?_cons_of_isSome]
    · exact min_validUtc h.shown
    · rw [min_validUtc h.shown]
      rfl
    · intro j hj
      rw [validUtc_eq_nil (h.first j (List.mem_range.mp hj)), List.min?_nil]
  simp only [IsOccurrence, resolveLocalDailyOccurrence, findTimezone, pure_bind, hfind]
  rfl

lemma exists_occurrence (z : TimeZone) (t : TimeOfDay) (d : ℤ) : ∃ u, IsOccurrence z t d u :=
  have ⟨_, hk⟩ := exists_resolves z t d
  ⟨_, hk.occurrence⟩

/-- What the occurrence of a date is. -/
lemma IsOccurrence.spec (h : IsOccurrence z t d u) : ∃ k, Resolves z t d k ∧
    u = z.toUtc false (combine d t + k * minute) ∧ z.toLocal u = combine d t + k * minute := by
  obtain ⟨k, hk⟩ := exists_resolves z t d
  have hu : u = z.toUtc false (combine d t + k * minute) :=
    Except.ok.inj (h.symm.trans hk.occurrence)
  exact ⟨k, hk, hu, hu ▸ z.toLocal_toUtc hk.shown⟩

/-- The local time of an occurrence lies within three hours after the time of day. -/
lemma IsOccurrence.local_bounds (h : IsOccurrence z t d u) :
    d * day + t.value ≤ z.toLocal u ∧ z.toLocal u ≤ d * day + t.value + 180 * minute := by
  obtain ⟨k, hk, -, hlocal⟩ := h.spec
  have hle : (k : ℤ) ≤ 180 := by exact_mod_cast hk.le
  rw [hlocal, combine, minute]
  omega

/-- The occurrence comes before every instant at which the clock shows a later local time. -/
lemma IsOccurrence.lt_of_local_lt (h : IsOccurrence z t d u) (hlt : z.toLocal u < z.toLocal u') :
    u < u' := by
  obtain ⟨k, hk, hu, hlocal⟩ := h.spec
  rw [hlocal] at hlt
  rw [hu]
  exact z.steady.toUtc_lt gap_nonneg hk.shown hlt

/-- Occurrences follow the dates. -/
lemma IsOccurrence.lt (h : IsOccurrence z t d u) (h' : IsOccurrence z t d' u') (hd : d < d') :
    u < u' := by
  have hbounds := h.local_bounds.2
  have hbounds' := h'.local_bounds.1
  refine h.lt_of_local_lt ?_
  rw [day] at hbounds hbounds'
  rw [minute] at hbounds
  omega

lemma IsOccurrence.date_lt (h : IsOccurrence z t d u) (h' : IsOccurrence z t d' u')
    (hu : u < u') : d < d' := by
  rcases lt_trichotomy d d' with hlt | rfl | hlt
  · exact hlt
  · cases h.symm.trans h'
    exact absurd hu (lt_irrefl _)
  · exact absurd (h'.lt h hlt) hu.asymm

lemma TimeZone.dateOf_bounds (z : TimeZone) (u : Instant) :
    z.dateOf u * day ≤ z.toLocal u ∧ z.toLocal u < (z.dateOf u + 1) * day :=
  ⟨Int.ediv_mul_le _ (by decide), Int.lt_ediv_add_one_mul_self _ (by decide)⟩

/-- After two more dates the occurrence is always ahead. -/
lemma IsOccurrence.ahead (h : IsOccurrence z t (z.dateOf after + 2) u) : after < u := by
  by_contra hle
  have hfall := z.steady.toLocal_sub_le gap_nonneg (not_lt.mp hle)
  have hlow := h.local_bounds.1
  have hdate := (z.dateOf_bounds after).2
  have hnonneg := t.nonneg
  rw [day] at hlow hdate
  rw [minute] at hfall
  omega

lemma IsOccurrence.le_iff_passed (h : IsOccurrence z t d u) : u ≤ after ↔ Passed z t d after := by
  obtain ⟨k, hk, hu, hlocal⟩ := h.spec
  constructor
  · exact fun hle => ⟨k, hk.le, u, hle, hlocal⟩
  · rintro ⟨j, -, r, hr, hrlocal⟩
    have hkj : k ≤ j := by
      by_contra hlt
      exact hk.first j (not_le.mp hlt) ⟨r, hrlocal⟩
    refine le_trans ?_ hr
    rcases hkj.eq_or_lt with rfl | hlt
    · rw [hu]
      exact z.steady.toUtc_first gap_nonneg hrlocal
    · refine (h.lt_of_local_lt ?_).le
      rw [hlocal, hrlocal, minute]
      omega

/-- A time of day that a date keeps has been shown when the next date has come. -/
lemma KeepsDate.passed (h : KeepsDate z t (z.dateOf after - 1)) :
    Passed z t (z.dateOf after - 1) after := by
  obtain ⟨k, hk, hshown, hlt⟩ := h
  have hdate := (z.dateOf_bounds after).1
  refine ⟨k, hk, _, (z.steady.toUtc_lt gap_nonneg hshown ?_).le, z.toLocal_toUtc hshown⟩
  rw [sub_add_cancel] at hlt
  exact hlt.trans_le hdate

/-- The date of an occurrence is its own exactly when the date keeps the time of day. -/
lemma IsOccurrence.dateOf_eq_iff (h : IsOccurrence z t d u) :
    z.dateOf u = d ↔ KeepsDate z t d := by
  obtain ⟨k, hk, -, hlocal⟩ := h.spec
  have hbounds := z.dateOf_bounds u
  have hlow := h.local_bounds.1
  have hnonneg := t.nonneg
  constructor
  · rintro rfl
    exact ⟨k, hk.le, hk.shown, hlocal ▸ hbounds.2⟩
  · rintro ⟨j, -, hshown, hlt⟩
    have hkj : k ≤ j := by
      by_contra hless
      exact hk.first j (not_le.mp hless) hshown
    have hcast : (k : ℤ) ≤ j := by exact_mod_cast hkj
    rw [hlocal] at hbounds hlow
    rw [day] at hbounds hlow hlt
    rw [minute] at hbounds hlow hlt
    rw [combine, day] at hbounds hlow hlt
    omega

lemma firstAfter_cons (h : IsOccurrence z t d u) (ds : List ℤ) :
    firstAfter t (some z) after (d :: ds) =
      if after < u then .ok u else firstAfter t (some z) after ds := by
  rw [firstAfter, h]
  rfl

/-- The search finds the first occurrence after an instant among those of its date and of later
ones. -/
lemma nextDailyOccurrence_spec (z : TimeZone) (t : TimeOfDay) (after : Instant) :
    ∃ u e, nextDailyOccurrence t (some z) after = .ok u ∧ IsOccurrence z t e u ∧
      z.dateOf after ≤ e ∧ after < u ∧
        ∀ d u', z.dateOf after ≤ d → IsOccurrence z t d u' → after < u' → u ≤ u' := by
  obtain ⟨u₀, h₀⟩ := exists_occurrence z t (z.dateOf after)
  obtain ⟨u₁, h₁⟩ := exists_occurrence z t (z.dateOf after + 1)
  obtain ⟨u₂, h₂⟩ := exists_occurrence z t (z.dateOf after + 2)
  have hnext : nextDailyOccurrence t (some z) after =
      if after < u₀ then .ok u₀ else if after < u₁ then .ok u₁ else .ok u₂ := by
    change firstAfter t (some z) after _ = _
    rw [firstAfter_cons h₀, firstAfter_cons h₁, firstAfter_cons h₂, if_pos h₂.ahead]
  -- A date that is passed over has its occurrence behind the instant.
  have hleast : ∀ {e u}, IsOccurrence z t e u →
      (∀ d u', z.dateOf after ≤ d → d < e → IsOccurrence z t d u' → u' ≤ after) →
      ∀ d u', z.dateOf after ≤ d → IsOccurrence z t d u' → after < u' → u ≤ u' := by
    intro e u he hpast d u' hd hu' hafter
    by_contra hlt
    exact absurd (hpast d u' hd (hu'.date_lt he (not_le.mp hlt)) hu') (not_le.mpr hafter)
  have hsame : ∀ {d u u'}, IsOccurrence z t d u → IsOccurrence z t d u' → u' = u :=
    fun h h' => Except.ok.inj (h'.symm.trans h)
  rw [hnext]
  by_cases hafter₀ : after < u₀
  · refine ⟨u₀, _, if_pos hafter₀, h₀, le_rfl, hafter₀, hleast h₀ fun d u' hd hlt _ => ?_⟩
    omega
  rw [if_neg hafter₀]
  have hpast₀ : ∀ u', IsOccurrence z t (z.dateOf after) u' → u' ≤ after :=
    fun u' hu' => hsame h₀ hu' ▸ not_lt.mp hafter₀
  by_cases hafter₁ : after < u₁
  · refine ⟨u₁, _, if_pos hafter₁, h₁, by omega, hafter₁, hleast h₁ fun d u' hd hlt hu' => ?_⟩
    obtain rfl : d = z.dateOf after := by omega
    exact hpast₀ u' hu'
  rw [if_neg hafter₁]
  refine ⟨u₂, _, rfl, h₂, by omega, h₂.ahead, hleast h₂ fun d u' hd hlt hu' => ?_⟩
  rcases (show d = z.dateOf after ∨ d = z.dateOf after + 1 by omega) with rfl | rfl
  · exact hpast₀ u' hu'
  · exact hsame h₁ hu' ▸ not_lt.mp hafter₁

/-- The daily occurrences after an instant. -/
def occurrencesAfter (z : TimeZone) (t : TimeOfDay) (after : Instant) : Set Instant :=
  {u | after < u ∧ ∃ d, IsOccurrence z t d u}

/-- The next occurrence is found exactly when the one of the day before is not still to come. -/
lemma nextDailyOccurrence_isLeast (h : nextDailyOccurrence t (some z) after = .ok u) :
    IsLeast (occurrencesAfter z t after) u ↔ Passed z t (z.dateOf after - 1) after := by
  obtain ⟨u', e, hu', he, hdate, hafter, hleast⟩ := nextDailyOccurrence_spec z t after
  obtain rfl : u = u' := Except.ok.inj (h.symm.trans hu')
  obtain ⟨v, hv⟩ := exists_occurrence z t (z.dateOf after - 1)
  rw [← hv.le_iff_passed]
  constructor
  · intro hu
    by_contra hlate
    -- The occurrence of the day before is still to come, and earlier than all that were tried.
    have hle := hu.2 ⟨not_le.mp hlate, _, hv⟩
    exact absurd (hv.lt he (by omega)) (not_lt.mpr hle)
  · intro hpast
    refine ⟨⟨hafter, e, he⟩, ?_⟩
    rintro w ⟨hw, d, hd⟩
    refine hleast d w ?_ hd hw
    by_contra hlt
    rcases (show d ≤ z.dateOf after - 1 by omega).eq_or_lt with rfl | hd'
    · cases hv.symm.trans hd
      exact absurd hw (not_lt.mpr hpast)
    · exact absurd (hd.lt hv hd') (not_lt.mpr (hpast.trans hw.le))

end Occurrences

/-! ## The backups of a schedule -/

/-- Around an instant every date keeps the time of day of the schedule. -/
def BackupSchedule.CalmAt (x : BackupSchedule) (now : Instant) : Prop :=
  ∀ z, x.zone = some z → ∀ d, z.dateOf now - 1 ≤ d → d ≤ z.dateOf now + 1 →
    KeepsDate z x.localExecutionTime d

/-- The backup was claimed for an occurrence of the schedule that its cursor has left behind. -/
structure ClaimedBy (clock : Instant) (x : BackupSchedule) (b : BackupRecord) (z : TimeZone)
    (d : ℤ) (u : Instant) : Prop where
  business : x.business = b.business
  zone : x.zone = some z
  date : b.scheduledLocalDate = some d
  occurrence : b.occurrence = some u
  resolved : IsOccurrence z x.localExecutionTime d u
  past : u ≤ clock
  cursor : ∀ n, x.nextRun = some n → u < n

/-- Two scheduled backups of a business have their own occurrences and their own dates. -/
def Apart (a b : BackupRecord) : Prop :=
  a.trigger = .scheduled → b.trigger = .scheduled → a.business = b.business →
    a.occurrence ≠ b.occurrence ∧ a.scheduledLocalDate ≠ b.scheduledLocalDate

/-- Every scheduled backup of a business has its own occurrence and its own date. -/
def Site.OnceADay (s : Site) : Prop :=
  ∀ (i j : ℕ) (a b : BackupRecord), s.backups[i]? = some a → s.backups[j]? = some b → i ≠ j →
    Apart a b

/-- The cursor of a schedule is empty or an occurrence. -/
def BackupSchedule.CursorValid (x : BackupSchedule) : Prop :=
  ∀ n, x.nextRun = some n → ∃ z e, x.zone = some z ∧ IsOccurrence z x.localExecutionTime e n

structure Site.Orderly (s : Site) : Prop where
  businesses : ∀ {i j : ℕ} {x y : BackupSchedule}, s.schedules[i]? = some x →
    s.schedules[j]? = some y → x.business = y.business → i = j
  cursors : ∀ {i : ℕ} {x : BackupSchedule}, s.schedules[i]? = some x → x.CursorValid
  recorded : ∀ {k : ℕ} {b : BackupRecord}, s.backups[k]? = some b → b.trigger = .scheduled →
    ∃ (i : ℕ) (x : BackupSchedule) (z : TimeZone) (d : ℤ) (u : Instant),
      s.schedules[i]? = some x ∧ ClaimedBy s.clock x b z d u
  distinct : ∀ {k l : ℕ} {a b : BackupRecord}, s.backups[k]? = some a → s.backups[l]? = some b →
    k ≠ l → Apart a b

section Rows

variable {s t : Site} {x x' : BackupSchedule} {b : BackupRecord} {z : TimeZone} {d : ℤ}
  {u n now due : Instant} {i k pk : ℕ}

lemma Apart.symm {a b : BackupRecord} (h : Apart a b) : Apart b a := fun hb ha hbusiness =>
  (h ha hb hbusiness.symm).imp Ne.symm Ne.symm

lemma ClaimedBy.later (h : ClaimedBy u x b z d n) (hle : u ≤ now) : ClaimedBy now x b z d n :=
  { h with past := h.past.trans hle }

/-- Time passes. -/
lemma Site.Orderly.later (h : s.Orderly) (hle : s.clock ≤ now) :
    ({ s with clock := now } : Site).Orderly where
  businesses := h.businesses
  cursors := h.cursors
  recorded hb htrigger := by
    obtain ⟨i, x, z, d, u, hx, hclaimed⟩ := h.recorded hb htrigger
    exact ⟨i, x, z, d, u, hx, hclaimed.later hle⟩
  distinct := h.distinct

lemma schedules_saveSchedule {j : ℕ} {y : BackupSchedule}
    (h : (s.saveSchedule i x').schedules[j]? = some y) :
    j = i ∧ y = x' ∨ j ≠ i ∧ s.schedules[j]? = some y := by
  rw [Site.saveSchedule, List.getElem?_set] at h
  split at h
  · rename_i hij
    split at h
    · cases h
      exact .inl ⟨hij.symm, rfl⟩
    · cases h
  · rename_i hij
    exact .inr ⟨Ne.symm hij, h⟩

/-- A schedule is saved with a cursor that is empty or an occurrence ahead. -/
lemma Site.Orderly.saveSchedule (h : s.Orderly) (hx : s.schedules[i]? = some x)
    (hbusiness : x'.business = x.business) (hzone : x'.zone = x.zone)
    (htime : x'.localExecutionTime = x.localExecutionTime) (hvalid : x'.CursorValid)
    (hahead : ∀ n, x'.nextRun = some n → s.clock < n) : (s.saveSchedule i x').Orderly where
  businesses := by
    intro j k y y' hy hy' heq
    rcases schedules_saveSchedule hy with ⟨rfl, rfl⟩ | ⟨-, hold⟩ <;>
      rcases schedules_saveSchedule hy' with ⟨rfl, rfl⟩ | ⟨-, hold'⟩
    · rfl
    · exact h.businesses hx hold' (hbusiness.symm.trans heq)
    · exact h.businesses hold hx (heq.trans hbusiness)
    · exact h.businesses hold hold' heq
  cursors := by
    intro j y hy
    rcases schedules_saveSchedule hy with ⟨rfl, rfl⟩ | ⟨-, hy⟩
    · exact hvalid
    · exact h.cursors hy
  recorded := by
    intro k b hb htrigger
    obtain ⟨j, y, z, d, u, hy, hclaimed⟩ := h.recorded hb htrigger
    by_cases hj : j = i
    · subst hj
      cases hx.symm.trans hy
      have hlength := (List.getElem?_eq_some_iff.mp hx).1
      refine ⟨j, x', z, d, u, List.getElem?_set_self hlength, ?_⟩
      exact ⟨hbusiness.trans hclaimed.business, hzone.trans hclaimed.zone, hclaimed.date,
        hclaimed.occurrence, htime ▸ hclaimed.resolved, hclaimed.past,
        fun n hn => hclaimed.past.trans_lt (hahead n hn)⟩
    · exact ⟨j, y, z, d, u, (List.getElem?_set_ne (Ne.symm hj)).trans hy, hclaimed⟩
  distinct := h.distinct

/-- A business gets its schedule. -/
lemma Site.Orderly.addSchedule (h : s.Orderly)
    (hfresh : ∀ {j : ℕ} {y : BackupSchedule}, s.schedules[j]? = some y →
      y.business ≠ x.business)
    (hvalid : x.CursorValid) : ({ s with schedules := s.schedules ++ [x] } : Site).Orderly where
  businesses := by
    intro j k y y' hy hy' heq
    rcases getElem?_concat_eq_some.mp hy with hold | ⟨rfl, rfl⟩ <;>
      rcases getElem?_concat_eq_some.mp hy' with hold' | ⟨rfl, rfl⟩
    · exact h.businesses hold hold' heq
    · exact absurd heq (hfresh hold)
    · exact absurd heq.symm (hfresh hold')
    · rfl
  cursors := by
    intro j y hy
    rcases getElem?_concat_eq_some.mp hy with hy | ⟨rfl, rfl⟩
    · exact h.cursors hy
    · exact hvalid
  recorded := by
    intro k b hb htrigger
    obtain ⟨j, y, z, d, u, hy, hclaimed⟩ := h.recorded hb htrigger
    refine ⟨j, y, z, d, u, ?_, hclaimed⟩
    rw [List.getElem?_append_left (List.getElem?_eq_some_iff.mp hy).1]
    exact hy
  distinct := h.distinct

/-- A backup is added that nobody scheduled, or that the dispatcher claims. -/
lemma Site.Orderly.addBackup (h : s.Orderly)
    (hclaimed : b.trigger = .scheduled → ∃ (i : ℕ) (x : BackupSchedule) (z : TimeZone) (d : ℤ)
      (u : Instant), s.schedules[i]? = some x ∧ ClaimedBy s.clock x b z d u)
    (hapart : ∀ {k : ℕ} {a : BackupRecord}, s.backups[k]? = some a → Apart a b) :
    ({ s with backups := s.backups ++ [b] } : Site).Orderly where
  businesses := h.businesses
  cursors := h.cursors
  recorded := by
    intro k a ha htrigger
    rcases getElem?_concat_eq_some.mp ha with ha | ⟨-, rfl⟩
    · exact h.recorded ha htrigger
    · exact hclaimed htrigger
  distinct := by
    intro k l a a' ha ha' hne
    rcases getElem?_concat_eq_some.mp ha with hold | ⟨rfl, rfl⟩ <;>
      rcases getElem?_concat_eq_some.mp ha' with hold' | ⟨rfl, rfl⟩
    · exact h.distinct hold hold' hne
    · exact hapart hold
    · exact (hapart hold').symm
    · exact absurd rfl hne

/-- The status of a backup changes. -/
lemma Site.Orderly.progress (h : s.Orderly) (status : BackupStatus) :
    ({ s with backups := s.backups.modify pk ({ · with status }) } : Site).Orderly where
  businesses := h.businesses
  cursors := h.cursors
  recorded := by
    intro k b hb htrigger
    obtain ⟨a, ha, rfl⟩ := getElem?_modify_eq_some.mp hb
    have hclaimed : a.trigger = .scheduled := by
      split at htrigger <;> exact htrigger
    obtain ⟨i, x, z, d, u, hx, hold⟩ := h.recorded ha hclaimed
    refine ⟨i, x, z, d, u, hx, ?_⟩
    split
    · exact { hold with }
    · exact hold
  distinct := by
    intro k l a b ha hb hne
    obtain ⟨a, hold, rfl⟩ := getElem?_modify_eq_some.mp ha
    obtain ⟨b, hold', rfl⟩ := getElem?_modify_eq_some.mp hb
    have hapart := h.distinct hold hold' hne
    split <;> split <;> exact hapart

/-! ### Requests -/

/-- What a request for a backup leaves. -/
lemma createBackupRequest_runs {r : BackupRequest}
    (h : Runs (createBackupRequest r) s pk t) :
    t = s ∨ ∃ b : BackupRecord, t = { s with backups := s.backups ++ [b] } ∧
      b.business = r.business ∧ b.trigger = r.trigger ∧
      b.scheduledLocalDate = r.scheduledLocalDate ∧ b.occurrence = r.occurrence := by
  simp only [createBackupRequest, runs_bind, runs_reads, runs_check, runs_get] at h
  obtain ⟨resolution, _, ⟨-, rfl⟩, _, _, ⟨-, rfl⟩, _, _, ⟨-, rfl⟩, _, _, ⟨-, rfl⟩, _, _,
    ⟨-, rfl⟩, _, _, ⟨-, rfl⟩, _, _, ⟨-, rfl⟩, _, _, ⟨-, rfl⟩, _, _, ⟨rfl, rfl⟩, h⟩ := h
  split at h
  · simp only [runs_bind, runs_check, runs_pure] at h
    obtain ⟨-, _, ⟨-, rfl⟩, -, rfl⟩ := h
    exact .inl rfl
  · simp only [runs_bind, runs_modify, runs_pure] at h
    obtain ⟨-, _, rfl, -, rfl⟩ := h
    exact .inr ⟨_, rfl, rfl, rfl, rfl, rfl⟩

lemma advanceSchedule_runs {claimedRun : Option Instant} {a : PUnit}
    (h : Runs (advanceSchedule pk x now claimedRun) s a t) :
    ∃ next, nextDailyOccurrence x.localExecutionTime x.zone now = .ok next ∧
      t = s.saveSchedule pk
        { x with nextRun := some next, lastClaimedRun := claimedRun <|> x.lastClaimedRun } := by
  simp only [advanceSchedule, runs_bind, runs_reads, runs_modify] at h
  obtain ⟨next, _, ⟨hnext, rfl⟩, rfl⟩ := h
  exact ⟨next, hnext, rfl⟩

lemma findTimezone_eq_ok {zone : Option TimeZone} (h : findTimezone zone = .ok z) :
    zone = some z := by
  cases zone with
  | none => exact nomatch h
  | some z' => rw [Except.ok.inj h]

/-- A cursor that was looked for is an occurrence ahead. -/
lemma nextDailyOccurrence_ahead {time : TimeOfDay} {zone : Option TimeZone}
    (h : nextDailyOccurrence time zone now = .ok n) :
    now < n ∧ ∃ z e, zone = some z ∧ IsOccurrence z time e n := by
  cases zone with
  | none => exact nomatch h
  | some z =>
    obtain ⟨u, e, hu, he, -, hafter, -⟩ := nextDailyOccurrence_spec z time now
    cases h.symm.trans hu
    exact ⟨hafter, z, e, rfl, he⟩

/-- The cursor of a schedule is moved. -/
lemma Site.Orderly.advance (h : s.Orderly) (hx : s.schedules[i]? = some x)
    {last : Option Instant} (hn : nextDailyOccurrence x.localExecutionTime x.zone s.clock = .ok n) :
    (s.saveSchedule i { x with nextRun := some n, lastClaimedRun := last }).Orderly := by
  obtain ⟨hahead, z, e, hzone, he⟩ := nextDailyOccurrence_ahead hn
  refine h.saveSchedule hx rfl rfl rfl ?_ ?_
  · rintro _ ⟨⟩
    exact ⟨z, e, hzone, he⟩
  · rintro _ ⟨⟩
    exact hahead

/-! ### Claims -/

/-- Where every date keeps the time of day, what is due is an occurrence, of the date on which it
lies, that is neither before the cursor nor ahead. -/
lemma latestDueOccurrence_spec {e : ℤ} (hcalm : x.CalmAt now) (hn : x.nextRun = some n)
    (hzone : x.zone = some z) (hcursor : IsOccurrence z x.localExecutionTime e n)
    (h : latestDueOccurrence x now = .ok (some due)) :
    n ≤ due ∧ due ≤ now ∧ IsOccurrence z x.localExecutionTime (z.dateOf due) due := by
  have hkeeps := hcalm z hzone
  obtain ⟨u₀, h₀⟩ := exists_occurrence z x.localExecutionTime (z.dateOf now)
  obtain ⟨u₁, h₁⟩ := exists_occurrence z x.localExecutionTime (z.dateOf now - 1)
  obtain ⟨u₂, h₂⟩ := exists_occurrence z x.localExecutionTime (z.dateOf now + 2)
  have hpast : u₁ ≤ now :=
    h₁.le_iff_passed.mpr (hkeeps (z.dateOf now - 1) le_rfl (by omega)).passed
  rw [latestDueOccurrence, hn] at h
  simp only at h
  split at h
  · cases h
  rename_i hdue
  -- The candidate is the occurrence of the date of the clock, or else of the day before.
  have hcandidate : ∃ d u, z.dateOf now - 1 ≤ d ∧ IsOccurrence z x.localExecutionTime d u ∧
      u ≤ now ∧ due = max u n := by
    rw [hzone] at h
    change (do
      let candidate ← resolveLocalDailyOccurrence (z.dateOf now) x.localExecutionTime (some z)
      if now < candidate then do
        let candidate ←
          resolveLocalDailyOccurrence (z.dateOf now - 1) x.localExecutionTime (some z)
        pure (some (max candidate n))
      else
        pure (some (max candidate n))) = Except.ok (some due) at h
    rw [h₀] at h
    change (if now < u₀ then _ else _) = _ at h
    split at h
    · rw [h₁] at h
      exact ⟨_, u₁, le_rfl, h₁, hpast, (Option.some.inj (Except.ok.inj h)).symm⟩
    · rename_i hle
      exact ⟨_, u₀, by omega, h₀, not_lt.mp hle, (Option.some.inj (Except.ok.inj h)).symm⟩
  obtain ⟨d, u, hd, hu, hule, rfl⟩ := hcandidate
  have hle : max u n ≤ now := max_le hule (not_lt.mp hdue)
  obtain ⟨c, hc, hdc⟩ : ∃ c, IsOccurrence z x.localExecutionTime c (max u n) ∧ d ≤ c := by
    rcases le_total n u with hnu | hun
    · rw [max_eq_left hnu]
      exact ⟨d, hu, le_rfl⟩
    · rw [max_eq_right hun]
      refine ⟨e, hcursor, ?_⟩
      rcases hun.eq_or_lt with rfl | hlt
      · by_contra hed
        exact absurd (hcursor.lt hu (not_le.mp hed)) (lt_irrefl _)
      · exact (hu.date_lt hcursor hlt).le
  have hc₂ : c < z.dateOf now + 2 := hc.date_lt h₂ (hle.trans_lt h₂.ahead)
  have hdate := hc.dateOf_eq_iff.mpr (hkeeps c (by omega) (by omega))
  refine ⟨le_max_right u n, hle, ?_⟩
  rw [hdate]
  exact hc

/-- What holds between the claims of a scan. -/
structure Site.Ready (s : Site) (now : Instant) : Prop where
  orderly : s.Orderly
  clock : s.clock = now
  calm : ∀ {i : ℕ} {x : BackupSchedule}, s.schedules[i]? = some x → x.CalmAt now

/-- The cursor of a schedule is moved between two claims. -/
lemma Site.Ready.advance (h : s.Ready now) (hx : s.schedules[i]? = some x)
    {last : Option Instant} (hn : nextDailyOccurrence x.localExecutionTime x.zone now = .ok n) :
    (s.saveSchedule i { x with nextRun := some n, lastClaimedRun := last }).Ready now where
  orderly := h.orderly.advance hx (h.clock.symm ▸ hn)
  clock := h.clock
  calm := by
    intro j y hy
    rcases schedules_saveSchedule hy with ⟨rfl, rfl⟩ | ⟨-, hold⟩
    · exact fun z hz => h.calm hx z hz
    · exact h.calm hold

lemma Site.Ready.moveCursor {state : ScheduleClaimState} {result : ScheduleClaimResult}
    (h : s.Ready now) (hx : s.schedules[i]? = some x)
    (hrun : Runs (moveCursor i x now state) s result t) : t.Ready now := by
  rw [Scheduling.moveCursor, runs_bind] at hrun
  obtain ⟨r, u, hattempt, hrun⟩ := hrun
  rcases runs_attempt.mp hattempt with ⟨a, rfl, hadvance⟩ | ⟨e, rfl, -, rfl⟩
  · obtain ⟨-, rfl⟩ := runs_pure.mp hrun
    obtain ⟨next, hnext, rfl⟩ := advanceSchedule_runs hadvance
    exact h.advance hx hnext
  · obtain ⟨-, rfl⟩ := runs_pure.mp hrun
    exact h

/-- A backup that is claimed for an occurrence at or after the cursor has a new occurrence and a
new date. -/
lemma Site.Orderly.apart (h : s.Orderly) (hx : s.schedules[i]? = some x)
    (hn : x.nextRun = some n) (hzone : x.zone = some z) {c : ℤ}
    (hc : IsOccurrence z x.localExecutionTime c due) (hle : n ≤ due)
    (hbusiness : b.business = x.business) (hdate : b.scheduledLocalDate = some c)
    (hoccurrence : b.occurrence = some due) {a : BackupRecord} (ha : s.backups[k]? = some a) :
    Apart a b := by
  intro htrigger _ hsame
  obtain ⟨j, y, z', d, u, hy, hclaimed⟩ := h.recorded ha htrigger
  obtain rfl := h.businesses hy hx (hclaimed.business.trans (hsame.trans hbusiness))
  cases hy.symm.trans hx
  cases hclaimed.zone.symm.trans hzone
  have hlt : u < due := (hclaimed.cursor n hn).trans_le hle
  rw [hclaimed.occurrence, hoccurrence, hclaimed.date, hdate]
  constructor
  · rintro ⟨⟩
    exact lt_irrefl _ hlt
  · rintro ⟨⟩
    exact lt_irrefl _ (hclaimed.resolved.date_lt hc hlt)

/-- The occurrence that is due is claimed. -/
lemma Site.Ready.claimOccurrence {setup : ScheduleSetup} {result : ScheduleClaimResult}
    (h : s.Ready now) (hx : s.schedules[i]? = some x) (hn : x.nextRun = some n)
    (hdue : latestDueOccurrence x now = .ok (some due))
    (hrun : Runs (claimOccurrence setup i x now due) s result t) : t.Ready now := by
  obtain ⟨z, e, hzone, hcursor⟩ := h.orderly.cursors hx n hn
  obtain ⟨hle, hpast, hresolved⟩ := latestDueOccurrence_spec (h.calm hx) hn hzone hcursor hdue
  simp only [Scheduling.claimOccurrence, runs_bind, runs_reads, runs_get] at hrun
  obtain ⟨z', s₁, ⟨hz', hs₁⟩, s₂, s₃, ⟨-, hs₃⟩, pk, u, hcreate, _, v, hadvance, hend⟩ := hrun
  rw [hs₃, hs₁] at hcreate
  cases hzone.symm.trans (findTimezone_eq_ok hz')
  obtain ⟨next, hnext, rfl⟩ := advanceSchedule_runs hadvance
  have ht : t = u.saveSchedule i
      { x with nextRun := some next, lastClaimedRun := some due <|> x.lastClaimedRun } := by
    rw [runs_ite] at hend
    rcases hend with ⟨-, hend⟩ | ⟨-, hend⟩
    · exact (runs_pure.mp hend).2
    · exact (runs_pure.mp hend).2
  rw [ht]
  have hadvanced : (s.saveSchedule i { x with
      nextRun := some next, lastClaimedRun := some due <|> x.lastClaimedRun }).Ready now :=
    h.advance hx hnext
  rcases createBackupRequest_runs hcreate with rfl | ⟨b, rfl, hbusiness, htrigger, hdate, hocc⟩
  · exact hadvanced
  · have hlength := (List.getElem?_eq_some_iff.mp hx).1
    refine ⟨hadvanced.orderly.addBackup (fun _ => ?_) fun ha => ?_, h.clock, hadvanced.calm⟩
    · refine ⟨i, _, z, z.dateOf due, due, List.getElem?_set_self hlength, ?_⟩
      refine ⟨hbusiness.symm, hzone, hdate, hocc, hresolved, ?_, ?_⟩
      · exact h.clock.symm ▸ hpast
      · rintro _ ⟨⟩
        exact hpast.trans_lt (nextDailyOccurrence_ahead hnext).1
    · exact h.orderly.apart hx hn hzone hresolved hle hbusiness hdate hocc ha

lemma Site.Ready.claimDueSchedule {setup : ScheduleSetup} {result : ScheduleClaimResult}
    (h : s.Ready now) (hrun : Runs (claimDueSchedule setup now pk) s result t) : t.Ready now := by
  rw [Scheduling.claimDueSchedule, runs_bind] at hrun
  obtain ⟨a, u, hget, hrun⟩ := hrun
  rw [(runs_get.mp hget).1, (runs_get.mp hget).2] at hrun
  have hsame : ∀ {r result : ScheduleClaimResult} {t},
      Runs (pure r : Tx Site ScheduleFault ScheduleClaimResult) s result t → t.Ready now :=
    fun hrun => (runs_pure.mp hrun).2 ▸ h
  split at hrun
  · exact hsame hrun
  rename_i x hx
  split at hrun
  · exact hsame hrun
  split at hrun
  · exact h.moveCursor hx hrun
  rename_i hcursor
  obtain ⟨n, hn⟩ := Option.ne_none_iff_exists'.mp (by simpa using hcursor)
  split at hrun
  · exact hsame hrun
  · exact hsame hrun
  rename_i due hdue
  split at hrun
  · exact h.moveCursor hx hrun
  split at hrun
  · exact hsame hrun
  · exact h.claimOccurrence hx hn hdue hrun

lemma Site.Ready.claimAll {setup : ScheduleSetup} {pks : List ℕ} (h : s.Ready now) :
    (claimAll setup now pks s).2.Ready now := by
  induction pks generalizing s with
  | nil => exact h
  | cons pk pks ih =>
    rw [Scheduling.claimAll]
    split
    · exact h
    · rename_i result t hrun
      exact ih (h.claimDueSchedule hrun)

/-- A scan of the dispatcher. -/
lemma Site.Ready.dispatch {setup : ScheduleSetup} {limit : ℕ} (h : s.Ready now) :
    (dispatchDueSchedules setup now limit s).2.Ready now := by
  rw [dispatchDueSchedules]
  split
  · exact h.claimAll
  · exact h

/-! ### Configuration -/

/-- The time zone and the time of day of a schedule stay, and its cursor is looked for. -/
def ScheduleRequest.Fits (r : ScheduleRequest) (s : Site) : Prop :=
  r.nextRun = none ∧ ∀ x ∈ s.schedules, x.business = r.business →
    x.zone = r.zone ∧ x.localExecutionTime = r.localExecutionTime

lemma savedCursor_ahead {r : ScheduleRequest} {cursor : Option Instant} (hr : r.nextRun = none)
    (h : savedCursor r now = .ok cursor) (hn : cursor = some n) :
    now < n ∧ ∃ z e, r.zone = some z ∧ IsOccurrence z r.localExecutionTime e n := by
  subst hn
  rw [savedCursor, hr] at h
  split at h
  · simp only at h
    split at h
    · rename_i u hu
      cases h
      exact nextDailyOccurrence_ahead hu
    · cases h
  · cases h

lemma Site.Orderly.upsert {r : ScheduleRequest} {a : PUnit} (h : s.Orderly) (hr : r.Fits s)
    (hrun : Runs (upsertBackupSchedule r s.clock) s a t) : t.Orderly := by
  simp only [upsertBackupSchedule, runs_bind, runs_reads, runs_check, runs_modify] at hrun
  obtain ⟨resolution, s₁, ⟨-, hs₁⟩, _, s₂, ⟨-, hs₂⟩, _, s₃, ⟨-, hs₃⟩, _, s₄, ⟨-, hs₄⟩, cursor, s₅,
    ⟨hcursor, hs₅⟩, rfl⟩ := hrun
  rw [hs₅, hs₄, hs₃, hs₂, hs₁]
  have hahead : ∀ n, cursor = some n → s.clock < n ∧ ∃ z e, r.zone = some z ∧
      IsOccurrence z r.localExecutionTime e n := fun n => savedCursor_ahead hr.1 hcursor
  split
  · rename_i hnone
    refine h.addSchedule (fun {j y} hy hsame => ?_) fun n hn => (hahead n hn).2
    have hne := List.findIdx?_eq_none_iff.mp hnone y (List.mem_of_getElem? hy)
    exact absurd hsame (of_decide_eq_false hne)
  · rename_i i hsome
    obtain ⟨hlt, hp, -⟩ := List.findIdx?_eq_some_iff_getElem.mp hsome
    have hx := List.getElem?_eq_getElem hlt
    have hbusiness := of_decide_eq_true hp
    obtain ⟨hzone, htime⟩ := hr.2 _ (List.getElem_mem hlt) hbusiness
    exact h.saveSchedule hx hbusiness.symm hzone.symm htime.symm (fun n hn => (hahead n hn).2)
      fun n hn => (hahead n hn).1

end Rows

/-! ## Runs -/

/-- The clock does not go back, schedules keep their time zone and their time of day, and only the
dispatcher schedules backups. -/
def Admissible (s : Site) : Move → Prop
  | .dispatch now _ => s.clock ≤ now
  | .upsert now r => s.clock ≤ now ∧ r.Fits s
  | .request r => r.trigger ≠ .scheduled
  | .progress .. => True
  | .tenant .. => True

/-- When the dispatcher runs, the dates around keep the time of day of every schedule. -/
def Calm (s : Site) : Move → Prop
  | .dispatch now _ => ∀ x ∈ s.schedules, x.CalmAt now
  | _ => True

instance decidableFits (r : ScheduleRequest) (s : Site) : Decidable (r.Fits s) :=
  inferInstanceAs (Decidable (_ ∧ _))

instance decidableAdmissible (s : Site) : (m : Move) → Decidable (Admissible s m)
  | .dispatch now _ => inferInstanceAs (Decidable (s.clock ≤ now))
  | .upsert now r => inferInstanceAs (Decidable (s.clock ≤ now ∧ r.Fits s))
  | .request r => inferInstanceAs (Decidable (r.trigger ≠ .scheduled))
  | .progress .. => inferInstanceAs (Decidable True)
  | .tenant .. => inferInstanceAs (Decidable True)

lemma Site.Orderly.step {setup : ScheduleSetup} {s : Site} {m : Move} (h : s.Orderly)
    (hm : Admissible s m ∧ Calm s m) : (step setup s m).Orderly := by
  cases m with
  | dispatch now limit =>
    have hready : ({ s with clock := now } : Site).Ready now :=
      ⟨h.later hm.1, rfl, fun hx => hm.2 _ (List.mem_of_getElem? hx)⟩
    exact hready.dispatch.orderly
  | upsert now r =>
    have hlater := h.later hm.1.1
    rcases commit_cases (upsertBackupSchedule r now) { s with clock := now } with hsame | ⟨a, hrun⟩
    · rw [Scheduling.step, hsame]
      exact hlater
    · exact hlater.upsert hm.1.2 hrun
  | request r =>
    rcases commit_cases (createBackupRequest r) s with hsame | ⟨pk, hrun⟩
    · rw [Scheduling.step, hsame]
      exact h
    · rw [Scheduling.step]
      rcases createBackupRequest_runs hrun with hsame | ⟨b, hcommit, -, htrigger, -⟩
      · rw [hsame]
        exact h
      · have hne : b.trigger ≠ .scheduled := htrigger ▸ hm.1
        rw [hcommit]
        exact h.addBackup (fun hb => absurd hb hne) fun _ _ hb => absurd hb hne
  | progress pk status => exact h.progress status
  | tenant business tenant => exact ⟨h.businesses, h.cursors, h.recorded, h.distinct⟩

/-- The next occurrence is found, and it is the earliest one ahead unless that of the day before is
still to come; occurrences follow the dates; and in a run in which the dates around every scan keep
the times of day, two scheduled backups of a business have their own occurrences and dates. -/
theorem daily_schedule (setup : ScheduleSetup) :
    (∀ (z : TimeZone) (t : TimeOfDay) (after : Instant), ∃ u,
      nextDailyOccurrence t (some z) after = .ok u ∧
        (IsLeast (occurrencesAfter z t after) u ↔ Passed z t (z.dateOf after - 1) after)) ∧
    (∀ (z : TimeZone) (t : TimeOfDay) (d : ℤ), ∃ u v,
      resolveLocalDailyOccurrence d t (some z) = .ok u ∧
        resolveLocalDailyOccurrence (d + 1) t (some z) = .ok v ∧ u < v ∧
          (z.dateOf u = d ↔ KeepsDate z t d)) ∧
    ∀ (tenants : ℕ → Tenant) (moves : List Move),
      Trace.All (step setup) (fun s m => Admissible s m ∧ Calm s m) { tenants } moves →
        (Trace.run (step setup) { tenants } moves).OnceADay := by
  refine ⟨fun z t after => ?_, fun z t d => ?_, fun tenants moves hmoves i j a b ha hb hne => ?_⟩
  · obtain ⟨u, e, hu, -⟩ := nextDailyOccurrence_spec z t after
    exact ⟨u, hu, nextDailyOccurrence_isLeast hu⟩
  · obtain ⟨u, hu⟩ := exists_occurrence z t d
    obtain ⟨v, hv⟩ := exists_occurrence z t (d + 1)
    exact ⟨u, v, hu, hv, hu.lt hv (by omega), hu.dateOf_eq_iff⟩
  · have hstart : ({ tenants } : Site).Orderly := ⟨nofun, nofun, nofun, nofun⟩
    exact (Trace.invariant_of_all (fun _ _ hm h => h.step hm) hstart hmoves).distinct ha hb hne

/-! ### Two schedules -/

/-- A key for each date and instant. -/
def datedKeys : ScheduleSetup where
  scheduledKey _ d u := toString d ++ "," ++ toString u

def activeTenant : Tenant where
  isActive := true
  subscription := some ⟨true, true⟩
  products := [.pos]

def enabledSchedule (z : TimeZone) (t : TimeOfDay) : ScheduleRequest where
  business := 0
  localExecutionTime := t
  enabled := true
  zone := some z
  authorized := true

/-- The moves of a schedule: it is configured, the dispatcher runs, the backup succeeds, and the
dispatcher runs again. -/
def twoScans (z : TimeZone) (t : TimeOfDay) (first second : Instant) : List Move :=
  [.upsert 0 (enabledSchedule z t), .dispatch first 100, .progress 0 .succeeded,
    .dispatch second 100]

/-- Four hours ahead of UTC. -/
def muscat : TimeZone where
  before := 240 * minute
  transitions := []
  steady := trivial

def threeOClock : TimeOfDay := ⟨180 * minute, by decide, by decide⟩

lemma keepsDate_of_fixed {offset : ℤ} {h : Zone.Steady (180 * minute) ⟨offset, []⟩}
    (t : TimeOfDay) (d : ℤ) : KeepsDate ⟨⟨offset, []⟩, h⟩ t d := by
  refine ⟨0, Nat.zero_le 180, ⟨combine d t - offset, ?_⟩, ?_⟩
  · simp [Zone.toLocal, offsetAt]
  · have hlt := t.lt_day
    rw [combine, day] at *
    omega

/-- Two days of a schedule at three o'clock. -/
theorem daily_schedule_muscat :
    (Trace.run (step datedKeys) { tenants := fun _ => activeTenant }
      (twoScans muscat threeOClock day (2 * day))).backups.map (·.scheduledLocalDate) =
        [some 1, some 2] ∧
    (Trace.run (step datedKeys) { tenants := fun _ => activeTenant }
      (twoScans muscat threeOClock day (2 * day))).OnceADay := by
  refine ⟨by decide +kernel, (daily_schedule datedKeys).2.2 _ _ ?_⟩
  have hcalm : ∀ (s : Site) (now : Instant), (∀ x ∈ s.schedules, x.zone = some muscat) →
      ∀ x ∈ s.schedules, x.CalmAt now := by
    intro s now hzone x hx z hz d _ _
    cases (hzone x hx).symm.trans hz
    exact keepsDate_of_fixed _ _
  simp only [twoScans, Trace.all_cons, Trace.all_nil, and_true]
  refine ⟨⟨by decide +kernel, trivial⟩, ⟨by decide +kernel, hcalm _ _ ?_⟩,
    ⟨by decide +kernel, trivial⟩, by decide +kernel, hcalm _ _ ?_⟩
  · decide +kernel
  · decide +kernel

/-- The clock is set forward by an hour at half past eleven in the evening. -/
def eveningChange : TimeZone where
  before := 0
  transitions := [⟨day - 30 * minute, 60 * minute⟩]
  steady := by decide +kernel

def quarterToMidnight : TimeOfDay := ⟨1425 * minute, by decide, by decide⟩

/-- The same, and thirty seconds. -/
def beforeMidnight : TimeOfDay := ⟨1425 * minute + 30000000, by decide, by decide⟩

/-- The time of day is put off past midnight.  Ten seconds after the change its occurrence is still
to come and is passed over; and with a whole minute, both the occurrence of the first date and that
of the second make a backup of the second date. -/
theorem daily_schedule_skips_midnight :
    (∃ u v, nextDailyOccurrence beforeMidnight (some eveningChange)
        (day - 30 * minute + 10000000) = .ok u ∧
      resolveLocalDailyOccurrence 0 beforeMidnight (some eveningChange) = .ok v ∧
        day - 30 * minute + 10000000 < v ∧ v < u) ∧
    Trace.All (step datedKeys) Admissible { tenants := fun _ => activeTenant }
      (twoScans eveningChange quarterToMidnight (day - 20 * minute) (2 * day - 70 * minute)) ∧
    (Trace.run (step datedKeys) { tenants := fun _ => activeTenant }
      (twoScans eveningChange quarterToMidnight (day - 20 * minute)
        (2 * day - 70 * minute))).backups.map
          (fun b => (b.business, b.trigger, b.scheduledLocalDate)) =
      [(0, .scheduled, some 1), (0, .scheduled, some 1)] := by
  exact ⟨⟨_, _, rfl, rfl, by decide +kernel, by decide +kernel⟩, by decide +kernel,
    by decide +kernel⟩

end NexaPos.Backups.Scheduling
