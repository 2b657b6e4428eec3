import Mathlib.Algebra.Order.Ring.Abs
import Mathlib.Algebra.Order.Ring.Int
import Mathlib.Data.List.Basic
import Mathlib.Order.Bounds.Basic
import Mathlib.Tactic.Common

/-!
# Local time

A time zone is an offset from UTC that changes at given instants.  Local times repeat where the
clock is set back and are missing where it is set forward, so the way back from a local time needs
a choice: `Zone.toUtc` takes the offset before the change, or the one after it, as a flag says.

`Zone.Steady gap` bounds the changes and keeps them apart.  Under it the first way back is the
first time that the clock shows a local time (`Zone.Steady.toUtc_first`), a local time that is seen
after a later one has been seen before it (`Zone.Steady.seen_before`), and where the clock is set
forward there is a local time after at most `gap` (`Zone.Steady.shown_or_skipped`).
-/

namespace LocalTime

/-- A change of the offset: the instant and the offset from then on. -/
structure Transition where
  time : ℤ
  offset : ℤ
  deriving DecidableEq, Repr

/-- The offset before the first change, and the changes in their order. -/
structure Zone where
  before : ℤ
  transitions : List Transition
  deriving DecidableEq, Repr

/-- The offset at an instant. -/
def offsetAt : ℤ → List Transition → ℤ → ℤ
  | before, [], _ => before
  | before, x :: xs, u => if u < x.time then before else offsetAt x.offset xs u

/-- The offset at a local time.  Around a change it is the one before the change, or with `fold`
the one after it. -/
def offsetOf (fold : Bool) : ℤ → List Transition → ℤ → ℤ
  | before, [], _ => before
  | before, x :: xs, w =>
    if w < x.time + (if fold then min before x.offset else max before x.offset) then before
    else offsetOf fold x.offset xs w

def Zone.toLocal (z : Zone) (u : ℤ) : ℤ := u + offsetAt z.before z.transitions u

def Zone.toUtc (z : Zone) (fold : Bool) (w : ℤ) : ℤ := w - offsetOf fold z.before z.transitions w

/-- The clock shows the local time at some instant. -/
def Zone.Shows (z : Zone) (w : ℤ) : Prop := ∃ u, z.toLocal u = w

/-- A change moves the clock by at most `gap`, and is at least `gap` after the one before. -/
def Steady (gap : ℤ) : ℤ → List Transition → Prop
  | _, [] => True
  | before, x :: xs =>
    |x.offset - before| ≤ gap ∧ (∀ y ∈ xs.head?, x.time + gap ≤ y.time) ∧ Steady gap x.offset xs

instance decidableSteady (gap : ℤ) : (before : ℤ) → (xs : List Transition) →
    Decidable (Steady gap before xs)
  | _, [] => inferInstanceAs (Decidable True)
  | before, x :: xs =>
    have := decidableSteady gap x.offset xs
    inferInstanceAs (Decidable (|x.offset - before| ≤ gap ∧
      (∀ y ∈ xs.head?, x.time + gap ≤ y.time) ∧ Steady gap x.offset xs))

def Zone.Steady (gap : ℤ) (z : Zone) : Prop := LocalTime.Steady gap z.before z.transitions

instance decidableZoneSteady (gap : ℤ) (z : Zone) : Decidable (z.Steady gap) :=
  decidableSteady gap z.before z.transitions

/-! ## Along the changes -/

/-- The local time at an instant, along a list of changes. -/
def localAt (before : ℤ) (xs : List Transition) (u : ℤ) : ℤ := u + offsetAt before xs u

/-- The next change is at least `gap` away. -/
def Clear (gap s : ℤ) (xs : List Transition) : Prop := ∀ y ∈ xs.head?, s + gap ≤ y.time

variable {gap before s u v w : ℤ} {x : Transition} {xs : List Transition}

@[simp] lemma localAt_nil : localAt before [] u = u + before := rfl

lemma localAt_of_lt (h : u < x.time) : localAt before (x :: xs) u = u + before := by
  rw [localAt, offsetAt, if_pos h]

lemma localAt_of_le (h : x.time ≤ u) : localAt before (x :: xs) u = localAt x.offset xs u := by
  rw [localAt, offsetAt, if_neg (not_lt.mpr h), localAt]

lemma steady_cons : Steady gap before (x :: xs) ↔
    |x.offset - before| ≤ gap ∧ Clear gap x.time xs ∧ Steady gap x.offset xs := Iff.rfl

/-- Up to the next change the offset stays. -/
lemma localAt_of_clear (h : Clear gap s xs) (hu : u < s + gap) :
    localAt before xs u = u + before := by
  cases xs with
  | nil => rfl
  | cons y ys => exact localAt_of_lt (hu.trans_le (h y rfl))

/-- From a change on, the clock never shows less than right after it. -/
lemma Steady.le_localAt (h : Steady gap before xs) (hs : Clear gap s xs) (hu : s ≤ u) :
    s + before ≤ localAt before xs u := by
  induction xs generalizing before s with
  | nil =>
    rw [localAt_nil]
    omega
  | cons y ys ih =>
    obtain ⟨hjump, hclear, hrest⟩ := steady_cons.mp h
    have hfar := hs y rfl
    rcases lt_or_ge u y.time with hlt | hle
    · rw [localAt_of_lt hlt]
      omega
    · rw [localAt_of_le hle]
      have hnext := ih hrest hclear hle
      have hback := (abs_le.mp hjump).1
      omega

/-- The clock falls back by at most `gap`. -/
lemma Steady.localAt_sub_le (h : Steady gap before xs) (hgap : 0 ≤ gap) (huv : u ≤ v) :
    localAt before xs u - gap ≤ localAt before xs v := by
  induction xs generalizing before with
  | nil =>
    rw [localAt_nil, localAt_nil]
    omega
  | cons y ys ih =>
    obtain ⟨hjump, hclear, hrest⟩ := steady_cons.mp h
    rcases lt_or_ge u y.time with hu | hu
    · rw [localAt_of_lt hu]
      rcases lt_or_ge v y.time with hv | hv
      · rw [localAt_of_lt hv]
        omega
      · rw [localAt_of_le hv]
        have hnext := hrest.le_localAt hclear hv
        have hback := (abs_le.mp hjump).1
        omega
    · rw [localAt_of_le hu, localAt_of_le (hu.trans huv)]
      exact ih hrest

/-- A local time that is seen after a later one has been seen before it. -/
lemma Steady.seen_before (h : Steady gap before xs) (hgap : 0 ≤ gap) (hvu : v < u)
    (hlocal : localAt before xs u < localAt before xs v) :
    ∃ r < v, localAt before xs r = localAt before xs u := by
  induction xs generalizing before with
  | nil =>
    rw [localAt_nil, localAt_nil] at hlocal
    omega
  | cons y ys ih =>
    obtain ⟨-, hclear, hrest⟩ := steady_cons.mp h
    rcases lt_or_ge v y.time with hv | hv
    · rw [localAt_of_lt hv] at hlocal
      refine ⟨localAt before (y :: ys) u - before, by omega, ?_⟩
      rw [localAt_of_lt (by omega), sub_add_cancel]
    · have hu := hv.trans hvu.le
      rw [localAt_of_le hu, localAt_of_le hv] at hlocal
      obtain ⟨r, hr, heq⟩ := ih hrest hlocal
      refine ⟨r, hr, ?_⟩
      have hlow := hrest.le_localAt hclear hu
      rcases lt_or_ge r y.time with hry | hry
      · -- So early the clock, with the new offset, would show less than it ever does later.
        rw [localAt_of_clear hclear (by omega)] at heq
        omega
      · rw [localAt_of_le hry, localAt_of_le hu, heq]

/-- The way back with the offset before the change is the first instant with the local time. -/
lemma Steady.first (h : Steady gap before xs) (hgap : 0 ≤ gap) (hu : localAt before xs u = w) :
    w - offsetOf false before xs w ≤ u ∧
      localAt before xs (w - offsetOf false before xs w) = w := by
  induction xs generalizing before with
  | nil =>
    rw [localAt_nil] at hu
    simp only [offsetOf, localAt_nil]
    omega
  | cons y ys ih =>
    obtain ⟨-, hclear, hrest⟩ := steady_cons.mp h
    simp only [offsetOf, Bool.false_eq_true, if_false]
    split
    · rename_i hw
      rcases lt_or_ge u y.time with hlt | hle
      · rw [localAt_of_lt hlt] at hu
        rw [localAt_of_lt (by omega)]
        omega
      · -- The local time is seen again after the change, so the change sets the clock back.
        have hlow := hrest.le_localAt hclear hle
        rw [localAt_of_le hle] at hu
        rw [localAt_of_lt (by omega)]
        omega
    · rename_i hw
      have hmax := le_max_left before y.offset
      have hmax' := le_max_right before y.offset
      have hle : y.time ≤ u := by
        by_contra hlt
        rw [localAt_of_lt (not_le.mp hlt)] at hu
        omega
      rw [localAt_of_le hle] at hu
      obtain ⟨hfirst, hback⟩ := ih hrest hu
      have hlate : y.time ≤ w - offsetOf false y.offset ys w := by
        by_contra hlt
        rw [localAt_of_clear hclear (by omega)] at hback
        omega
      rw [localAt_of_le hlate]
      exact ⟨hfirst, hback⟩

/-- A local time that is never shown is skipped, and the clock goes on after at most `gap`. -/
lemma Steady.shown_or_skipped (h : Steady gap before xs) (hgap : 0 ≤ gap) (w : ℤ) :
    (∃ u, localAt before xs u = w) ∨
      ∃ e, w < e ∧ e ≤ w + gap ∧ ∀ r, e ≤ r → r < e + gap → ∃ u, localAt before xs u = r := by
  induction xs generalizing before with
  | nil => exact .inl ⟨w - before, by rw [localAt_nil]; omega⟩
  | cons y ys ih =>
    obtain ⟨hjump, hclear, hrest⟩ := steady_cons.mp h
    have hforth := (abs_le.mp hjump).2
    -- What the clock shows with the new offset, and not before the change, it does show.
    have hlater : ∀ {r}, y.time + y.offset ≤ r → (∃ u, localAt y.offset ys u = r) →
        ∃ u, localAt before (y :: ys) u = r := by
      rintro r hr ⟨u, rfl⟩
      refine ⟨u, localAt_of_le ?_⟩
      by_contra hlt
      rw [localAt_of_clear hclear (by omega)] at hr
      omega
    rcases lt_or_ge w (y.time + before) with hw | hw
    · exact .inl ⟨w - before, by rw [localAt_of_lt (by omega)]; omega⟩
    rcases lt_or_ge w (y.time + y.offset) with hskip | hshown
    · refine .inr ⟨y.time + y.offset, hskip, by omega, fun r hr hlt => ?_⟩
      refine hlater hr ⟨r - y.offset, ?_⟩
      rw [localAt_of_clear hclear (by omega)]
      omega
    · rcases ih hrest with hrest | ⟨e, hwe, he, hall⟩
      · exact .inl (hlater hshown hrest)
      · exact .inr ⟨e, hwe, he, fun r hr hlt => hlater (by omega) (hall r hr hlt)⟩

/-! ## The clock of a zone -/

namespace Zone.Steady

variable {z : Zone}

/-- The clock falls back by at most `gap`. -/
lemma toLocal_sub_le (h : z.Steady gap) (hgap : 0 ≤ gap) (huv : u ≤ v) :
    z.toLocal u - gap ≤ z.toLocal v :=
  LocalTime.Steady.localAt_sub_le h hgap huv

/-- The way back with the offset before a change is the first instant with the local time. -/
lemma toUtc_first (h : z.Steady gap) (hgap : 0 ≤ gap) (hu : z.toLocal u = w) :
    z.toUtc false w ≤ u :=
  (LocalTime.Steady.first h hgap hu).1

lemma toLocal_toUtc (h : z.Steady gap) (hgap : 0 ≤ gap) (hw : z.Shows w) :
    z.toLocal (z.toUtc false w) = w := by
  obtain ⟨u, hu⟩ := hw
  exact (LocalTime.Steady.first h hgap hu).2

lemma seen_before (h : z.Steady gap) (hgap : 0 ≤ gap) (hvu : v < u)
    (hlocal : z.toLocal u < z.toLocal v) : ∃ r < v, z.toLocal r = z.toLocal u :=
  LocalTime.Steady.seen_before h hgap hvu hlocal

/-- The first instant with a local time comes before every instant with a later one. -/
lemma toUtc_lt (h : z.Steady gap) (hgap : 0 ≤ gap) (hw : z.Shows w) (hlt : w < z.toLocal v) :
    z.toUtc false w < v := by
  have hback := h.toLocal_toUtc hgap hw
  by_contra hle
  rcases (not_lt.mp hle).eq_or_lt with heq | hvu
  · rw [heq, hback] at hlt
    exact lt_irrefl _ hlt
  · obtain ⟨r, hr, hsame⟩ := h.seen_before hgap hvu (hback.symm ▸ hlt)
    exact absurd (h.toUtc_first hgap (hsame.trans hback)) (not_le.mpr (hr.trans hvu))

/-- Steps of one unit find a local time that is shown within `gap`. -/
lemma exists_shown {unit : ℤ} {n : ℕ} (h : z.Steady (n * unit)) (hunit : 0 < unit) (hn : n ≠ 0)
    (w : ℤ) : ∃ k ≤ n, z.Shows (w + k * unit) := by
  have hgap : 0 ≤ (n : ℤ) * unit := mul_nonneg (Int.natCast_nonneg n) hunit.le
  rcases LocalTime.Steady.shown_or_skipped h hgap w with hshown | ⟨e, hwe, he, hall⟩
  · refine ⟨0, Nat.zero_le n, ?_⟩
    rw [Nat.cast_zero, zero_mul, add_zero]
    exact hshown
  · -- The number of units up to the end of the gap, rounded up.
    obtain ⟨k, hk⟩ := Int.eq_ofNat_of_zero_le (show 0 ≤ (e - w + (unit - 1)) / unit from
      Int.ediv_nonneg (by omega) hunit.le)
    have hlow := Int.ediv_mul_le (e - w + (unit - 1)) hunit.ne'
    have hhigh := Int.lt_ediv_add_one_mul_self (e - w + (unit - 1)) hunit
    rw [hk] at hlow hhigh
    have hkn : k ≤ n := by
      by_contra hlt
      have hle : ((n : ℤ) + 1) * unit ≤ k * unit :=
        mul_le_mul_of_nonneg_right (by exact_mod_cast not_le.mp hlt) hunit.le
      rw [add_mul, one_mul] at hle
      omega
    refine ⟨k, hkn, hall _ ?_ ?_⟩
    · rw [add_mul, one_mul] at hhigh
      omega
    · have hone : unit ≤ n * unit :=
        le_mul_of_one_le_left hunit.le (by exact_mod_cast Nat.one_le_iff_ne_zero.mpr hn)
      omega

end Zone.Steady

end LocalTime
