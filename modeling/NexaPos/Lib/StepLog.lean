import Mathlib.Data.List.Basic
import Mathlib.Data.Option.Basic

/-!
# Logged steps

A loop takes one input after the other.  Each step changes a state and yields an outcome, or stops
the loop for good.  `run` is the loop with its log, and `Rounds` says something of every round that
the loop makes.

An idle step, one that leaves the state as it found it, can be dropped: the other inputs have the
same outcomes without it (`run_eraseIdx`).
-/

universe u v w

namespace StepLog

variable {σ : Type u} {ι : Type v} {δ : Type w} (step : σ → ι → Option (σ × δ))

/-- The state after some inputs and what each of them came to, unless a step stops the loop. -/
def run : σ → List ι → Option (σ × List δ)
  | s, [] => some (s, [])
  | s, i :: is => (step s i).bind fun x => (run x.1 is).map fun y => (y.1, x.2 :: y.2)

/-- Every round starts from a state and an input that meet the condition. -/
def Rounds (P : σ → ι → Prop) : σ → List ι → Prop
  | _, [] => True
  | s, i :: is => P s i ∧ ∀ x, step s i = some x → Rounds P x.1 is

variable {step} {P Q : σ → ι → Prop} {s s' : σ} {i : ι} {is : List ι} {d : δ} {ds : List δ}

@[simp] lemma run_nil : run step s [] = some (s, []) := rfl

lemma run_cons : run step s (i :: is) =
    (step s i).bind fun x => (run step x.1 is).map fun y => (y.1, x.2 :: y.2) := rfl

lemma run_cons_eq_some {y : σ × List δ} : run step s (i :: is) = some y ↔
    ∃ x ds, step s i = some x ∧ run step x.1 is = some (y.1, ds) ∧ y.2 = x.2 :: ds := by
  obtain ⟨t, es⟩ := y
  simp only [run_cons, Option.bind_eq_some_iff, Option.map_eq_some_iff, Prod.mk.injEq,
    Prod.exists]
  constructor
  · rintro ⟨t', e, hstep, t'', es', hrun, rfl, rfl⟩
    exact ⟨t', e, es', hstep, hrun, rfl⟩
  · rintro ⟨t', e, es', hstep, hrun, rfl⟩
    exact ⟨t', e, hstep, t, es', hrun, rfl, rfl⟩

lemma rounds_cons : Rounds step P s (i :: is) ↔
    P s i ∧ ∀ x, step s i = some x → Rounds step P x.1 is := Iff.rfl

/-- Conditions that agree wherever an invariant holds, agree along a loop whose rounds keep the
invariant. -/
theorem rounds_congr {I : σ → Prop} (hI : ∀ s i x, I s → P s i → step s i = some x → I x.1)
    (h : ∀ s i, I s → (P s i ↔ Q s i)) (hs : I s) (is : List ι) :
    Rounds step P s is ↔ Rounds step Q s is := by
  induction is generalizing s with
  | nil => exact Iff.rfl
  | cons i is ih =>
    rw [rounds_cons, rounds_cons, ← h s i hs]
    refine and_congr_right fun hP => forall_congr' fun x => ?_
    exact imp_congr_right fun hstep => ih (hI s i x hs hP hstep)

lemma Rounds.imp (h : ∀ s i, P s i → Q s i) (hr : Rounds step P s is) : Rounds step Q s is := by
  induction is generalizing s with
  | nil => trivial
  | cons i is ih => exact ⟨h s i hr.1, fun x hx => ih (hr.2 x hx)⟩

/-- A loop whose steps all go through comes to its end. -/
lemma run_of_rounds (h : Rounds step (fun s i => ∃ x, step s i = some x) s is) :
    ∃ y, run step s is = some y := by
  induction is generalizing s with
  | nil => exact ⟨_, rfl⟩
  | cons i is ih =>
    obtain ⟨⟨x, hx⟩, hrest⟩ := h
    obtain ⟨y, hy⟩ := ih (hrest x hx)
    exact ⟨(y.1, x.2 :: y.2), run_cons_eq_some.mpr ⟨x, y.2, hx, hy, rfl⟩⟩

lemma length_of_run (h : run step s is = some (s', ds)) : ds.length = is.length := by
  induction is generalizing s ds with
  | nil =>
    obtain ⟨rfl, rfl⟩ := Prod.mk.inj (Option.some.inj h)
    rfl
  | cons i is ih =>
    obtain ⟨x, ds', -, hrest, rfl⟩ := run_cons_eq_some.mp h
    exact congrArg (· + 1) (ih hrest)

/-- A step that leaves the state as it found it can be dropped. -/
theorem run_eraseIdx (idle : δ → Prop)
    (hidle : Rounds step (fun s i => ∀ x, step s i = some x → idle x.2 → x.1 = s) s is)
    (h : run step s is = some (s', ds)) {n : ℕ} (hd : ds[n]? = some d) (hn : idle d) :
    run step s (is.eraseIdx n) = some (s', ds.eraseIdx n) := by
  induction is generalizing s ds n with
  | nil =>
    obtain ⟨-, rfl⟩ := Prod.mk.inj (Option.some.inj h)
    rw [List.getElem?_nil] at hd
    exact nomatch hd
  | cons i is ih =>
    obtain ⟨x, ds', hstep, hrest, hds⟩ := run_cons_eq_some.mp h
    obtain rfl : ds = x.2 :: ds' := hds
    cases n with
    | zero =>
      rw [List.getElem?_cons_zero, Option.some.injEq] at hd
      have hsame : x.1 = s := hidle.1 x hstep (hd ▸ hn)
      rw [List.eraseIdx_cons_zero, List.eraseIdx_cons_zero, ← hsame]
      exact hrest
    | succ n =>
      rw [List.getElem?_cons_succ] at hd
      rw [List.eraseIdx_cons_succ, List.eraseIdx_cons_succ]
      exact run_cons_eq_some.mpr ⟨x, _, hstep, ih (hidle.2 x hstep) hrest hd, rfl⟩

end StepLog
