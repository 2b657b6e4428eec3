import NexaPos.Lib.Transaction
import Mathlib.Logic.Function.Basic
import Mathlib.Tactic.Common

/-!
# Programs that call operations which may raise

A program is a tree: it is done with a value, or it calls an operation of its environment and
goes on with the answer, which is a value or an exception.  Nothing is said here about what the
operations do; a machine gives them a meaning on a shared state.  A call can be answered in
three ways: the operation runs, it raises without effect, or, when the machine says so, it raises
after its effect.

Three ways of running share one way of reasoning.

* `Runs` is the run of one program alone, with any answers raised on the way.
* `Machine.once` is the protocol of a run alone in which at most one call fails.
* `System.step` is one move of a pool in which any number of programs run at the same time, one
  operation at a time, in any order.  A program that is never moved again has crashed.

`Follows` says that a program keeps to a protocol: from a ghost state it makes only calls the
protocol admits there, and ends where `Q` holds.  With the shared state as the ghost state it is
the weakest precondition of a run (`Runs.of_follows`); with one ghost state for each program of a
pool it is the local half of an invariant of the pool (`System.follows_step`).

`Routine` puts local variables and exceptions over programs, so that code with `try` is written as
such: what a statement assigned before another raised is kept.
-/

/-- A program over the operations `ι`, where `i` answers with a value of `ρ i`. -/
inductive Prog (ι : Type) (ρ : ι → Type) (ε α : Type)
  | done (a : α)
  | call (i : ι) (k : Except ε (ρ i) → Prog ι ρ ε α)

/-- Which calls a ghost state admits, and where an answer leads. -/
structure Protocol (γ ι : Type) (ρ : ι → Type) (ε : Type) where
  may : γ → ι → Prop
  next : γ → (i : ι) → Except ε (ρ i) → γ → Prop

/-- The meaning of the operations on a shared state, for the program that calls them. -/
structure Machine (κ σ ι : Type) (ρ : ι → Type) (ε : Type) where
  exec : κ → (i : ι) → σ → Except ε (ρ i) × σ
  /-- The operation can raise after it has taken effect. -/
  torn : ι → Bool

/-- How a call is answered. -/
inductive Answer (ε : Type)
  | served
  | raised (e : ε)
  /-- The operation takes effect, and raises all the same when it can. -/
  | lost (e : ε)
  deriving DecidableEq

variable {κ σ γ ι : Type} {ρ : ι → Type} {ε α β : Type}

/-- The operation takes effect, if it can do so when it raises. -/
def Answer.effective : Answer ε → Bool
  | .raised _ => false
  | _ => true

namespace Prog

/-- The program goes on with `f`. -/
def bind : Prog ι ρ ε α → (α → Prog ι ρ ε β) → Prog ι ρ ε β
  | done a, f => f a
  | call i k, f => call i fun r => (k r).bind f

instance : Monad (Prog ι ρ ε) where
  pure := done
  bind := bind

/-- From `g` the program makes only admitted calls, and it ends where `Q` holds. -/
def Follows (P : Protocol γ ι ρ ε) (Q : α → γ → Prop) : Prog ι ρ ε α → γ → Prop
  | done a, g => Q a g
  | call i k, g => P.may g i ∧ ∀ r g', P.next g i r g' → (k r).Follows P Q g'

variable {P : Protocol γ ι ρ ε} {Q Q' : α → γ → Prop} {g : γ}

@[simp] lemma follows_done {a : α} :
    Follows P Q (done a : Prog ι ρ ε α) g ↔ Q a g := Iff.rfl

lemma follows_bind {p : Prog ι ρ ε α} {f : α → Prog ι ρ ε β} {Q : β → γ → Prop} :
    Follows P Q (p.bind f) g ↔ Follows P (fun a g' => (f a).Follows P Q g') p g := by
  induction p generalizing g with
  | done a => exact Iff.rfl
  | call i k ih =>
    refine and_congr Iff.rfl (forall_congr' fun r => forall_congr' fun g' => ?_)
    exact imp_congr Iff.rfl (ih r)

lemma Follows.mono {p : Prog ι ρ ε α} (h : p.Follows P Q g) (hQ : ∀ a g', Q a g' → Q' a g') :
    p.Follows P Q' g := by
  induction p generalizing g with
  | done a => exact hQ a g h
  | call i k ih => exact ⟨h.1, fun r g' hn => ih r (h.2 r g' hn)⟩

lemma Follows.and {p : Prog ι ρ ε α} (h : p.Follows P Q g) (h' : p.Follows P Q' g) :
    p.Follows P (fun a g' => Q a g' ∧ Q' a g') g := by
  induction p generalizing g with
  | done a => exact ⟨h, h'⟩
  | call i k ih => exact ⟨h.1, fun r g' hn => ih r (h.2 r g' hn) (h'.2 r g' hn)⟩

/-- What every admitted call keeps holds at the end. -/
lemma Follows.invariant {p : Prog ι ρ ε α} {I : γ → Prop} (h : p.Follows P Q g)
    (hI : ∀ g i r g', I g → P.may g i → P.next g i r g' → I g') (hg : I g) :
    p.Follows P (fun a g' => Q a g' ∧ I g') g := by
  induction p generalizing g with
  | done a => exact ⟨h, hg⟩
  | call i k ih =>
    exact ⟨h.1, fun r g' hn => ih r (h.2 r g' hn) (hI g i r g' hg h.1 hn)⟩

end Prog

/-! ## Machines -/

namespace Machine

variable (M : Machine κ σ ι ρ ε)

/-- The answer to a call and the state it leaves. -/
def answer (who : κ) (i : ι) (s : σ) : Answer ε → Except ε (ρ i) × σ
  | .served => M.exec who i s
  | .raised e => (.error e, s)
  | .lost e => (.error e, if M.torn i then (M.exec who i s).2 else s)

/-- The protocol of a machine: every call is admitted, and answered in any way. -/
def protocol (who : κ) : Protocol σ ι ρ ε where
  may _ _ := True
  next s i r t := ∃ c, M.answer who i s c = (r, t)

end Machine

variable {M : Machine κ σ ι ρ ε} {who : κ}

/-- A relation that holds between the states before and after every operation, and of every state
with itself, holds across every answer. -/
lemma Machine.answer_related {R : σ → σ → Prop} (hrefl : ∀ s, R s s) {i : ι}
    {s : σ} (h : R s (M.exec who i s).2) (c : Answer ε) : R s (M.answer who i s c).2 := by
  cases c with
  | served => exact h
  | raised e => exact hrefl s
  | lost e =>
    change R s (if M.torn i then (M.exec who i s).2 else s)
    split
    · exact h
    · exact hrefl s

namespace Prog

/-- The program, alone from `s`, ends with `a` in the state `t`. -/
inductive Runs (M : Machine κ σ ι ρ ε) (who : κ) : Prog ι ρ ε α → σ → α → σ → Prop
  | done (a : α) (s : σ) : Runs M who (.done a) s a s
  | call {i : ι} {k : Except ε (ρ i) → Prog ι ρ ε α} {s u : σ} {r : Except ε (ρ i)} {a : α}
      {t : σ} (c : Answer ε) (h : M.answer who i s c = (r, u)) (hk : Runs M who (k r) u a t) :
      Runs M who (.call i k) s a t

/-- The run in which calls are answered as listed; `none` when the list does not fit. -/
def play (M : Machine κ σ ι ρ ε) (who : κ) : Prog ι ρ ε α → σ → List (Answer ε) → Option (α × σ)
  | done a, s, [] => some (a, s)
  | done _, _, _ :: _ => none
  | call _ _, _, [] => none
  | call i k, s, c :: cs => (k (M.answer who i s c).1).play M who (M.answer who i s c).2 cs

lemma runs_of_play {p : Prog ι ρ ε α} {s t : σ} {cs : List (Answer ε)} {a : α}
    (h : p.play M who s cs = some (a, t)) : Runs M who p s a t := by
  induction p generalizing s cs with
  | done b =>
    cases cs with
    | nil =>
      cases h
      exact .done _ _
    | cons c cs => exact nomatch h
  | call i k ih =>
    cases cs with
    | nil => exact nomatch h
    | cons c cs => exact .call c rfl (ih _ h)

/-- A program that follows the protocol of the machine ends only where it promised. -/
theorem Runs.of_follows {p : Prog ι ρ ε α} {s t : σ} {Q : α → σ → Prop} {a : α}
    (hr : Runs M who p s a t) (h : p.Follows (M.protocol who) Q s) : Q a t := by
  induction hr with
  | done a s => exact h
  | call c hc _ ih => exact ih (h.2 _ _ ⟨c, hc⟩)

end Prog

namespace Prog

/-- Under the protocol, the program ends with `a` in the ghost state `g'`. -/
inductive Ends (P : Protocol γ ι ρ ε) : Prog ι ρ ε α → γ → α → γ → Prop
  | done (a : α) (g : γ) : Ends P (.done a) g a g
  | call {i : ι} {k : Except ε (ρ i) → Prog ι ρ ε α} {g u : γ} {r : Except ε (ρ i)} {a : α}
      {g' : γ} (h : P.next g i r u) (hk : Ends P (k r) u a g') : Ends P (.call i k) g a g'

/-- A run in which a machine serves every call, as a protocol allows, ends as the protocol says. -/
theorem ends_of_play {P : Protocol σ ι ρ ε}
    (hnext : ∀ s i, P.next s i (M.exec who i s).1 (M.exec who i s).2) {p : Prog ι ρ ε α} {s t : σ}
    {n : ℕ} {a : α} (h : p.play M who s (List.replicate n .served) = some (a, t)) :
    Ends P p s a t := by
  induction p generalizing s n with
  | done b =>
    cases n with
    | zero =>
      cases h
      exact .done _ _
    | succ n => exact nomatch h
  | call i k ih =>
    cases n with
    | zero => exact nomatch h
    | succ n => exact .call (hnext s i) (ih _ h)

/-- A program that keeps to a protocol ends only where it promised. -/
theorem Ends.of_follows {P : Protocol γ ι ρ ε} {p : Prog ι ρ ε α} {g g' : γ} {Q : α → γ → Prop}
    {a : α} (hr : Ends P p g a g') (h : p.Follows P Q g) : Q a g' := by
  induction hr with
  | done a g => exact h
  | call hn _ ih => exact ih (h.2 _ _ hn)

end Prog

/-! ## Runs in which no call fails -/

/-- The protocol of a machine that serves every call. -/
def Machine.served (M : Machine κ σ ι ρ ε) (who : κ) : Protocol σ ι ρ ε where
  may _ _ := True
  next s i r t := M.exec who i s = (r, t)

namespace Prog

/-- The run in which every call is served. -/
def serve (M : Machine κ σ ι ρ ε) (who : κ) : Prog ι ρ ε α → σ → α × σ
  | done a, s => (a, s)
  | call i k, s => (k (M.exec who i s).1).serve M who (M.exec who i s).2

/-- The run in which a machine serves every call, where a protocol allows it. -/
theorem ends_of_serve {P : Protocol σ ι ρ ε}
    (hnext : ∀ s i, P.next s i (M.exec who i s).1 (M.exec who i s).2) (p : Prog ι ρ ε α) (s : σ) :
    Ends P p s (p.serve M who s).1 (p.serve M who s).2 := by
  induction p generalizing s with
  | done a => exact .done a s
  | call i k ih => exact .call (hnext s i) (ih _ _)

theorem serve_of_follows {p : Prog ι ρ ε α} {s : σ} {Q : α → σ → Prop}
    (h : p.Follows (M.served who) Q s) : Q (p.serve M who s).1 (p.serve M who s).2 := by
  induction p generalizing s with
  | done a => exact h
  | call i k ih => exact ih _ (h.2 _ _ rfl)

end Prog

/-! ## Runs in which at most one call fails -/

/-- A call that was not served, and the state it was made in. -/
structure Incident (σ ι ε : Type) where
  state : σ
  call : ι
  answer : Answer ε

/-- The protocol of a machine on which at most one call is not served; the ghost state keeps the
incident. -/
def Machine.once (M : Machine κ σ ι ρ ε) (who : κ) :
    Protocol (σ × Option (Incident σ ι ε)) ι ρ ε where
  may _ _ := True
  next g i r g' :=
    (M.answer who i g.1 .served = (r, g'.1) ∧ g'.2 = g.2) ∨
    (g.2 = none ∧ ∃ c, c ≠ .served ∧ M.answer who i g.1 c = (r, g'.1) ∧
      g'.2 = some ⟨g.1, i, c⟩)

namespace Prog

/-- The run in which calls are answered as listed, at most one of them not served. -/
def playOnce (M : Machine κ σ ι ρ ε) (who : κ) : Prog ι ρ ε α → σ × Option (Incident σ ι ε) →
    List (Answer ε) → Option (α × (σ × Option (Incident σ ι ε)))
  | done a, g, [] => some (a, g)
  | done _, _, _ :: _ => none
  | call _ _, _, [] => none
  | call i k, g, c :: cs =>
    let u := M.answer who i g.1 c
    match c, g.2 with
    | .served, f => (k u.1).playOnce M who (u.2, f) cs
    | c, none => (k u.1).playOnce M who (u.2, some ⟨g.1, i, c⟩) cs
    | _, some _ => none

lemma ends_of_playOnce {p : Prog ι ρ ε α} {g g' : σ × Option (Incident σ ι ε)}
    {cs : List (Answer ε)} {a : α} (h : p.playOnce M who g cs = some (a, g')) :
    Ends (M.once who) p g a g' := by
  induction p generalizing g cs with
  | done b =>
    cases cs with
    | nil =>
      cases h
      exact .done _ _
    | cons c cs => exact nomatch h
  | call i k ih =>
    cases cs with
    | nil => exact nomatch h
    | cons c cs =>
      obtain ⟨s, f⟩ := g
      cases c with
      | served =>
        refine .call (u := ((M.answer who i s .served).2, f)) (.inl ⟨rfl, rfl⟩) ?_
        exact ih (M.answer who i s .served).1 h
      | raised e =>
        cases f with
        | none =>
          refine .call (u := (s, some ⟨s, i, .raised e⟩))
            (.inr ⟨rfl, .raised e, nofun, rfl, rfl⟩) ?_
          exact ih (.error e) h
        | some x => exact nomatch h
      | lost e =>
        cases f with
        | none =>
          refine .call (u := ((M.answer who i s (.lost e)).2, some ⟨s, i, .lost e⟩))
            (.inr ⟨rfl, .lost e, nofun, rfl, rfl⟩) ?_
          exact ih (.error e) h
        | some x => exact nomatch h

end Prog

/-! ## Pools -/

/-- A machine with the programs that can be started on it, and what can happen to the shared
state beside them. -/
structure System (κ σ ι : Type) (ρ : ι → Type) (ε π η : Type) extends Machine κ σ ι ρ ε where
  code : π → Prog ι ρ ε PUnit
  outside : η → σ → σ

/-- A move of a pool. -/
inductive Move (κ ε π η : Type)
  | start (who : κ) (p : π)
  | turn (who : κ) (c : Answer ε)
  | outside (x : η)

/-- The shared state and the programs that were started on it. -/
structure Pool (κ σ ι : Type) (ρ : ι → Type) (ε : Type) where
  shared : σ
  procs : κ → Option (Prog ι ρ ε PUnit) := fun _ => none

namespace System

variable {π η : Type} [DecidableEq κ]

/-- One move; a move that cannot be made changes nothing. -/
def step (S : System κ σ ι ρ ε π η) (w : Pool κ σ ι ρ ε) :
    Move κ ε π η → Pool κ σ ι ρ ε
  | .start who p =>
    match w.procs who with
    | none => { w with procs := Function.update w.procs who (some (S.code p)) }
    | some _ => w
  | .turn who c =>
    match w.procs who with
    | some (.call i k) =>
      let a := S.answer who i w.shared c
      { shared := a.2, procs := Function.update w.procs who (some (k a.1)) }
    | _ => w
  | .outside x => { w with shared := S.outside x w.shared }

/-- The call that a move answers, and how. -/
def calls (w : Pool κ σ ι ρ ε) : Move κ ε π η → Option (κ × ι × Answer ε)
  | .turn who c =>
    match w.procs who with
    | some (.call i _) => some (who, i, c)
    | _ => none
  | _ => none

variable {S : System κ σ ι ρ ε π η} {w : Pool κ σ ι ρ ε}

/-- What a move does to the shared state: it answers a call, lets something happen beside the
programs, or leaves the state alone. -/
lemma shared_step (m : Move κ ε π η) :
    (∃ who i c, calls w m = some (who, i, c) ∧
      (S.step w m).shared = (S.answer who i w.shared c).2) ∨
    (∃ x, m = .outside x ∧ (S.step w m).shared = S.outside x w.shared) ∨
    (S.step w m).shared = w.shared := by
  cases m with
  | start who p =>
    refine .inr (.inr ?_)
    cases hp : w.procs who <;> simp [step, hp]
  | turn who c =>
    cases hp : w.procs who with
    | none => exact .inr (.inr (by simp [step, hp]))
    | some p =>
      cases p with
      | done a => exact .inr (.inr (by simp [step, hp]))
      | call i k => exact .inl ⟨who, i, c, by simp [calls, hp], by simp [step, hp]⟩
  | outside x => exact .inr (.inl ⟨x, rfl, rfl⟩)

/-- A property of the shared state that every answered call and every outside event keeps is kept
by every move. -/
theorem shared_invariant {I : σ → Prop} {m : Move κ ε π η}
    (hcall : ∀ who i c, calls w m = some (who, i, c) → I w.shared →
      I (S.answer who i w.shared c).2)
    (hout : ∀ x, m = .outside x → I w.shared → I (S.outside x w.shared)) (h : I w.shared) :
    I (S.step w m).shared := by
  rcases shared_step (S := S) (w := w) m with ⟨who, i, c, hc, he⟩ | ⟨x, hx, he⟩ | he
  · rw [he]
    exact hcall who i c hc h
  · rw [he]
    exact hout x hx h
  · rw [he]
    exact h

/-- Every program of the pool keeps to the protocol from its own ghost state, and the ghost states
agree with the shared state. -/
def Kept (P : Protocol γ ι ρ ε) (g₀ : γ) (J : σ → (κ → γ) → Prop) (w : Pool κ σ ι ρ ε) : Prop :=
  ∃ g : κ → γ, J w.shared g ∧
    ∀ who, (w.procs who).elim (g who = g₀) fun p => p.Follows P (fun _ _ => True) (g who)

omit [DecidableEq κ] in
/-- The call of a move is one that the protocol admits to its program. -/
lemma may_of_calls {P : Protocol γ ι ρ ε} {g₀ : γ} {g : κ → γ} {m : Move κ ε π η}
    (hp : ∀ who, (w.procs who).elim (g who = g₀) fun p => p.Follows P (fun _ _ => True) (g who))
    {who : κ} {i : ι} {c : Answer ε} (h : calls w m = some (who, i, c)) : P.may (g who) i := by
  cases m with
  | start who' p => exact nomatch h
  | outside x => exact nomatch h
  | turn who' c' =>
    cases hw : w.procs who' with
    | none => simp [calls, hw] at h
    | some p =>
      cases p with
      | done a => simp [calls, hw] at h
      | call i' k =>
        simp only [calls, hw, Option.some.injEq, Prod.mk.injEq] at h
        obtain ⟨rfl, rfl, rfl⟩ := h
        have hfollows := hp who'
        rw [hw] at hfollows
        exact hfollows.1

/-- The invariant of a pool from what each program keeps to: an admitted call leads to ghost
states that agree again. -/
theorem follows_step {P : Protocol γ ι ρ ε} {g₀ : γ} {J : σ → (κ → γ) → Prop}
    {m : Move κ ε π η}
    (hcode : ∀ p, (S.code p).Follows P (fun _ _ => True) g₀)
    (hcall : ∀ g who i c, calls w m = some (who, i, c) → J w.shared g → P.may (g who) i →
      ∃ g', P.next (g who) i (S.answer who i w.shared c).1 g' ∧
        J (S.answer who i w.shared c).2 (Function.update g who g'))
    (hout : ∀ g x, m = .outside x → J w.shared g → J (S.outside x w.shared) g)
    (h : Kept P g₀ J w) : Kept P g₀ J (S.step w m) := by
  have hkept := h
  obtain ⟨g, hJ, hp⟩ := h
  cases m with
  | start who p =>
    cases hw : w.procs who with
    | some q => simpa only [step, hw] using hkept
    | none =>
      have hstep : S.step w (.start who p) =
          { w with procs := Function.update w.procs who (some (S.code p)) } := by
        simp [step, hw]
      rw [hstep]
      refine ⟨g, hJ, fun x => ?_⟩
      by_cases hx : x = who
      · subst hx
        have hstart := hp x
        rw [hw] at hstart
        have hg : g x = g₀ := hstart
        simpa [hg] using hcode p
      · simpa [Function.update_of_ne hx] using hp x
  | turn who c =>
    cases hw : w.procs who with
    | none => simpa only [step, hw] using hkept
    | some q =>
      cases q with
      | done a => simpa only [step, hw] using hkept
      | call i k =>
        have hq := hp who
        rw [hw] at hq
        have hq : P.may (g who) i ∧ ∀ r g', P.next (g who) i r g' →
            (k r).Follows P (fun _ _ => True) g' := hq
        obtain ⟨g', hn, hJ'⟩ := hcall g who i c (by simp [calls, hw]) hJ hq.1
        have hk := hq.2 _ _ hn
        have hstep : S.step w (.turn who c) =
            { shared := (S.answer who i w.shared c).2
              procs := Function.update w.procs who (some (k (S.answer who i w.shared c).1)) } := by
          simp [step, hw]
        rw [hstep]
        refine ⟨Function.update g who g', hJ', fun x => ?_⟩
        by_cases hx : x = who
        · subst hx
          simpa using hk
        · simpa [Function.update_of_ne hx] using hp x
  | outside x => exact ⟨g, hout g x rfl hJ, hp⟩

end System

/-! ## Code with local variables and exceptions -/

/-- Code with the local variables `L` that may raise. -/
abbrev Routine (L ι : Type) (ρ : ι → Type) (ε α : Type) := ExceptT ε (StateT L (Prog ι ρ ε)) α

namespace Routine

variable {L : Type}

/-- Call an operation. -/
def perform (i : ι) : Routine L ι ρ ε (ρ i) := fun l => .call i fun r => .done (r, l)

/-- The program that runs the code from the given values of its variables. -/
def prog (x : Routine L ι ρ ε α) (l : L) : Prog ι ρ ε (Except ε α × L) := x l

/-- Run code with variables of its own. -/
def withLocals {L' : Type} (x : Routine L ι ρ ε α) (l : L) : Routine L' ι ρ ε α :=
  fun l' => (x.prog l).bind fun r => .done (r.1, l')

/-- From `l` and `g`, the code keeps to the protocol; it returns where `Q` holds and raises where
`E` holds. -/
def Meets (P : Protocol γ ι ρ ε) (x : Routine L ι ρ ε α) (Q : α → L → γ → Prop)
    (E : ε → L → γ → Prop) (l : L) (g : γ) : Prop :=
  (x.prog l).Follows P
    (fun r g' => match r.1 with
      | .ok a => Q a r.2 g'
      | .error e => E e r.2 g') g

variable {P : Protocol γ ι ρ ε} {Q : α → L → γ → Prop} {E : ε → L → γ → Prop} {l : L} {g : γ}

@[simp] lemma meets_pure {a : α} : Meets P (pure a) Q E l g ↔ Q a l g := Iff.rfl

@[simp] lemma meets_throw {e : ε} :
    Meets P (throw e : Routine L ι ρ ε α) Q E l g ↔ E e l g := Iff.rfl

@[simp] lemma meets_perform {i : ι} {Q : ρ i → L → γ → Prop} :
    Meets P (perform i) Q E l g ↔ P.may g i ∧ ∀ r g', P.next g i r g' →
      match r with
      | .ok a => Q a l g'
      | .error e => E e l g' := by
  refine and_congr Iff.rfl (forall_congr' fun r => ?_)
  cases r <;> exact Iff.rfl

@[simp] lemma meets_bind {x : Routine L ι ρ ε α} {f : α → Routine L ι ρ ε β}
    {Q : β → L → γ → Prop} :
    Meets P (x >>= f) Q E l g ↔ Meets P x (fun a l g => Meets P (f a) Q E l g) E l g := by
  refine Iff.trans Prog.follows_bind ?_
  apply iff_of_eq
  congr 1
  funext r g'
  obtain ⟨r, l'⟩ := r
  cases r with
  | ok a => rfl
  | error e => rfl

/-- A call, and what follows it. -/
lemma meets_perform_bind {i : ι} {f : ρ i → Routine L ι ρ ε β} {Q : β → L → γ → Prop}
    (hmay : P.may g i) (herr : ∀ e g', P.next g i (.error e) g' → E e l g')
    (hok : ∀ a g', P.next g i (.ok a) g' → Meets P (f a) Q E l g') :
    Meets P (perform i >>= f) Q E l g := by
  rw [meets_bind, meets_perform]
  refine ⟨hmay, fun r g' hn => ?_⟩
  cases r with
  | ok a => exact hok a g' hn
  | error e => exact herr e g' hn

@[simp] lemma meets_tryCatch {x : Routine L ι ρ ε α} {h : ε → Routine L ι ρ ε α} :
    Meets P (tryCatch x h) Q E l g ↔
      Meets P x Q (fun e l g => Meets P (h e) Q E l g) l g := by
  refine Iff.trans Prog.follows_bind ?_
  apply iff_of_eq
  congr 1
  funext r g'
  obtain ⟨r, l'⟩ := r
  cases r with
  | ok a => rfl
  | error e => rfl

@[simp] lemma meets_get {Q : L → L → γ → Prop} :
    Meets P (get : Routine L ι ρ ε L) Q E l g ↔ Q l l g := Iff.rfl

@[simp] lemma meets_modify {f : L → L} {Q : PUnit → L → γ → Prop} :
    Meets P (modify f : Routine L ι ρ ε PUnit) Q E l g ↔ Q ⟨⟩ (f l) g := Iff.rfl

@[simp] lemma meets_withLocals {L' : Type} {x : Routine L ι ρ ε α} {l' : L'}
    {Q : α → L' → γ → Prop} {E : ε → L' → γ → Prop} :
    Meets P (x.withLocals l) Q E l' g ↔
      Meets P x (fun a _ g => Q a l' g) (fun e _ g => E e l' g) l g := by
  refine Iff.trans Prog.follows_bind ?_
  exact Iff.rfl

lemma Meets.mono {x : Routine L ι ρ ε α} {Q' : α → L → γ → Prop} {E' : ε → L → γ → Prop}
    (h : Meets P x Q E l g) (hQ : ∀ a l g, Q a l g → Q' a l g)
    (hE : ∀ e l g, E e l g → E' e l g) : Meets P x Q' E' l g := by
  refine Prog.Follows.mono h fun r g' => ?_
  obtain ⟨r, l'⟩ := r
  cases r with
  | ok a => exact hQ a l' g'
  | error e => exact hE e l' g'

/-- Code that meets a specification under the protocol of a machine ends only where it says. -/
theorem Meets.sound {who : κ} {M : Machine κ γ ι ρ ε} {x : Routine L ι ρ ε α} {t : γ}
    {r : Except ε α × L} (h : Meets (M.protocol who) x Q E l g)
    (hr : Prog.Runs M who (x.prog l) g r t) :
    match r.1 with
    | .ok a => Q a r.2 t
    | .error e => E e r.2 t :=
  hr.of_follows h

/-- A property of the state that holds however the code ends. -/
theorem Meets.holds {who : κ} {M : Machine κ γ ι ρ ε} {x : Routine L ι ρ ε α} {t : γ}
    {r : Except ε α × L} {R : γ → Prop}
    (h : Meets (M.protocol who) x (fun _ _ t => R t) (fun _ _ t => R t) l g)
    (hr : Prog.Runs M who (x.prog l) g r t) : R t := by
  have hend := h.sound hr
  obtain ⟨r, l'⟩ := r
  cases r with
  | ok a => exact hend
  | error e => exact hend

/-- `try … finally`: the second part runs however the first ends, and what it raises is raised
instead. -/
def ensure (x : Routine L ι ρ ε α) (y : Routine L ι ρ ε PUnit) : Routine L ι ρ ε α := do
  let r ← tryCatch (x >>= fun a => pure (Except.ok a)) fun e => pure (Except.error e)
  y
  match r with
  | .ok a => pure a
  | .error e => throw e

@[simp] lemma meets_ensure {x : Routine L ι ρ ε α} {y : Routine L ι ρ ε PUnit} :
    Meets P (x.ensure y) Q E l g ↔
      Meets P x (fun a l g => Meets P y (fun _ l g => Q a l g) E l g)
        (fun e l g => Meets P y (fun _ l g => E e l g) E l g) l g := by
  simp only [ensure, meets_bind, meets_tryCatch, meets_pure, meets_throw]

/-! ### What code keeps -/

/-- The code keeps to the protocol, and keeps `I`, however it ends. -/
def Keeps (P : Protocol γ ι ρ ε) (I : L → γ → Prop) (x : Routine L ι ρ ε α) : Prop :=
  ∀ l g, I l g → Meets P x (fun _ l' g' => I l' g') (fun _ l' g' => I l' g') l g

variable {I : L → γ → Prop}

lemma keeps_pure {a : α} : Keeps P I (pure a) := fun _ _ h => h

lemma keeps_throw {e : ε} : Keeps P I (throw e : Routine L ι ρ ε α) := fun _ _ h => h

lemma keeps_get : Keeps P I (get : Routine L ι ρ ε L) := fun _ _ h => h

lemma keeps_modify {f : L → L} (hf : ∀ l g, I l g → I (f l) g) :
    Keeps P I (modify f : Routine L ι ρ ε PUnit) := fun l g h => hf l g h

lemma keeps_perform {i : ι}
    (h : ∀ l g, I l g → P.may g i ∧ ∀ r g', P.next g i r g' → I l g') :
    Keeps P I (perform i) := by
  intro l g hI
  rw [meets_perform]
  refine ⟨(h l g hI).1, fun r g' hn => ?_⟩
  cases r with
  | ok a => exact (h l g hI).2 _ g' hn
  | error e => exact (h l g hI).2 _ g' hn

lemma keeps_bind {x : Routine L ι ρ ε α} {f : α → Routine L ι ρ ε β} (hx : Keeps P I x)
    (hf : ∀ a, Keeps P I (f a)) : Keeps P I (x >>= f) := by
  intro l g hI
  rw [meets_bind]
  exact (hx l g hI).mono (fun a l' g' h => hf a l' g' h) fun _ _ _ h => h

lemma Keeps.and {J : L → γ → Prop} {x : Routine L ι ρ ε α} (hI : Keeps P I x) (hJ : Keeps P J x) :
    Keeps P (fun l g => I l g ∧ J l g) x := by
  intro l g h
  refine Prog.Follows.mono (Prog.Follows.and (hI l g h.1) (hJ l g h.2)) fun r g' hr => ?_
  obtain ⟨r, l'⟩ := r
  cases r with
  | ok a => exact hr
  | error e => exact hr

/-- Code that keeps `I`, before code that starts from it. -/
lemma Keeps.meets_bind {x : Routine L ι ρ ε α} {f : α → Routine L ι ρ ε β} {Q : β → L → γ → Prop}
    (hx : Keeps P I x) (h : I l g) (hE : ∀ e l g, I l g → E e l g)
    (hf : ∀ a l g, I l g → Meets P (f a) Q E l g) : Meets P (x >>= f) Q E l g := by
  rw [Routine.meets_bind]
  exact (hx l g h).mono hf hE

lemma keeps_tryCatch {x : Routine L ι ρ ε α} {h : ε → Routine L ι ρ ε α} (hx : Keeps P I x)
    (hh : ∀ e, Keeps P I (h e)) : Keeps P I (tryCatch x h) := by
  intro l g hI
  rw [meets_tryCatch]
  exact (hx l g hI).mono (fun _ _ _ h => h) fun e l' g' hI' => hh e l' g' hI'

lemma keeps_ensure {x : Routine L ι ρ ε α} {y : Routine L ι ρ ε PUnit} (hx : Keeps P I x)
    (hy : Keeps P I y) : Keeps P I (x.ensure y) := by
  intro l g hI
  rw [meets_ensure]
  exact (hx l g hI).mono (fun _ l' g' h => hy l' g' h) fun _ l' g' h => hy l' g' h

lemma keeps_ite {c : Prop} [Decidable c] {x y : Routine L ι ρ ε α} (hx : Keeps P I x)
    (hy : Keeps P I y) : Keeps P I (if c then x else y) := by
  split
  · exact hx
  · exact hy

/-- A statement that is run under a condition, and what follows it. -/
lemma keeps_when {c : Prop} [Decidable c] {x : Routine L ι ρ ε PUnit}
    {f : PUnit → Routine L ι ρ ε β} (hx : Keeps P I x) (hf : ∀ a, Keeps P I (f a)) :
    Keeps P I (if c then x >>= f else f ⟨⟩) :=
  keeps_ite (keeps_bind hx hf) (hf ⟨⟩)

lemma keeps_unless {c : Prop} [Decidable c] {x : Routine L ι ρ ε PUnit}
    {f : PUnit → Routine L ι ρ ε β} (hx : Keeps P I x) (hf : ∀ a, Keeps P I (f a)) :
    Keeps P I (if c then f ⟨⟩ else x >>= f) :=
  keeps_ite (hf ⟨⟩) (keeps_bind hx hf)

/-- A value that is computed in one way or another, and what follows it. -/
lemma keeps_either {c : Prop} [Decidable c] {x y : Routine L ι ρ ε α} {f : α → Routine L ι ρ ε β}
    (hx : Keeps P I x) (hy : Keeps P I y) (hf : ∀ a, Keeps P I (f a)) :
    Keeps P I (if c then x >>= f else y >>= f) :=
  keeps_ite (keeps_bind hx hf) (keeps_bind hy hf)

end Routine
