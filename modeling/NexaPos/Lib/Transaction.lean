import Mathlib.Order.Defs.Unbundled
import Mathlib.Tactic.Common

/-!
# Transactions over an explicit state

A transaction either fails, or returns a value together with the state it leaves behind; a
failure carries no state, so whatever was written before it is rolled back.  `Tx σ ε α` is the
state monad over `Except` with that reading, `Runs m s a t` says that `m` started in `s` returns
`a` and leaves `t`, and the `runs_*` simp set turns a successful run of a composed program into
the successful runs of its parts.

Nested transactions are savepoints: `attempt m` runs `m` and, when it fails, goes on in the
state `m` started from with the error as a value.  `commit m` is the effect of a whole
transaction on the database: the state `m` leaves, or the old state when `m` fails.

Two rules of reasoning are proved once and used by every program built from these pieces.

* `Within R m` says that every successful run of `m` moves the state along the preorder `R`.
  Invariants (`Keeps`), frames (`fun s t => f t = f s`) and append-only growth are all such
  relations, and they compose through binds, loops and savepoints by the same lemmas.
* `Trace.invariant` and its guarded form carry a property through a sequence of operations of
  any length, with a side condition on the state before each step when one is needed.
-/

universe u v

/-- A computation that reads and writes a state and either fails or returns a value. -/
abbrev Tx (σ ε α : Type u) := StateT σ (Except ε) α

namespace Tx

variable {σ ε α β γ : Type u}

/-! ## Building blocks -/

/-- Evaluate a read-only computation on the current state. -/
def reads (f : σ → Except ε α) : Tx σ ε α := fun s => (f s).map fun a => (a, s)

/-- Go on only when the condition holds. -/
def check (b : Bool) (e : ε) : Tx σ ε PUnit := if b then pure ⟨⟩ else throw e

/-- Run `m` inside a savepoint: a failure is returned as a value and its writes are undone. -/
def attempt (m : Tx σ ε α) : Tx σ ε (Except ε α) := fun s =>
  match m.run s with
  | .ok (a, t) => .ok (.ok a, t)
  | .error e => .ok (.error e, s)

/-- The effect of a whole transaction: its final state, or the old state when it fails. -/
def commit (m : Tx σ ε α) (s : σ) : σ :=
  match m.run s with
  | .ok (_, t) => t
  | .error _ => s

/-! ## Successful runs -/

/-- `m` started in `s` returns `a` and leaves the state `t`. -/
def Runs (m : Tx σ ε α) (s : σ) (a : α) (t : σ) : Prop := m.run s = .ok (a, t)

@[simp] lemma runs_pure {a b : α} {s t : σ} :
    Runs (pure a : Tx σ ε α) s b t ↔ b = a ∧ t = s := by
  constructor
  · intro h
    cases h
    exact ⟨rfl, rfl⟩
  · rintro ⟨rfl, rfl⟩
    rfl

@[simp] lemma runs_throw {e : ε} {s t : σ} {a : α} :
    ¬ Runs (throw e : Tx σ ε α) s a t := by
  intro h
  exact nomatch (h : Except.error e = _)

@[simp] lemma runs_bind {m : Tx σ ε α} {f : α → Tx σ ε β} {s t : σ} {b : β} :
    Runs (m >>= f) s b t ↔ ∃ a u, Runs m s a u ∧ Runs (f a) u b t := by
  unfold Runs
  rw [StateT.run_bind]
  cases h : m.run s with
  | error e => simp [bind, Except.bind]
  | ok p =>
    obtain ⟨a, u⟩ := p
    simp [bind, Except.bind]

@[simp] lemma runs_get {s t a : σ} :
    Runs (get : Tx σ ε σ) s a t ↔ a = s ∧ t = s := by
  constructor
  · intro h
    cases h
    exact ⟨rfl, rfl⟩
  · rintro ⟨rfl, rfl⟩
    rfl

@[simp] lemma runs_modify {f : σ → σ} {s t : σ} {a : PUnit} :
    Runs (modify f : Tx σ ε PUnit) s a t ↔ t = f s := by
  constructor
  · intro h
    cases h
    rfl
  · rintro rfl
    rfl

@[simp] lemma runs_reads {f : σ → Except ε α} {s t : σ} {a : α} :
    Runs (reads f) s a t ↔ f s = .ok a ∧ t = s := by
  change (f s).map (fun a => (a, s)) = .ok (a, t) ↔ _
  cases f s with
  | error e => simp [Except.map]
  | ok b => simp [Except.map, eq_comm]

@[simp] lemma runs_check {b : Bool} {e : ε} {s t : σ} {a : PUnit} :
    Runs (check b e) s a t ↔ b = true ∧ t = s := by
  unfold check
  cases b <;> simp

lemma runs_ite {c : Prop} [Decidable c] {m n : Tx σ ε α} {s t : σ} {a : α} :
    Runs (if c then m else n) s a t ↔ (c ∧ Runs m s a t) ∨ (¬ c ∧ Runs n s a t) := by
  by_cases h : c <;> simp [h]

/-- A savepoint either keeps the writes of its body or none of them. -/
lemma runs_attempt {m : Tx σ ε α} {s t : σ} {r : Except ε α} :
    Runs (attempt m) s r t ↔
      (∃ a, r = .ok a ∧ Runs m s a t) ∨ (∃ e, r = .error e ∧ m.run s = .error e ∧ t = s) := by
  change (match m.run s with
    | .ok (a, t) => Except.ok (Except.ok a, t)
    | .error e => Except.ok (Except.error e, s)) = Except.ok (r, t) ↔ _
  unfold Runs
  cases m.run s with
  | error e => simp [eq_comm]
  | ok p =>
    obtain ⟨a, u⟩ := p
    constructor
    · intro h
      cases h
      exact .inl ⟨a, rfl, rfl⟩
    · rintro (⟨b, rfl, hb⟩ | ⟨e, -, he, -⟩)
      · cases hb
        rfl
      · cases he

lemma runs_forM_nil {f : γ → Tx σ ε PUnit} {s t : σ} {a : PUnit} :
    Runs (([] : List γ).forM f) s a t ↔ t = s := by
  change Runs (pure ⟨⟩) s a t ↔ _
  simp

lemma runs_forM_cons {f : γ → Tx σ ε PUnit} {x : γ} {l : List γ} {s t : σ} {a : PUnit} :
    Runs ((x :: l).forM f) s a t ↔ ∃ u, Runs (f x) s ⟨⟩ u ∧ Runs (l.forM f) u ⟨⟩ t := by
  change Runs (f x >>= fun _ => l.forM f) s a t ↔ _
  rw [runs_bind]
  exact ⟨fun ⟨_, u, h₁, h₂⟩ => ⟨u, h₁, h₂⟩, fun ⟨u, h₁, h₂⟩ => ⟨_, u, h₁, h₂⟩⟩

lemma runs_foldlM_nil {f : β → γ → Tx σ ε β} {b c : β} {s t : σ} :
    Runs (([] : List γ).foldlM f b) s c t ↔ c = b ∧ t = s := by
  simp [List.foldlM_nil]

lemma runs_foldlM_cons {f : β → γ → Tx σ ε β} {x : γ} {l : List γ} {b c : β} {s t : σ} :
    Runs ((x :: l).foldlM f b) s c t ↔
      ∃ d u, Runs (f b x) s d u ∧ Runs (l.foldlM f d) u c t := by
  rw [List.foldlM_cons, runs_bind]

/-- A loop invariant over the part of the list that is done: an iteration extends that part by
its own element. -/
lemma runs_foldlM_induct {I : List γ → β → σ → Prop} {f : β → γ → Tx σ ε β} {l : List γ}
    (hstep : ∀ done x b s d u, x ∈ l → Runs (f b x) s d u → I done b s → I (done ++ [x]) d u)
    {b c : β} {s t : σ} (h : Runs (l.foldlM f b) s c t) (hI : I [] b s) : I l c t := by
  suffices hrest : ∀ (rest done : List γ) (b : β) (s : σ), (∀ x ∈ rest, x ∈ l) →
      Runs (rest.foldlM f b) s c t → I done b s → I (done ++ rest) c t from
    hrest l [] b s (fun _ hx => hx) h hI
  intro rest
  induction rest with
  | nil =>
    intro done b s _ h hI
    obtain ⟨rfl, rfl⟩ := runs_foldlM_nil.mp h
    rwa [List.append_nil]
  | cons x rest ih =>
    intro done b s hmem h hI
    obtain ⟨d, u, h₁, h₂⟩ := runs_foldlM_cons.mp h
    have hnext := hstep done x b s d u (hmem x List.mem_cons_self) h₁ hI
    have hdone := ih (done ++ [x]) d u (fun y hy => hmem y (List.mem_cons_of_mem x hy)) h₂ hnext
    rwa [List.append_assoc, List.singleton_append] at hdone

/-- A transaction that succeeds commits the state it leaves. -/
lemma commit_of_runs {m : Tx σ ε α} {s t : σ} {a : α} (h : Runs m s a t) : commit m s = t := by
  unfold Runs at h
  simp [commit, h]

/-- A transaction that fails commits nothing. -/
lemma commit_of_error {m : Tx σ ε α} {s : σ} {e : ε} (h : m.run s = .error e) :
    commit m s = s := by
  simp [commit, h]

/-- A transaction that does not fail commits the state it leaves. -/
lemma runs_commit {m : Tx σ ε α} {s : σ} (h : (m.run s).isOk = true) :
    ∃ a, Runs m s a (commit m s) := by
  cases hrun : m.run s with
  | error e =>
    rw [hrun] at h
    exact absurd h Bool.false_ne_true
  | ok p =>
    obtain ⟨a, t⟩ := p
    refine ⟨a, ?_⟩
    rw [commit_of_runs (show Runs m s a t from hrun)]
    exact hrun

/-- The committed state is the old one or that of a successful run. -/
lemma commit_cases (m : Tx σ ε α) (s : σ) :
    commit m s = s ∨ ∃ a, Runs m s a (commit m s) := by
  cases h : m.run s with
  | error e => exact .inl (commit_of_error h)
  | ok p =>
    obtain ⟨a, t⟩ := p
    refine .inr ⟨a, ?_⟩
    rw [commit_of_runs (show Runs m s a t from h)]
    exact h

/-! ## Relations every run respects -/

/-- Every successful run of `m` relates the state it starts in to the state it leaves. -/
def Within (R : σ → σ → Prop) (m : Tx σ ε α) : Prop := ∀ ⦃s a t⦄, Runs m s a t → R s t

section Within

variable {R : σ → σ → Prop} [IsPreorder σ R]

lemma within_pure {a : α} : Within R (pure a : Tx σ ε α) := by
  intro s b t h
  obtain ⟨-, rfl⟩ := runs_pure.mp h
  exact refl t

omit [IsPreorder σ R] in
lemma within_throw {e : ε} : Within R (throw e : Tx σ ε α) := fun _ _ _ h => (runs_throw h).elim

lemma within_get : Within R (get : Tx σ ε σ) := by
  intro s b t h
  obtain ⟨-, rfl⟩ := runs_get.mp h
  exact refl t

lemma within_reads {f : σ → Except ε α} : Within R (reads f) := by
  intro s b t h
  obtain ⟨-, rfl⟩ := runs_reads.mp h
  exact refl t

lemma within_check {b : Bool} {e : ε} : Within R (check b e) := by
  intro s a t h
  obtain ⟨-, rfl⟩ := runs_check.mp h
  exact refl t

omit [IsPreorder σ R] in
lemma within_modify {f : σ → σ} (h : ∀ s, R s (f s)) :
    Within R (modify f : Tx σ ε PUnit) := by
  intro s a t hr
  rw [runs_modify.mp hr]
  exact h s

lemma within_bind {m : Tx σ ε α} {f : α → Tx σ ε β} (hm : Within R m)
    (hf : ∀ a, Within R (f a)) : Within R (m >>= f) := by
  intro s b t h
  obtain ⟨a, u, h₁, h₂⟩ := runs_bind.mp h
  exact IsTrans.trans _ _ _ (hm h₁) (hf a h₂)

omit [IsPreorder σ R] in
lemma within_ite {c : Prop} [Decidable c] {m n : Tx σ ε α} (hm : c → Within R m)
    (hn : ¬ c → Within R n) : Within R (if c then m else n) := by
  by_cases h : c
  · simpa [h] using hm h
  · simpa [h] using hn h

lemma within_forM {f : γ → Tx σ ε PUnit} {l : List γ} (h : ∀ x ∈ l, Within R (f x)) :
    Within R (l.forM f) := by
  induction l with
  | nil => exact within_pure
  | cons x l ih =>
    refine within_bind (h x List.mem_cons_self) fun _ => ih fun y hy => ?_
    exact h y (List.mem_cons_of_mem x hy)

lemma within_foldlM {f : β → γ → Tx σ ε β} (h : ∀ b x, Within R (f b x)) (l : List γ) (b : β) :
    Within R (l.foldlM f b) := by
  induction l generalizing b with
  | nil => exact within_pure
  | cons x l ih =>
    rw [List.foldlM_cons]
    exact within_bind (h b x) fun c => ih c

/-- A savepoint respects whatever its body respects: a failed body leaves the state alone. -/
lemma within_attempt {m : Tx σ ε α} (h : Within R m) : Within R (attempt m) := by
  intro s r t hr
  rcases runs_attempt.mp hr with ⟨a, -, ha⟩ | ⟨e, -, -, rfl⟩
  · exact h ha
  · exact refl t

lemma within_commit {m : Tx σ ε α} (h : Within R m) (s : σ) : R s (commit m s) := by
  rcases commit_cases m s with he | ⟨a, ha⟩
  · rw [he]
    exact refl s
  · exact h ha

omit [IsPreorder σ R] in
lemma Within.mono {R' : σ → σ → Prop} {m : Tx σ ε α} (h : Within R m)
    (hR : ∀ s t, R s t → R' s t) : Within R' m := fun _ _ _ hr => hR _ _ (h hr)

end Within

/-! ## Invariants and frames -/

/-- The step relation of an invariant: where it held before, it holds after. -/
def Preserves (I : σ → Prop) (s t : σ) : Prop := I s → I t

instance (I : σ → Prop) : IsPreorder σ (Preserves I) where
  refl _ := id
  trans _ _ _ h₁ h₂ := h₂ ∘ h₁

/-- `m` keeps the invariant `I`. -/
abbrev Keeps (I : σ → Prop) (m : Tx σ ε α) : Prop := Within (Preserves I) m

/-- The step relation of a frame condition: the observation `f` of the state is unchanged. -/
def Frame {δ : Type v} (f : σ → δ) (s t : σ) : Prop := f t = f s

instance {δ : Type v} (f : σ → δ) : IsPreorder σ (Frame f) where
  refl _ := rfl
  trans _ _ _ h₁ h₂ := Eq.trans h₂ h₁

end Tx

/-! ## Sequences of operations -/

namespace Trace

variable {σ : Type u} {ι : Type v}

/-- The state after a sequence of operations. -/
def run (step : σ → ι → σ) (s : σ) (ops : List ι) : σ := ops.foldl step s

/-- Every operation of the sequence meets the condition in the state it starts from. -/
def All (step : σ → ι → σ) (ok : σ → ι → Prop) : σ → List ι → Prop
  | _, [] => True
  | s, op :: ops => ok s op ∧ All step ok (step s op) ops

/-- What the operations of a sequence yield, in order. -/
def collect {α : Type*} (step : σ → ι → σ) (yield : σ → ι → List α) : σ → List ι → List α
  | _, [] => []
  | s, op :: ops => yield s op ++ collect step yield (step s op) ops

variable {step : σ → ι → σ} {ok : σ → ι → Prop} {s : σ}

@[simp] lemma run_nil : run step s [] = s := rfl

@[simp] lemma run_cons (op : ι) (ops : List ι) :
    run step s (op :: ops) = run step (step s op) ops := rfl

lemma run_append (ops ops' : List ι) :
    run step s (ops ++ ops') = run step (run step s ops) ops' := List.foldl_append

@[simp] lemma all_nil : All step ok s [] := trivial

@[simp] lemma all_cons (op : ι) (ops : List ι) :
    All step ok s (op :: ops) ↔ ok s op ∧ All step ok (step s op) ops := Iff.rfl

instance decidableAll [∀ s op, Decidable (ok s op)] :
    ∀ (s : σ) (ops : List ι), Decidable (All step ok s ops)
  | _, [] => isTrue trivial
  | s, op :: ops => @instDecidableAnd _ _ _ (decidableAll (step s op) ops)

/-- A relation every step respects relates the two ends of every sequence. -/
theorem related {R : σ → σ → Prop} [IsPreorder σ R] (h : ∀ s op, R s (step s op)) (s : σ)
    (ops : List ι) : R s (run step s ops) := by
  induction ops generalizing s with
  | nil => exact refl s
  | cons op ops ih => exact IsTrans.trans _ _ _ (h s op) (ih (step s op))

/-- An invariant of every step holds after every sequence. -/
theorem invariant {I : σ → Prop} (h : ∀ s op, I s → I (step s op)) (hs : I s) (ops : List ι) :
    I (run step s ops) := by
  induction ops generalizing s with
  | nil => exact hs
  | cons op ops ih => exact ih (h s op hs)

/-- A relation between the state and what was yielded on the way to it, when every step extends
it, holds after every sequence. -/
theorem invariant_collect {α : Type*} {yield : σ → ι → List α} {I : σ → List α → Prop}
    (h : ∀ s op xs, I s xs → I (step s op) (xs ++ yield s op)) {xs : List α} (hs : I s xs)
    (ops : List ι) : I (run step s ops) (xs ++ collect step yield s ops) := by
  induction ops generalizing s xs with
  | nil =>
    rw [collect, List.append_nil]
    exact hs
  | cons op ops ih =>
    rw [collect, ← List.append_assoc]
    exact ih (h s op xs hs)

/-- What holds of everything that steps meeting a condition yield, holds of what a sequence of
them yields. -/
theorem forall_mem_collect {α : Type*} {yield : σ → ι → List α} {P : α → Prop}
    (h : ∀ s op, ok s op → ∀ x ∈ yield s op, P x) {ops : List ι} (hops : All step ok s ops) :
    ∀ x ∈ collect step yield s ops, P x := by
  induction ops generalizing s with
  | nil => exact fun x hx => (List.not_mem_nil hx).elim
  | cons op ops ih =>
    intro x hx
    rw [collect] at hx
    rcases List.mem_append.mp hx with hx | hx
    · exact h s op hops.1 x hx
    · exact ih hops.2 x hx

/-- An invariant of the steps that meet a condition holds after every sequence whose steps all
meet it. -/
theorem invariant_of_all {I : σ → Prop} (h : ∀ s op, ok s op → I s → I (step s op)) (hs : I s)
    {ops : List ι} (hops : All step ok s ops) : I (run step s ops) := by
  induction ops generalizing s with
  | nil => exact hs
  | cons op ops ih => exact ih (h s op hops.1 hs) hops.2

/-- Conditions that agree wherever an invariant of every step holds, agree along a sequence. -/
theorem all_congr {ok' : σ → ι → Prop} {I : σ → Prop} (hI : ∀ s op, I s → I (step s op))
    (h : ∀ s op, I s → (ok s op ↔ ok' s op)) (hs : I s) (ops : List ι) :
    All step ok s ops ↔ All step ok' s ops := by
  induction ops generalizing s with
  | nil => exact Iff.rfl
  | cons op ops ih => exact and_congr (h s op hs) (ih (hI s op hs))

/-- When a step keeps an invariant exactly if it meets a condition, the invariant holds all
along a sequence exactly if all its steps meet the condition. -/
theorem invariant_iff_all {I : σ → Prop} (h : ∀ s op, I s → (I (step s op) ↔ ok s op))
    (hs : I s) (ops : List ι) :
    (∀ n, I (run step s (ops.take n))) ↔ All step ok s ops := by
  induction ops generalizing s with
  | nil =>
    refine ⟨fun _ => trivial, fun _ n => ?_⟩
    rw [List.take_nil]
    exact hs
  | cons op ops ih =>
    constructor
    · intro hall
      have hstep : I (step s op) := hall 1
      exact ⟨(h s op hs).mp hstep, (ih hstep).mp fun n => hall (n + 1)⟩
    · rintro ⟨hop, hops⟩ n
      have hstep : I (step s op) := (h s op hs).mpr hop
      cases n with
      | zero => exact hs
      | succ n => exact (ih hstep).mpr hops n

end Trace
