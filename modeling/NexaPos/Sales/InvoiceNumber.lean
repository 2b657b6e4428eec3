import NexaPos.Core.State
import Mathlib.Data.List.Infix

/-!
# Invoice numbers

`next_invoice_number` numbers the sales of a branch from a counter that is never reset.  A
number is a textual base, always closed by a hyphen, followed by the counter in at least three
digits.  Which base and which counter apply depends on the branch and on the settings, all of
which can change between calls, so a counter can meet numbers that another counter issued; the
loop then jumps past the largest suffix it finds behind the same base.

The digits behind a base are read back as `int(...)` reads them, for the ASCII digits that the
numbers themselves are written with.
-/

namespace NexaPos

open Tx

/-! ## Digits -/

/-- `f"{n:03d}"`. -/
def digits3 (n : ℕ) : Text :=
  List.replicate (3 - (Nat.toDigits 10 n).length) '0' ++ Nat.toDigits 10 n

/-- `int(text) if text.isdigit()`. -/
def readDigits (t : Text) : Option ℕ :=
  if t ≠ [] ∧ t.all Char.isDigit = true then some (Nat.ofDigitChars 10 t 0) else none

lemma ofDigitChars_replicate_zero (k : ℕ) (t : Text) :
    Nat.ofDigitChars 10 (List.replicate k '0' ++ t) 0 = Nat.ofDigitChars 10 t 0 := by
  induction k with
  | zero => rfl
  | succ k ih =>
    rw [List.replicate_succ, List.cons_append]
    exact ih

lemma isDigit_of_mem_digits3 {n : ℕ} {c : Char} (h : c ∈ digits3 n) : c.isDigit = true := by
  rcases List.mem_append.mp h with h | h
  · rw [List.eq_of_mem_replicate h]
    rfl
  · exact Nat.isDigit_of_mem_toDigits (by norm_num) (by norm_num) h

lemma readDigits_digits3 (n : ℕ) : readDigits (digits3 n) = some n := by
  have hne : digits3 n ≠ [] := by simp [digits3, Nat.toDigits_ne_nil]
  have hall : (digits3 n).all Char.isDigit = true :=
    List.all_eq_true.mpr fun c hc => isDigit_of_mem_digits3 hc
  unfold readDigits
  rw [if_pos ⟨hne, hall⟩]
  unfold digits3
  rw [ofDigitChars_replicate_zero, Nat.ofDigitChars_ten_toDigits]

lemma digits3_injective : Function.Injective digits3 := fun m n h => by
  have hread := readDigits_digits3 m
  rw [h, readDigits_digits3] at hread
  exact (Option.some.inj hread).symm

lemma hyphen_not_mem_digits3 (n : ℕ) : '-' ∉ digits3 n := fun h =>
  absurd (isDigit_of_mem_digits3 h) (by decide)

/-! ## The base of a number -/

/-- A trailing separator is kept, and `AH -` becomes `AH-`. -/
def closeBase (base : Text) : Text :=
  if base.getLast? = some '-' then Text.rstrip base.dropLast ++ ['-'] else base ++ ['-']

/-- The base a branch numbers with, and the scope of its counter. -/
def invoiceScope (settings : BusinessSettings) (branchId : ℕ) (branch : Branch) :
    Text × Option ℕ :=
  let branchPrefix := Text.strip branch.invoicePrefix
  if branchPrefix ≠ [] then
    (closeBase branchPrefix, some branchId)
  else
    let base := Text.orElse (Text.strip (Text.orElse settings.invoicePrefix ['I', 'N', 'V']))
      ['I', 'N', 'V']
    if settings.invoiceIncludeBranchCode then
      let segment := Text.strip branch.code
      (closeBase (if segment ≠ [] then base ++ '-' :: segment else base), some branchId)
    else
      (closeBase base, none)

/-- A base ends with its only hyphen that a counter could meet. -/
lemma closeBase_eq (base : Text) : ∃ b, closeBase base = b ++ ['-'] := by
  unfold closeBase
  split
  · exact ⟨_, rfl⟩
  · exact ⟨_, rfl⟩

lemma invoiceScope_base (settings : BusinessSettings) (branchId : ℕ) (branch : Branch) :
    ∃ b, (invoiceScope settings branchId branch).1 = b ++ ['-'] := by
  unfold invoiceScope
  dsimp only
  split
  · exact closeBase_eq _
  · split
    · exact closeBase_eq _
    · exact closeBase_eq _

/-! ## Numbers -/

/-- `f"{base}{n:03d}"`. -/
def invoiceNumber (base : Text) (n : ℕ) : Text := base ++ digits3 n

/-- The suffix of a number that starts with the base, when it is numeric. -/
def usedSuffix (base number : Text) : Option ℕ :=
  if base <+: number then readDigits (number.drop base.length) else none

lemma usedSuffix_invoiceNumber (base : Text) (n : ℕ) :
    usedSuffix base (invoiceNumber base n) = some n := by
  unfold usedSuffix invoiceNumber
  rw [if_pos (List.prefix_append _ _), List.drop_left, readDigits_digits3]

/-- The last hyphen of a number separates its base from its counter. -/
lemma split_at_last_hyphen {a b : Text} {m n : ℕ}
    (h : a ++ '-' :: digits3 m = b ++ '-' :: digits3 n) : a = b ∧ m = n := by
  have hstop : ∀ {x y : Text} {m n : ℕ}, x ++ '-' :: digits3 m = y ++ '-' :: digits3 n →
      x.length ≤ y.length → x = y := by
    intro x y m n hxy hle
    obtain ⟨z, rfl⟩ : x <+: y := List.prefix_of_prefix_length_le
      (List.prefix_append x ('-' :: digits3 m))
      (by rw [hxy]; exact List.prefix_append y _) hle
    cases z with
    | nil => rw [List.append_nil]
    | cons c z =>
      -- a hyphen of the longer base would have to be a digit of the other number
      rw [List.append_assoc, List.append_cancel_left_eq, List.cons_append,
        List.cons.injEq] at hxy
      have hmem : '-' ∈ digits3 m := by
        rw [hxy.2]
        simp
      exact absurd hmem (hyphen_not_mem_digits3 m)
  have hab : a = b := by
    rcases Nat.le_total a.length b.length with hle | hle
    · exact hstop h hle
    · exact (hstop h.symm hle).symm
  subst hab
  rw [List.append_cancel_left_eq, List.cons.injEq] at h
  exact ⟨rfl, digits3_injective h.2⟩

/-- Two numbers are equal only when their bases and counters are. -/
lemma invoiceNumber_inj {b₁ b₂ : Text} {m n : ℕ} (h₁ : ∃ b, b₁ = b ++ ['-'])
    (h₂ : ∃ b, b₂ = b ++ ['-']) (h : invoiceNumber b₁ m = invoiceNumber b₂ n) :
    b₁ = b₂ ∧ m = n := by
  obtain ⟨a, rfl⟩ := h₁
  obtain ⟨b, rfl⟩ := h₂
  unfold invoiceNumber at h
  rw [List.append_assoc, List.append_assoc] at h
  obtain ⟨rfl, rfl⟩ := split_at_last_hyphen h
  exact ⟨rfl, rfl⟩

/-! ## The counter -/

/-- The repair loop of `next_invoice_number`. -/
def counterLoop (base : Text) (used : List Text) (fuel last : ℕ) : Option ℕ :=
  Numbering.repair (invoiceNumber base) (usedSuffix base) used fuel last

/-- The loop ends within two rounds, past the counter, on a number no sale has. -/
lemma counterLoop_two (base : Text) (used : List Text) (last : ℕ) :
    ∃ n, counterLoop base used 2 last = some n ∧ last < n ∧ invoiceNumber base n ∉ used :=
  Numbering.repair_two (usedSuffix_invoiceNumber base)

/-- The value the counter is advanced to. -/
def nextCounter (base : Text) (used : List Text) (last : ℕ) : ℕ :=
  (counterLoop base used 2 last).get (by
    obtain ⟨n, hn, -⟩ := counterLoop_two base used last
    rw [hn]
    rfl)

lemma nextCounter_spec (base : Text) (used : List Text) (last : ℕ) :
    last < nextCounter base used last ∧ invoiceNumber base (nextCounter base used last) ∉ used := by
  obtain ⟨n, hn, hlt, hfree⟩ := counterLoop_two base used last
  have hval : nextCounter base used last = n := by
    unfold nextCounter
    simp [hn]
  rw [hval]
  exact ⟨hlt, hfree⟩

/-- `InvoiceSequence.last_number` of a scope, created at zero. -/
def lastNumber (s : State) (scope : Option ℕ) : ℕ := (s.sales.sequences.lookup scope).getD 0

/-- The invoice numbers in use. -/
def usedNumbers (s : State) : List Text := s.sales.sales.map Sale.invoiceNumber

/-- `next_invoice_number`. -/
def nextInvoiceNumber (branchId : ℕ) : Service Text := do
  let branch ← reads fun s => found s.tenant.branches[branchId]? .notFound
  let s ← get
  let (base, scope) := invoiceScope s.tenant.settings branchId branch
  let last := nextCounter base (usedNumbers s) (lastNumber s scope)
  modify fun s => { s with sales.sequences := s.sales.sequences.insert scope last }
  return invoiceNumber base last

/-- A call returns a free number behind its base and only moves its own counter up to it. -/
lemma runs_nextInvoiceNumber {branchId : ℕ} {s t : State} {number : Text}
    (h : Runs (nextInvoiceNumber branchId) s number t) :
    ∃ branch last, s.tenant.branches[branchId]? = some branch ∧
      number = invoiceNumber (invoiceScope s.tenant.settings branchId branch).1 last ∧
      lastNumber s (invoiceScope s.tenant.settings branchId branch).2 < last ∧
      number ∉ usedNumbers s ∧
      t = { s with sales.sequences :=
        s.sales.sequences.insert (invoiceScope s.tenant.settings branchId branch).2 last } := by
  unfold nextInvoiceNumber at h
  simp only [runs_bind, runs_reads, runs_get, runs_modify, runs_pure, found_eq_ok] at h
  obtain ⟨branch, _, ⟨hbranch, rfl⟩, _, s, ⟨rfl, rfl⟩, _, _, rfl, rfl, rfl⟩ := h
  obtain ⟨hlt, hfree⟩ := nextCounter_spec (invoiceScope s.tenant.settings branchId branch).1
    (usedNumbers s) (lastNumber s (invoiceScope s.tenant.settings branchId branch).2)
  exact ⟨branch, _, hbranch, rfl, hlt, hfree, rfl⟩

lemma within_nextInvoiceNumber {R : State → State → Prop} [IsPreorder State R]
    (hs : ∀ s x, R s { s with sales := x }) (branchId : ℕ) :
    Within R (nextInvoiceNumber branchId) := by
  refine within_bind within_reads fun branch => within_bind within_get fun s => ?_
  exact within_bind (within_modify fun s => hs s _) fun _ => within_pure

end NexaPos
