import Mathlib.Data.List.Perm.Subperm
import Mathlib.Data.List.Nodup
import Mathlib.Data.List.Range

/-!
# Picking an unused number

A counter is advanced until the document name it renders to is not taken.  Finitely many names
are taken and the rendering is injective, so one of the first `used.length + 1` numbers is free
(`exists_free`, by counting); `search` is the loop with that much fuel, and `search_free` says
that the number it stops at is free.

A counter that is kept between calls can fall behind the names in use.  `repair` is the loop
that, on a collision, jumps past every number it can read back from a name; two rounds are
always enough (`repair_two`), and the number it returns is past the counter and free.
-/

namespace Numbering

variable {τ : Type*}

/-- Among one more consecutive numbers than there are names in use, one renders to a free name. -/
lemma exists_free {render : ℕ → τ} (hr : Function.Injective render) (used : List τ)
    (start : ℕ) : ∃ i < used.length + 1, render (start + i) ∉ used := by
  by_contra hall
  push Not at hall
  let names := (List.range (used.length + 1)).map fun i => render (start + i)
  have hnodup : names.Nodup := by
    refine List.Nodup.map ?_ List.nodup_range
    intro i j hij
    have := hr hij
    omega
  have hsub : names ⊆ used := by
    intro x hx
    obtain ⟨i, hi, rfl⟩ := List.mem_map.mp hx
    exact hall i (List.mem_range.mp hi)
  have hle : names.length ≤ used.length := (List.subperm_of_subset hnodup hsub).length_le
  simp only [names, List.length_map, List.length_range] at hle
  omega

/-- Advance `n` past taken numbers, at most `fuel` times. -/
def search (taken : ℕ → Bool) : ℕ → ℕ → ℕ
  | 0, n => n
  | fuel + 1, n => if taken n then search taken fuel (n + 1) else n

lemma search_free {taken : ℕ → Bool} {fuel n : ℕ} (h : ∃ i < fuel, taken (n + i) = false) :
    taken (search taken fuel n) = false := by
  induction fuel generalizing n with
  | zero =>
    obtain ⟨i, hi, -⟩ := h
    exact absurd hi (Nat.not_lt_zero i)
  | succ fuel ih =>
    unfold search
    by_cases hn : taken n = true
    · rw [if_pos hn]
      obtain ⟨i, hi, hfree⟩ := h
      refine ih ⟨i - 1, ?_⟩
      have hne : i ≠ 0 := by
        rintro rfl
        rw [Nat.add_zero, hn] at hfree
        exact Bool.noConfusion hfree
      obtain ⟨j, rfl⟩ := Nat.exists_eq_succ_of_ne_zero hne
      refine ⟨by omega, ?_⟩
      rwa [show n + 1 + (j.succ - 1) = n + j.succ by omega]
    · rw [if_neg hn]
      simpa using hn

/-- The first unused number from one past the number of rows on. -/
def next (used : List ℕ) : ℕ :=
  search (fun n => used.contains n) (used.length + 1) (used.length + 1)

theorem next_not_mem (used : List ℕ) : next used ∉ used := by
  let taken : ℕ → Bool := fun n => used.contains n
  have hfree : ∃ i < used.length + 1, taken (used.length + 1 + i) = false := by
    obtain ⟨i, hi, hfree⟩ := exists_free Function.injective_id used (used.length + 1)
    exact ⟨i, hi, by simpa [taken] using hfree⟩
  simpa [next, taken] using search_free hfree

/-! ## A counter that repairs itself -/

section Repair

variable [DecidableEq τ]

/-- The largest number that can be read back from a name in use. -/
def maxRead (read : τ → Option ℕ) (used : List τ) : ℕ := (used.filterMap read).foldr max 0

omit [DecidableEq τ] in
lemma le_maxRead {read : τ → Option ℕ} {used : List τ} {x : τ} {k : ℕ} (hx : x ∈ used)
    (hk : read x = some k) : k ≤ maxRead read used := by
  have hmem : k ∈ used.filterMap read := List.mem_filterMap.mpr ⟨x, hx, hk⟩
  unfold maxRead
  generalize used.filterMap read = l at hmem
  induction l with
  | nil => exact absurd hmem List.not_mem_nil
  | cons n l ih =>
    rcases List.mem_cons.mp hmem with rfl | hmem
    · exact le_max_left _ _
    · exact (ih hmem).trans (le_max_right _ _)

/-- Take the next number; when its name is in use, jump past every number in use and retry. -/
def repair (render : ℕ → τ) (read : τ → Option ℕ) (used : List τ) : ℕ → ℕ → Option ℕ
  | 0, _ => none
  | fuel + 1, last =>
    if render (last + 1) ∈ used then
      repair render read used fuel (max (last + 1) (maxRead read used))
    else
      some (last + 1)

variable {render : ℕ → τ} {read : τ → Option ℕ} {used : List τ} {last : ℕ}

omit [DecidableEq τ] in
/-- No name past the largest number read back is in use. -/
lemma render_not_mem (hread : ∀ n, read (render n) = some n) {n : ℕ}
    (hn : maxRead read used < n) : render n ∉ used := fun hmem =>
  absurd (le_maxRead hmem (hread n)) (not_le.mpr hn)

/-- Whatever the names in use, the second round finds a free number past the counter. -/
theorem repair_two (hread : ∀ n, read (render n) = some n) :
    ∃ n, repair render read used 2 last = some n ∧ last < n ∧ render n ∉ used := by
  by_cases hused : render (last + 1) ∈ used
  · let jump := max (last + 1) (maxRead read used)
    have hfree : render (jump + 1) ∉ used :=
      render_not_mem hread (Nat.lt_succ_of_le (le_max_right _ _))
    refine ⟨jump + 1, ?_, ?_, hfree⟩
    · simp only [repair, hused, if_true]
      exact if_neg hfree
    · exact Nat.lt_succ_of_le ((Nat.le_succ last).trans (le_max_left _ _))
  · exact ⟨last + 1, by simp [repair, hused], Nat.lt_succ_self last, hused⟩

end Repair

end Numbering
