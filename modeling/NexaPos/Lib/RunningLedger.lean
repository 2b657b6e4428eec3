import Mathlib.Algebra.BigOperators.Group.List.Basic
import Mathlib.Algebra.Group.Basic
import Mathlib.Logic.Function.Basic
import Mathlib.Logic.Relation
import Mathlib.Order.Defs.Unbundled

/-!
# Append-only ledgers with cached balances

A book keeps, for every key, a cached balance, and a list of entries in the order they were
written, each with the amount posted and the balance it left behind.  The only way to change a
book is `post`: it adds an amount to one cached balance and appends the entry that says so.

`Consistent` is what makes the cache and the list two views of one quantity: the cached balance
of a key is the sum of the amounts posted to it, and every entry's running balance is the sum up
to and including that entry.

A component that keeps a ledger is connected to this file by `Posts`: the book after each of its
operations is obtained from the book before it by a sequence of postings.  Consistency, and the
balance equation `Posts.balance` for the entries written in between, then come from here.
-/

namespace RunningLedger

variable {κ A : Type*}

/-- One posting: the amount added to a key and the balance it left. -/
structure Entry (κ A : Type*) where
  key : κ
  amount : A
  balanceAfter : A

/-- Cached balances and the postings they come from. -/
structure Book (κ A : Type*) where
  entries : List (Entry κ A)
  balance : κ → A

section Total

variable [DecidableEq κ] [AddMonoid A]

/-- What the entries posted to a key add up to. -/
def total (es : List (Entry κ A)) (k : κ) : A :=
  ((es.filter fun e => e.key = k).map Entry.amount).sum

@[simp] lemma total_nil (k : κ) : total ([] : List (Entry κ A)) k = 0 := rfl

@[simp] lemma total_append (es es' : List (Entry κ A)) (k : κ) :
    total (es ++ es') k = total es k + total es' k := by
  simp [total]

lemma total_singleton (e : Entry κ A) (k : κ) :
    total [e] k = if e.key = k then e.amount else 0 := by
  by_cases h : e.key = k <;> simp [total, h]

end Total

namespace Book

variable [DecidableEq κ] [AddMonoid A]

/-- Cached balances agree with the postings, at the end and at every entry on the way. -/
structure Consistent (b : Book κ A) : Prop where
  balance_eq : ∀ k, b.balance k = total b.entries k
  balanceAfter_eq : ∀ pre e post, b.entries = pre ++ e :: post →
    e.balanceAfter = total (pre ++ [e]) e.key

/-- The book nothing was posted to. -/
def empty : Book κ A := ⟨[], fun _ => 0⟩

/-- Add an amount to one balance and append the entry that records it. -/
def post (b : Book κ A) (k : κ) (a : A) : Book κ A where
  entries := b.entries ++ [⟨k, a, b.balance k + a⟩]
  balance := Function.update b.balance k (b.balance k + a)

lemma consistent_empty : (empty : Book κ A).Consistent where
  balance_eq _ := rfl
  balanceAfter_eq pre e post h := by simp [empty] at h

/-- Posting keeps a book consistent: the new entry's running balance is the cached one. -/
lemma Consistent.post {b : Book κ A} (h : b.Consistent) (k : κ) (a : A) :
    (b.post k a).Consistent where
  balance_eq k' := by
    by_cases hk : k = k'
    · subst hk
      simp [Book.post, total_singleton, h.balance_eq]
    · simp [Book.post, total_singleton, hk, Function.update_of_ne (Ne.symm hk), h.balance_eq]
  balanceAfter_eq pre e rest he := by
    -- the entry is either one of the old ones or the one just written
    rcases List.eq_nil_or_concat rest with rfl | ⟨rest', e', rfl⟩
    · obtain ⟨hpre, he⟩ := List.append_inj' he rfl
      simp only [List.cons.injEq, and_true] at he
      subst he hpre
      simp [total_singleton, h.balance_eq]
    · rw [List.concat_eq_append, ← List.cons_append, ← List.append_assoc] at he
      exact h.balanceAfter_eq pre e rest' (List.append_inj' he rfl).1

/-- One posting takes `b` to `b'`. -/
def PostStep (b b' : Book κ A) : Prop := ∃ k a, b' = b.post k a

/-- Some sequence of postings takes `b` to `b'`. -/
def Posts : Book κ A → Book κ A → Prop := Relation.ReflTransGen PostStep

instance : IsPreorder (Book κ A) Posts where
  refl _ := .refl
  trans _ _ _ h₁ h₂ := Relation.ReflTransGen.trans h₁ h₂

lemma posts_post (b : Book κ A) (k : κ) (a : A) : Posts b (b.post k a) :=
  .single ⟨k, a, rfl⟩

lemma Posts.consistent {b b' : Book κ A} (h : Posts b b') (hb : b.Consistent) :
    b'.Consistent := by
  induction h with
  | refl => exact hb
  | tail _ hstep ih =>
    obtain ⟨k, a, rfl⟩ := hstep
    exact ih.post k a

/-- Postings only append, and a balance moves by exactly what was appended under its key. -/
lemma Posts.balance {b b' : Book κ A} (h : Posts b b') :
    ∃ es, b'.entries = b.entries ++ es ∧ ∀ k, b'.balance k = b.balance k + total es k := by
  induction h with
  | refl => exact ⟨[], by simp, by simp⟩
  | tail _ hstep ih =>
    obtain ⟨es, hes, hbal⟩ := ih
    obtain ⟨k, a, rfl⟩ := hstep
    refine ⟨es ++ [⟨k, a, _⟩], by simp only [Book.post, hes, List.append_assoc]; rfl,
      fun k' => ?_⟩
    by_cases hk : k = k'
    · subst hk
      simp [Book.post, total_singleton, hbal, add_assoc]
    · simp [Book.post, total_singleton, hk, Function.update_of_ne (Ne.symm hk), hbal]

/-- A balance is the one it was, or the one that a new entry of its key left behind. -/
lemma Posts.balance_cases {b b' : Book κ A} (h : Posts b b') :
    ∃ es, b'.entries = b.entries ++ es ∧
      ∀ k, b'.balance k = b.balance k ∨ ∃ e ∈ es, e.key = k ∧ e.balanceAfter = b'.balance k := by
  induction h with
  | refl => exact ⟨[], by simp, fun _ => .inl rfl⟩
  | @tail c _ _ hstep ih =>
    obtain ⟨es, hes, hbal⟩ := ih
    obtain ⟨k, a, rfl⟩ := hstep
    refine ⟨es ++ [⟨k, a, c.balance k + a⟩], ?_, fun k' => ?_⟩
    · simp only [Book.post, hes, List.append_assoc]
    · by_cases hk : k = k'
      · subst hk
        refine .inr ⟨⟨k, a, c.balance k + a⟩, ?_, rfl, ?_⟩
        · exact List.mem_append_right _ (List.mem_singleton_self _)
        · simp [Book.post]
      · have hsame : (c.post k a).balance k' = c.balance k' :=
          Function.update_of_ne (Ne.symm hk) _ _
        rw [hsame]
        rcases hbal k' with h | ⟨e, he, hkey, hafter⟩
        · exact .inl h
        · exact .inr ⟨e, List.mem_append_left _ he, hkey, hafter⟩

end Book

end RunningLedger
