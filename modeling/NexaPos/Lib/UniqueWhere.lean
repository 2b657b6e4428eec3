import Mathlib.Data.List.Forall2
import Mathlib.Tactic.Common

/-!
# Conditional unique constraints

A table is a list of rows.  `UniqueWhere p g rows` says that of the rows that meet the condition
`p` no two agree in the column `g`: a unique constraint with a condition, or what a program
keeps up instead of one.  Rows that leave the condition never break it, so what has to be
checked is a row that enters: a new row (`UniqueWhere.append`), or a row whose rewriting meets
the condition (`uniqueWhere_modify_iff`).
-/

universe u v

section UniqueWhere

variable {α : Type u} {β : Type v} {p : α → Prop} {g : α → β} {rows rows' : List α} {a : α}

/-- Rows that meet the condition differ in the column. -/
def UniqueWhere (p : α → Prop) (g : α → β) (rows : List α) : Prop :=
  ∀ ⦃i j : ℕ⦄ ⦃x y : α⦄, rows[i]? = some x → rows[j]? = some y → p x → p y → g x = g y → i = j

lemma uniqueWhere_nil : UniqueWhere p g [] := by
  intro i j x y hx
  simp at hx

/-- A new row must differ from the ones that meet the condition. -/
lemma UniqueWhere.append (h : UniqueWhere p g rows) (hnew : ∀ x ∈ rows, p x → g x ≠ g a) :
    UniqueWhere p g (rows ++ [a]) := by
  have hold : ∀ {i : ℕ} {x}, (rows ++ [a])[i]? = some x →
      rows[i]? = some x ∨ i = rows.length ∧ x = a := by
    intro i x hx
    rcases Nat.lt_trichotomy i rows.length with hlt | rfl | hgt
    · rw [List.getElem?_append_left hlt] at hx
      exact .inl hx
    · rw [List.getElem?_concat_length] at hx
      exact .inr ⟨rfl, (Option.some.inj hx).symm⟩
    · rw [List.getElem?_eq_none (by simp; omega)] at hx
      cases hx
  intro i j x y hx hy hpx hpy hxy
  rcases hold hx with hx' | ⟨rfl, rfl⟩ <;> rcases hold hy with hy' | ⟨rfl, rfl⟩
  · exact h hx' hy' hpx hpy hxy
  · exact absurd hxy (hnew x (List.mem_of_getElem? hx') hpx)
  · exact absurd hxy.symm (hnew y (List.mem_of_getElem? hy') hpy)
  · rfl

/-- Rewriting rows so that none enters the condition and none in it changes the column. -/
lemma UniqueWhere.of_forall₂ (h : UniqueWhere p g rows)
    (hrows : List.Forall₂ (fun x y => p y → p x ∧ g y = g x) rows rows') :
    UniqueWhere p g rows' := by
  have hold : ∀ {i : ℕ} {y}, rows'[i]? = some y →
      ∃ x, rows[i]? = some x ∧ (p y → p x ∧ g y = g x) := by
    intro i y hy
    obtain ⟨hlt, rfl⟩ := List.getElem?_eq_some_iff.mp hy
    have hlt' : i < rows.length := by
      rw [hrows.length_eq]
      exact hlt
    exact ⟨rows[i], List.getElem?_eq_getElem hlt', hrows.get hlt' hlt⟩
  intro i j x y hx hy hpx hpy hxy
  obtain ⟨x', hx', hx⟩ := hold hx
  obtain ⟨y', hy', hy⟩ := hold hy
  obtain ⟨hpx', hgx⟩ := hx hpx
  obtain ⟨hpy', hgy⟩ := hy hpy
  exact h hx' hy' hpx' hpy' (by rw [← hgx, ← hgy, hxy])

/-- A row enters the condition: the constraint survives exactly if no other row in it has the
same value. -/
lemma uniqueWhere_modify_iff {f : α → α} {k : ℕ} (h : UniqueWhere p g rows)
    (ha : rows[k]? = some a) (hout : ¬ p a) (hin : p (f a)) (hkey : g (f a) = g a) :
    UniqueWhere p g (rows.modify k f) ↔ ∀ x ∈ rows, p x → g x ≠ g a := by
  have hself : (rows.modify k f)[k]? = some (f a) := by
    rw [List.getElem?_modify_eq, ha]
    rfl
  have hother : ∀ {i : ℕ}, i ≠ k → (rows.modify k f)[i]? = rows[i]? := by
    intro i hi
    exact List.getElem?_modify_ne _ _ (Ne.symm hi)
  constructor
  · intro hunique x hx hpx hxa
    obtain ⟨i, hi⟩ := List.mem_iff_getElem?.mp hx
    have hne : i ≠ k := by
      rintro rfl
      rw [hi] at ha
      exact hout (Option.some.inj ha ▸ hpx)
    have hrow : (rows.modify k f)[i]? = some x := by rw [hother hne, hi]
    exact hne (hunique hrow hself hpx hin (by rw [hkey, hxa]))
  · intro hfree
    have hcase : ∀ {i : ℕ} {x}, (rows.modify k f)[i]? = some x →
        i = k ∧ x = f a ∨ i ≠ k ∧ rows[i]? = some x := by
      intro i x hx
      by_cases hi : i = k
      · subst hi
        rw [hself] at hx
        exact .inl ⟨rfl, (Option.some.inj hx).symm⟩
      · rw [hother hi] at hx
        exact .inr ⟨hi, hx⟩
    intro i j x y hx hy hpx hpy hxy
    rcases hcase hx with ⟨rfl, rfl⟩ | ⟨hi, hx'⟩ <;> rcases hcase hy with ⟨rfl, rfl⟩ | ⟨hj, hy'⟩
    · rfl
    · rw [hkey] at hxy
      exact absurd hxy.symm (hfree y (List.mem_of_getElem? hy') hpy)
    · rw [hkey] at hxy
      exact absurd hxy (hfree x (List.mem_of_getElem? hx') hpx)
    · exact h hx' hy' hpx hpy hxy

/-- A search for a value of the column finds at most one row. -/
lemma UniqueWhere.length_filter_le_one (h : UniqueWhere p g rows) {q : ℕ × α → Bool} {b : β}
    (hq : ∀ e, q e = true → p e.2 ∧ g e.2 = b) :
    ((rows.zipIdx.map Prod.swap).filter q).length ≤ 1 := by
  have hkeys : ((rows.zipIdx.map Prod.swap).filter q).Pairwise fun _ _ => False := by
    rw [List.pairwise_filter, List.pairwise_map, List.pairwise_iff_getElem]
    intro i j hi hj hlt hqi hqj
    simp only [List.getElem_zipIdx, Nat.zero_add, Prod.swap_prod_mk] at hqi hqj
    rw [List.length_zipIdx] at hi hj
    obtain ⟨hpi, hgi⟩ := hq _ hqi
    obtain ⟨hpj, hgj⟩ := hq _ hqj
    have hsame := h (List.getElem?_eq_getElem hi) (List.getElem?_eq_getElem hj) hpi hpj
      (by rw [hgi, hgj])
    omega
  match hfound : (rows.zipIdx.map Prod.swap).filter q with
  | [] => exact Nat.zero_le _
  | [_] => exact Nat.le_refl _
  | x :: y :: rest =>
    rw [hfound, List.pairwise_cons] at hkeys
    exact (hkeys.1 y List.mem_cons_self).elim

end UniqueWhere
