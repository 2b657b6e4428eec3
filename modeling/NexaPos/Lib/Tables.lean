import Mathlib.Algebra.BigOperators.Group.List.Basic
import Mathlib.Algebra.BigOperators.Intervals
import Mathlib.Algebra.Ring.Int.Defs
import Mathlib.Data.List.Nodup
import Mathlib.Tactic.Common
import Mathlib.Tactic.Conv

/-!
# Tables as lists of rows

A table is a list; a row's primary key is its position.  Tables grow at the end and rows are
rewritten in place, so the lemmas here say what a key finds, which rows belong to a parent, and
what a column adds up to after rows were appended (`rows ++ new`) or one of them was rewritten
(`rows.modify pk f`).
-/

section Tables

/-! ## Rows of a parent -/

/-- The rows of a table that belong to a parent, with their primary keys, in key order. -/
def childrenOf {α : Type} (parent : α → ℕ) (rows : List α) (pk : ℕ) : List (ℕ × α) :=
  (rows.zipIdx.map Prod.swap).filter fun r => parent r.2 = pk

lemma mem_childrenOf {α : Type} {parent : α → ℕ} {rows : List α} {pk row : ℕ} {a : α} :
    (row, a) ∈ childrenOf parent rows pk ↔ rows[row]? = some a ∧ parent a = pk := by
  unfold childrenOf
  rw [List.mem_filter, List.mem_map]
  constructor
  · rintro ⟨⟨⟨b, i⟩, hmem, hswap⟩, hparent⟩
    obtain ⟨rfl, rfl⟩ := Prod.mk.inj hswap
    exact ⟨List.mk_mem_zipIdx_iff_getElem?.mp hmem, of_decide_eq_true hparent⟩
  · rintro ⟨hrow, hparent⟩
    refine ⟨⟨(a, row), List.mk_mem_zipIdx_iff_getElem?.mpr hrow, rfl⟩, ?_⟩
    exact decide_eq_true hparent

lemma map_snd_childrenOf {α : Type} (parent : α → ℕ) (rows : List α) (pk : ℕ) :
    (childrenOf parent rows pk).map Prod.snd = rows.filter fun a => parent a = pk := by
  have hsnd : rows.zipIdx.map (Prod.snd ∘ Prod.swap) = rows := by
    have hswap : (Prod.snd ∘ Prod.swap : α × ℕ → α) = Prod.fst := rfl
    rw [hswap, List.zipIdx_map_fst]
  unfold childrenOf
  conv_rhs => rw [← hsnd, ← List.map_map, List.filter_map]
  rfl

/-- Rows that were appended come last, under keys the table did not have. -/
lemma childrenOf_append {α : Type} (parent : α → ℕ) (rows new : List α) (pk : ℕ) :
    ∃ added, childrenOf parent (rows ++ new) pk = childrenOf parent rows pk ++ added ∧
      ∀ e ∈ added, rows.length ≤ e.1 := by
  refine ⟨((new.zipIdx rows.length).map Prod.swap).filter fun r => parent r.2 = pk, ?_, ?_⟩
  · unfold childrenOf
    rw [List.zipIdx_append, List.map_append, List.filter_append, Nat.zero_add]
  · intro e he
    obtain ⟨⟨a, i⟩, hmem, rfl⟩ := List.mem_map.mp (List.mem_filter.mp he).1
    exact (List.mem_zipIdx hmem).1

lemma nodup_keys_childrenOf {α : Type} (parent : α → ℕ) (rows : List α) (pk : ℕ) :
    ((childrenOf parent rows pk).map Prod.fst).Nodup := by
  have hkeys : (rows.zipIdx.map Prod.swap).map Prod.fst = List.range rows.length := by
    rw [List.map_map, List.range_eq_range']
    exact List.zipIdx_map_snd 0 rows
  refine List.Nodup.sublist (List.filter_sublist.map Prod.fst) ?_
  rw [hkeys]
  exact List.nodup_range

/-- Values computed from the rows of a table and labelled with their keys: those with the label
of one row are the value of that row. -/
lemma filter_filterMap_zipIdx {α β : Type} {f : α × ℕ → Option β} {label : β → Option ℕ}
    (hlabel : ∀ e, ∀ b ∈ f e, label b = some e.2) (rows : List α) (start row : ℕ) :
    ((rows.zipIdx start).filterMap f).filter (fun b => label b = some row) =
      if start ≤ row then ((rows[row - start]?).bind fun a => f (a, row)).toList else [] := by
  induction rows generalizing start with
  | nil => simp
  | cons a rows ih =>
    have htail := ih (start + 1)
    rw [List.zipIdx_cons]
    have hhead : ∀ l : List β, (((f (a, start)).toList ++ l).filter fun b => label b = some row) =
        (if start = row then (f (a, row)).toList else []) ++
          l.filter fun b => label b = some row := by
      intro l
      rw [List.filter_append]
      congr 1
      cases hf : f (a, start) with
      | none =>
        split
        · rename_i hrow
          rw [← hrow, hf]
          rfl
        · rfl
      | some b =>
        have hb : label b = some start := hlabel (a, start) b hf
        split
        · rename_i hrow
          subst hrow
          rw [hf]
          simp [hb]
        · rename_i hrow
          simp [hb, hrow]
    have hcons : ((a, start) :: rows.zipIdx (start + 1)).filterMap f =
        (f (a, start)).toList ++ (rows.zipIdx (start + 1)).filterMap f := by
      cases hf : f (a, start) <;> simp [hf]
    rw [hcons, hhead, htail]
    rcases Nat.lt_trichotomy row start with hlt | rfl | hlt
    · rw [if_neg (by omega), if_neg (by omega), if_neg (by omega), List.append_nil]
    · rw [if_pos rfl, if_neg (by omega), if_pos (Nat.le_refl _), Nat.sub_self, List.append_nil]
      rfl
    · have hindex : row - start = (row - (start + 1)) + 1 := by omega
      rw [if_neg (by omega), if_pos (by omega), if_pos (by omega), hindex,
        List.getElem?_cons_succ, List.nil_append]

/-- The same for the rows of one parent. -/
lemma filter_filterMap_childrenOf {α β : Type} {f : ℕ × α → Option β} {label : β → Option ℕ}
    (hlabel : ∀ e, ∀ b ∈ f e, label b = some e.1) (parent : α → ℕ) (rows : List α)
    (pk row : ℕ) :
    ((childrenOf parent rows pk).filterMap f).filter (fun b => label b = some row) =
      ((rows[row]?).bind fun a => if parent a = pk then f (row, a) else none).toList := by
  let g : α × ℕ → Option β := fun e => if parent e.1 = pk then f (e.2, e.1) else none
  have hchildren : (childrenOf parent rows pk).filterMap f = (rows.zipIdx 0).filterMap g := by
    unfold childrenOf
    rw [List.filterMap_filter, List.filterMap_map]
    refine List.filterMap_congr fun e _ => ?_
    show (if decide (parent e.1 = pk) = true then f (e.2, e.1) else none) = g e
    simp only [g, decide_eq_true_eq]
  have hg : ∀ e, ∀ b ∈ g e, label b = some e.2 := by
    intro e b hb
    simp only [g, Option.mem_def] at hb
    split at hb
    · exact hlabel _ _ hb
    · cases hb
  rw [hchildren, filter_filterMap_zipIdx hg, if_pos (Nat.zero_le _), Nat.sub_zero]

/-- A change of the rows that keeps their parents keeps the keys of the children. -/
lemma keys_childrenOf_map {α : Type} (parent : α → ℕ) (f : α → α)
    (h : ∀ a, parent (f a) = parent a) (rows : List α) (pk : ℕ) :
    (childrenOf parent (rows.map f) pk).map Prod.fst =
      (childrenOf parent rows pk).map Prod.fst := by
  unfold childrenOf
  rw [List.zipIdx_map, List.map_map, List.filter_map, List.map_map, List.filter_map,
    List.map_map]
  have hfilter : ((fun r : ℕ × α => decide (parent r.2 = pk)) ∘ Prod.swap ∘ Prod.map f id) =
      (fun r : ℕ × α => decide (parent r.2 = pk)) ∘ Prod.swap := by
    funext e
    simp [h]
  rw [hfilter]
  rfl

/-- Rows rewritten in place under their parents: the children are the rewritten ones. -/
lemma childrenOf_rewrite {α : Type} {parent : α → ℕ} {rows rows' : List α} {f : ℕ → α → α}
    (hparent : ∀ j a, parent (f j a) = parent a)
    (hrows : ∀ j, rows'[j]? = rows[j]?.map (f j)) (pk : ℕ) :
    childrenOf parent rows' pk =
      (childrenOf parent rows pk).map fun e => (e.1, f e.1 e.2) := by
  have hkeyed : rows'.zipIdx.map Prod.swap =
      (rows.zipIdx.map Prod.swap).map fun e => (e.1, f e.1 e.2) := by
    refine List.ext_getElem? fun j => ?_
    simp only [List.getElem?_map, List.getElem?_zipIdx, hrows, Option.map_map]
    congr 1
    funext a
    simp [Prod.swap_prod_mk]
  unfold childrenOf
  rw [hkeyed, List.filter_map]
  congr 1
  refine List.filter_congr fun e _ => ?_
  simp [hparent]

/-- Rows of other parents do not matter. -/
lemma childrenOf_append_of_ne {α : Type} {parent : α → ℕ} {rows new : List α} {pk : ℕ}
    (hnew : ∀ a ∈ new, parent a ≠ pk) :
    childrenOf parent (rows ++ new) pk = childrenOf parent rows pk := by
  unfold childrenOf
  rw [List.zipIdx_append, List.map_append, List.filter_append, List.append_right_eq_self,
    List.filter_eq_nil_iff]
  intro e he
  obtain ⟨⟨a, i⟩, hmem, rfl⟩ := List.mem_map.mp he
  have ha : a ∈ new := by
    rw [(List.mem_zipIdx hmem).2.2]
    exact List.getElem_mem _
  simpa using hnew a ha

/-- Rewriting one row keeps every column that the rewrite keeps. -/
lemma map_modify_of_eq {α β : Type} {f : α → α} {g : α → β} (h : ∀ a, g (f a) = g a)
    (rows : List α) (pk : ℕ) : (rows.modify pk f).map g = rows.map g := by
  refine List.ext_getElem? fun j => ?_
  rw [List.getElem?_map, List.getElem?_map, List.getElem?_modify]
  cases rows[j]? with
  | none => rfl
  | some a => by_cases hj : pk = j <;> simp [hj, h]

/-- The rows of a table after one of them was rewritten. -/
lemma getElem?_modify_eq_some {α : Type} {f : α → α} {rows : List α} {pk j : ℕ} {b : α} :
    (rows.modify pk f)[j]? = some b ↔ ∃ a, rows[j]? = some a ∧ (if pk = j then f a else a) = b := by
  rw [List.getElem?_modify]
  cases rows[j]? <;> simp

/-- A sum over some rows after one of them was rewritten. -/
lemma sum_filter_modify {α : Type} {p : α → Bool} {g : α → ℤ} {f : α → α} {rows : List α} {pk : ℕ}
    {a : α} (ha : rows[pk]? = some a) :
    (((rows.modify pk f).filter p).map g).sum =
      ((rows.filter p).map g).sum - (if p a then g a else 0) + if p (f a) then g (f a) else 0 := by
  induction rows generalizing pk with
  | nil => exact nomatch ha
  | cons b rows ih =>
    have hcons : ∀ (x : α) (l : List α), (((x :: l).filter p).map g).sum =
        (if p x then g x else 0) + ((l.filter p).map g).sum := by
      intro x l
      by_cases hx : p x <;> simp [hx]
    cases pk with
    | zero =>
      obtain rfl : b = a := Option.some.inj ha
      rw [List.modify_zero_cons, hcons, hcons]
      omega
    | succ pk =>
      rw [List.modify_succ_cons, hcons, hcons, ih ha]
      omega

/-- The same for a sum over all rows, without subtraction. -/
lemma sum_map_modify {α : Type} {g : α → ℕ} {f : α → α} {rows : List α} {pk : ℕ} {a : α}
    (ha : rows[pk]? = some a) :
    ((rows.modify pk f).map g).sum + g a = (rows.map g).sum + g (f a) := by
  induction rows generalizing pk with
  | nil => exact nomatch ha
  | cons b rows ih =>
    cases pk with
    | zero =>
      obtain rfl : b = a := Option.some.inj ha
      simp only [List.modify_zero_cons, List.map_cons, List.sum_cons]
      omega
    | succ pk =>
      have := ih ha
      simp only [List.modify_succ_cons, List.map_cons, List.sum_cons]
      omega

/-- A sum over some rows is a sum over all of them. -/
lemma sum_map_filter {α M : Type} [AddCommMonoid M] (p : α → Bool) (f : α → M) (rows : List α) :
    ((rows.filter p).map f).sum = (rows.map fun a => if p a then f a else 0).sum := by
  induction rows with
  | nil => rfl
  | cons a rows ih => by_cases ha : p a <;> simp [ha, ih]

/-- A sum over the values that some rows have. -/
lemma sum_filterMap {α β : Type} (f : α → Option β) (g : β → ℤ) (rows : List α) :
    ((rows.filterMap f).map g).sum = (rows.map fun a => (f a).elim 0 g).sum := by
  induction rows with
  | nil => rfl
  | cons a rows ih => cases h : f a <;> simp [h, ih]

/-- A sum over the rows with their keys, as one over the keys. -/
lemma sum_zipIdx {α : Type} (f : α × ℕ → ℤ) (rows : List α) (n : ℕ) :
    ((rows.zipIdx n).map f).sum =
      ∑ i ∈ Finset.range rows.length, (rows[i]?).elim 0 fun a => f (a, n + i) := by
  induction rows generalizing n with
  | nil => rfl
  | cons a rows ih =>
    rw [List.zipIdx_cons, List.map_cons, List.sum_cons, ih, List.length_cons,
      Finset.sum_range_succ', add_comm]
    simp only [List.getElem?_cons_succ, List.getElem?_cons_zero, Option.elim_some, add_zero,
      add_assoc, add_comm 1]

/-- The same for the rows of a parent. -/
lemma sum_childrenOf {α : Type} (parent : α → ℕ) (rows : List α) (pk : ℕ) (f : ℕ × α → ℤ) :
    ((childrenOf parent rows pk).map f).sum = ∑ i ∈ Finset.range rows.length,
      (rows[i]?).elim 0 fun a => if parent a = pk then f (i, a) else 0 := by
  unfold childrenOf
  rw [sum_map_filter, List.map_map, sum_zipIdx]
  simp only [Function.comp_apply, Prod.swap_prod_mk, zero_add, decide_eq_true_eq]

/-- Counting rows is adding ones. -/
lemma countP_eq_sum {α : Type} (p : α → Bool) (rows : List α) :
    rows.countP p = (rows.map fun a => if p a then 1 else 0).sum := by
  rw [List.countP_eq_length_filter, ← sum_map_filter, List.map_const', List.sum_replicate,
    Nat.nsmul_eq_mul, mul_one]

/-- What every row meets, and a rewriting keeps, every row meets after it. -/
lemma forall_mem_modify {α : Type} {P : α → Prop} {f : α → α} {rows : List α}
    (h : ∀ a ∈ rows, P a) (hf : ∀ a, P a → P (f a)) (pk : ℕ) : ∀ a ∈ rows.modify pk f, P a := by
  intro b hb
  obtain ⟨j, hj⟩ := List.mem_iff_getElem?.mp hb
  obtain ⟨a, ha, rfl⟩ := getElem?_modify_eq_some.mp hj
  have hP := h a (List.mem_of_getElem? ha)
  split
  · exact hf a hP
  · exact hP

/-- The rows of a table with their keys: some of them, and the rest. -/
lemma perm_append_except {α : Type} {rows : List α} {es : List (ℕ × α)}
    (hkeys : (es.map Prod.fst).Nodup) (hes : ∀ e ∈ es, rows[e.1]? = some e.2) :
    (rows.zipIdx.map Prod.swap).Perm
      (es ++ (rows.zipIdx.map Prod.swap).filter fun e => !(es.map Prod.fst).contains e.1) := by
  have hall : ((rows.zipIdx.map Prod.swap).map Prod.fst).Nodup := by
    rw [List.map_map, show (Prod.fst ∘ Prod.swap : α × ℕ → ℕ) = Prod.snd from rfl,
      List.zipIdx_map_snd]
    exact List.nodup_range'
  have hmem : ∀ e : ℕ × α, e ∈ rows.zipIdx.map Prod.swap ↔ rows[e.1]? = some e.2 := by
    rintro ⟨i, a⟩
    rw [List.mem_map]
    constructor
    · rintro ⟨⟨b, j⟩, hb, heq⟩
      obtain ⟨rfl, rfl⟩ := Prod.mk.inj heq
      exact List.mk_mem_zipIdx_iff_getElem?.mp hb
    · intro h
      exact ⟨(a, i), List.mk_mem_zipIdx_iff_getElem?.mpr h, rfl⟩
  refine (List.filter_append_perm (fun e => (es.map Prod.fst).contains e.1) _).symm.trans ?_
  refine List.Perm.append_right _ ?_
  refine (List.perm_ext_iff_of_nodup ((List.Nodup.of_map _ hall).filter _)
    (List.Nodup.of_map _ hkeys)).mpr ?_
  rintro ⟨i, a⟩
  rw [List.mem_filter, hmem]
  constructor
  · rintro ⟨ha, hi⟩
    obtain ⟨e, he, rfl⟩ := List.mem_map.mp (List.contains_iff_mem.mp hi)
    have ha' := hes e he
    rw [ha] at ha'
    obtain rfl := Option.some.inj ha'
    exact he
  · intro he
    exact ⟨hes _ he, List.contains_iff_mem.mpr (List.mem_map_of_mem he)⟩

/-- A column adds up over some rows and over the rest. -/
lemma sum_except_add {α : Type} {g : α → ℕ} {rows : List α} {es : List (ℕ × α)}
    (hkeys : (es.map Prod.fst).Nodup) (hes : ∀ e ∈ es, rows[e.1]? = some e.2) :
    (((rows.zipIdx.filter fun e => !(es.map Prod.fst).contains e.2).map Prod.fst).map g).sum +
      (es.map fun e => g e.2).sum = (rows.map g).sum := by
  have hperm := ((perm_append_except hkeys hes).map fun e => g e.2).sum_eq
  have hrest : ((rows.zipIdx.map Prod.swap).filter fun e =>
      !(es.map Prod.fst).contains e.1).map (fun e => g e.2) =
      ((rows.zipIdx.filter fun e => !(es.map Prod.fst).contains e.2).map Prod.fst).map g := by
    rw [List.filter_map, List.map_map, List.map_map]
    rfl
  have hrows : (rows.zipIdx.map Prod.swap).map (fun e => g e.2) = rows.map g := by
    rw [List.map_map, show ((fun e => g e.2) ∘ Prod.swap : α × ℕ → ℕ) = g ∘ Prod.fst from rfl,
      ← List.map_map, List.zipIdx_map_fst]
  rw [hrows, List.map_append, List.sum_append, hrest] at hperm
  omega

/-- A table that only grew still has its old rows under their keys. -/
lemma getElem?_of_prefix {α : Type} {rows rows' : List α} (h : rows <+: rows') {pk : ℕ} {a : α}
    (ha : rows[pk]? = some a) : rows'[pk]? = some a := by
  obtain ⟨hlt, rfl⟩ := List.getElem?_eq_some_iff.mp ha
  exact List.prefix_iff_getElem?.mp h pk hlt

/-- The rows of a table that grew. -/
lemma getElem?_append_eq_some {α : Type} {rows new : List α} {pk : ℕ} {a : α} :
    (rows ++ new)[pk]? = some a ↔
      rows[pk]? = some a ∨ rows.length ≤ pk ∧ new[pk - rows.length]? = some a := by
  rcases Nat.lt_or_ge pk rows.length with hlt | hge
  · rw [List.getElem?_append_left hlt]
    constructor
    · exact fun h => .inl h
    · rintro (h | ⟨hle, -⟩)
      · exact h
      · omega
  · rw [List.getElem?_append_right hge, List.getElem?_eq_none hge]
    simp [hge]

/-- The rows of a table that grew by one. -/
lemma getElem?_concat_eq_some {α : Type} {rows : List α} {new a : α} {pk : ℕ} :
    (rows ++ [new])[pk]? = some a ↔ rows[pk]? = some a ∨ pk = rows.length ∧ a = new := by
  rw [getElem?_append_eq_some, List.getElem?_singleton]
  constructor
  · rintro (h | ⟨hle, h⟩)
    · exact .inl h
    · split at h
      · exact .inr ⟨by omega, (Option.some.inj h).symm⟩
      · exact nomatch h
  · rintro (h | ⟨rfl, rfl⟩)
    · exact .inl h
    · exact .inr ⟨Nat.le_refl _, by rw [Nat.sub_self, if_pos rfl]⟩

/-- Rewriting the row that was appended last. -/
lemma modify_concat {α : Type} (rows : List α) (a : α) (f : α → α) :
    (rows ++ [a]).modify rows.length f = rows ++ [f a] := by
  induction rows with
  | nil => rfl
  | cons b rows ih =>
    rw [List.cons_append, List.length_cons, List.modify_succ_cons, ih, List.cons_append]

/-- A unique column names its row. -/
lemma pk_unique {α β : Type} {rows : List α} {g : α → β} (h : (rows.map g).Nodup) {i j : ℕ}
    {a b : α} (ha : rows[i]? = some a) (hb : rows[j]? = some b) (hab : g a = g b) : i = j := by
  have hi : i < (rows.map g).length := by
    rw [List.length_map]
    exact (List.getElem?_eq_some_iff.mp ha).1
  refine (List.getElem?_inj hi h).mp ?_
  rw [List.getElem?_map, List.getElem?_map, ha, hb, Option.map_some, Option.map_some, hab]

/-- The rows that share a row's value of a unique column: itself. -/
lemma filter_key_eq_singleton {α β : Type} [DecidableEq β] {rows : List α} {g : α → β}
    (h : (rows.map g).Nodup) {a : α} (ha : a ∈ rows) :
    (rows.filter fun x => g x = g a) = [a] := by
  induction rows with
  | nil => exact (List.not_mem_nil ha).elim
  | cons b rows ih =>
    rw [List.map_cons, List.nodup_cons] at h
    obtain ⟨hb, hrows⟩ := h
    rcases List.mem_cons.mp ha with rfl | ha
    · have hrest : (rows.filter fun x => g x = g a) = [] := by
        rw [List.filter_eq_nil_iff]
        intro x hx heq
        exact hb (List.mem_map.mpr ⟨x, hx, of_decide_eq_true heq⟩)
      rw [List.filter_cons_of_pos (by simp), hrest]
    · have hne : g b ≠ g a := fun heq => hb (List.mem_map.mpr ⟨a, ha, heq.symm⟩)
      rw [List.filter_cons_of_neg (by simp [hne])]
      exact ih hrows ha

/-- A column that stayed as it was is a prefix of itself. -/
lemma isPrefix_of_eq {α : Type} {xs ys : List α} (h : ys = xs) : xs <+: ys := by
  subst h
  exact List.prefix_rfl

end Tables
