import Mathlib.Data.Fintype.Card
import Mathlib.Data.List.Basic
import Mathlib.Data.List.Chain
import Mathlib.Data.Set.Finite.List
import Mathlib.Logic.Relation
import Mathlib.Tactic.Common

/-!
# Orders of dependencies

A list of things in which each was chosen in view of those before it is described by what holds at
each place (`Each`).  When every thing comes after its dependencies there is no cycle among them
(`not_cyclic_of_each`), and where nothing is left to choose there is one (`exists_cycle`).  An edge
from the end of a path back to it closes one, too (`cyclic_of_isChain`).

`visit` is the depth-first visit of a node: the nodes on the path that leads to it are kept, to find
a cycle, and a node is done when all that it leads to is.  What is done after a visit is what was
done and what the node reaches (`visit_spec`), and a visit succeeds where nothing that the node
reaches is refused or on a cycle (`visit_ok`).
-/

namespace Dependencies

open Relation

variable {κ ε : Type}

/-! ## Lists in order -/

/-- A property of every element, in view of those before it. -/
def Each (P : List κ → κ → Prop) (xs : List κ) : Prop :=
  ∀ l₁ a l₂, xs = l₁ ++ a :: l₂ → P l₁ a

variable {P : List κ → κ → Prop} {xs ys : List κ}

lemma each_nil : Each P [] := fun l₁ a l₂ h => by simp at h

lemma each_concat {a : κ} : Each P (xs ++ [a]) ↔ Each P xs ∧ P xs a := by
  constructor
  · intro h
    exact ⟨fun l₁ b l₂ hxs => h l₁ b (l₂ ++ [a]) (by rw [hxs]; simp), h xs a [] rfl⟩
  · rintro ⟨hxs, ha⟩ l₁ b l₂ h
    rcases List.eq_nil_or_concat' l₂ with rfl | ⟨l₂, c, rfl⟩
    · obtain ⟨rfl, heq⟩ := List.append_inj' h rfl
      obtain rfl := (List.cons.inj heq).1
      exact ha
    · refine hxs l₁ b l₂ ?_
      have hsplit : xs ++ [a] = (l₁ ++ b :: l₂) ++ [c] := by rw [h]; simp
      exact (List.append_inj' hsplit rfl).1

lemma Each.mono {Q : List κ → κ → Prop} (h : Each P xs) (himp : ∀ l a, P l a → Q l a) : Each Q xs :=
  fun l₁ a l₂ hxs => himp l₁ a (h l₁ a l₂ hxs)

/-- What is chosen one way only gives one list of a length. -/
theorem each_unique (hfun : ∀ l a b, P l a → P l b → a = b) (hxs : Each P xs) (hys : Each P ys)
    (hlength : xs.length = ys.length) : xs = ys := by
  induction xs using List.reverseRecOn generalizing ys with
  | nil => exact (List.length_eq_zero_iff.mp hlength.symm).symm
  | append_singleton xs a ih =>
    rcases List.eq_nil_or_concat' ys with rfl | ⟨ys, b, rfl⟩
    · simp at hlength
    · obtain ⟨hxs, ha⟩ := each_concat.mp hxs
      obtain ⟨hys, hb⟩ := each_concat.mp hys
      obtain rfl := ih hxs hys (by simpa using hlength)
      rw [hfun xs a b ha hb]

/-! ## Cycles -/

/-- Something depends on itself, by some steps. -/
def Cyclic (deps : κ → List κ) (a : κ) : Prop := TransGen (fun a d => d ∈ deps a) a a

/-- The elements of the list come after their dependencies. -/
abbrev Ordered (deps : κ → List κ) (xs : List κ) : Prop :=
  Each (fun l a => ∀ d ∈ deps a, d ∈ l) xs

section Ordered

variable {deps : κ → List κ}

lemma Ordered.mem (h : Ordered deps xs) {a d : κ} (ha : a ∈ xs) (hd : d ∈ deps a) : d ∈ xs := by
  obtain ⟨l₁, l₂, rfl⟩ := List.append_of_mem ha
  exact List.mem_append_left _ (h l₁ a l₂ rfl d hd)

/-- Things that come after their dependencies do not depend on themselves. -/
theorem not_cyclic_of_each [DecidableEq κ] (h : Ordered deps xs) {a : κ} (ha : a ∈ xs) :
    ¬ Cyclic deps a := by
  have hstep : ∀ {a d}, a ∈ xs → d ∈ deps a → d ∈ xs ∧ xs.idxOf d < xs.idxOf a := by
    intro a d ha hd
    have hlt := List.idxOf_lt_length_of_mem ha
    have hsplit : xs = xs.take (xs.idxOf a) ++ a :: xs.drop (xs.idxOf a + 1) := by
      conv_lhs => rw [← List.take_append_drop (xs.idxOf a) xs, List.drop_eq_getElem_cons hlt,
        List.getElem_idxOf hlt]
    have hmem := h _ _ _ hsplit d hd
    exact ⟨h.mem ha hd, (List.mem_take_iff_idxOf_lt (h.mem ha hd)).mp hmem⟩
  have hpath : ∀ {b}, TransGen (fun a d => d ∈ deps a) a b → b ∈ xs ∧ xs.idxOf b < xs.idxOf a := by
    intro b hab
    induction hab with
    | single hd => exact hstep ha hd
    | tail _ hd ih =>
      obtain ⟨hmem, hlt⟩ := hstep ih.1 hd
      exact ⟨hmem, hlt.trans ih.2⟩
  exact fun hcycle => lt_irrefl _ (hpath hcycle).2

end Ordered

/-- Where each of finitely many leads to another, one leads to itself. -/
theorem exists_cycle {r : κ → κ → Prop} (hne : xs ≠ []) (h : ∀ a ∈ xs, ∃ b ∈ xs, r a b) :
    ∃ a ∈ xs, TransGen r a a := by
  by_contra hnone
  let s : {a // a ∈ xs} → {a // a ∈ xs} → Prop := fun b a => TransGen r a.1 b.1
  have : Finite {a // a ∈ xs} := (List.finite_toSet xs).to_subtype
  have : IsTrans {a // a ∈ xs} s := ⟨fun a b c hab hbc => TransGen.trans hbc hab⟩
  have : Std.Irrefl s := ⟨fun a haa => hnone ⟨a.1, a.2, haa⟩⟩
  obtain ⟨x, hx⟩ := List.exists_mem_of_ne_nil xs hne
  obtain ⟨⟨m, hm⟩, -, hleast⟩ :=
    (Finite.wellFounded_of_trans_of_irrefl s).has_min Set.univ ⟨⟨x, hx⟩, Set.mem_univ _⟩
  obtain ⟨b, hb, hmb⟩ := h m hm
  exact hleast ⟨b, hb⟩ (Set.mem_univ _) (TransGen.single hmb)

/-- An edge from the end of a path back to it closes a cycle through all that follows. -/
theorem cyclic_of_isChain [DecidableEq κ] {deps : κ → List κ} {path : List κ} {a d x : κ}
    (h : (path ++ [a]).IsChain fun a d => d ∈ deps a) (hd : d ∈ deps a)
    (hmem : d ∈ path ++ [a]) (hx : x ∈ (path ++ [a]).drop ((path ++ [a]).idxOf d)) :
    Cyclic deps x := by
  let R : κ → κ → Prop := fun a d => d ∈ deps a
  have hpairs : (path ++ [a]).Pairwise (TransGen R) :=
    (h.imp fun _ _ hstep => TransGen.single hstep).pairwise
  have hlast : ReflTransGen R x a := by
    rcases List.mem_append.mp (List.mem_of_mem_drop hx) with hx | hx
    · exact ((List.pairwise_append.mp hpairs).2.2 x hx a (List.mem_singleton_self a)).to_reflTransGen
    · rw [List.mem_singleton.mp hx]
  have hfirst : ReflTransGen R d x := by
    have hlt := List.idxOf_lt_length_of_mem hmem
    have hdrop := List.drop_eq_getElem_cons hlt
    rw [List.getElem_idxOf hlt] at hdrop
    have hsub := hpairs.sublist (List.drop_sublist ((path ++ [a]).idxOf d) (path ++ [a]))
    rw [hdrop] at hsub hx
    rcases List.mem_cons.mp hx with rfl | hx
    · exact ReflTransGen.refl
    · exact ((List.pairwise_cons.mp hsub).1 x hx).to_reflTransGen
  exact (TransGen.tail' hlast hd).trans_left hfirst

/-! ## Depth-first visits -/

/-- A graph whose nodes may be refused. -/
structure Graph (κ ε : Type) where
  nodes : List κ
  edges : κ → Except ε (List κ)
  /-- What is asked of an edge before it is followed. -/
  check : κ → κ → Except ε Unit
  /-- The error for a node on the path that leads to it. -/
  cycle : List κ → κ → ε
  mem_nodes : ∀ {k ds}, edges k = .ok ds → k ∈ nodes

/-- The node is taken and leads to another. -/
def Graph.Leads (g : Graph κ ε) (a b : κ) : Prop := ∃ ds, g.edges a = .ok ds ∧ b ∈ ds

/-- The node and its edges are taken. -/
def Graph.Takes (g : Graph κ ε) (a : κ) : Prop :=
  ∃ ds, g.edges a = .ok ds ∧ ∀ d ∈ ds, g.check a d = .ok ()

variable [DecidableEq κ]

lemma length_filter_lt {nodes visiting : List κ} {k : κ} (hk : k ∈ nodes) (hnot : k ∉ visiting) :
    (nodes.filter (· ∉ k :: visiting)).length < (nodes.filter (· ∉ visiting)).length := by
  have hsub : (nodes.filter (· ∉ k :: visiting)).Sublist (nodes.filter (· ∉ visiting)) :=
    List.monotone_filter_right nodes fun a ha => by
      simp only [decide_eq_true_eq, List.mem_cons, not_or] at ha ⊢
      exact ha.2
  refine lt_of_le_of_ne hsub.length_le fun heq => ?_
  have hmem : k ∈ nodes.filter (· ∉ k :: visiting) := by
    rw [hsub.eq_of_length heq]
    exact List.mem_filter.mpr ⟨hk, by simpa using hnot⟩
  simp at hmem

/-- The visit of a node, with the nodes on the path that leads to it and those that are done. -/
def visit (g : Graph κ ε) (visiting done : List κ) (k : κ) : Except ε (List κ) :=
  if k ∈ done then .ok done
  else if _hvisiting : k ∈ visiting then .error (g.cycle visiting k)
  else
    match _hedges : g.edges k with
    | .error e => .error e
    | .ok ds => do
      let done ← ds.foldlM (fun done d => do
        g.check k d
        visit g (k :: visiting) done d) done
      return done ++ [k]
termination_by (g.nodes.filter (· ∉ visiting)).length
decreasing_by exact length_filter_lt (g.mem_nodes _hedges) _hvisiting

/-! ## What a visit does -/

lemma bind_eq_ok {α β : Type} {x : Except ε α} {f : α → Except ε β} {b : β} :
    x >>= f = .ok b ↔ ∃ a, x = .ok a ∧ f a = .ok b := by
  cases x with
  | error e => simp [bind, Except.bind]
  | ok a => simp [bind, Except.bind]

/-- Every node that is done comes after the nodes that it leads to. -/
structure Closed (g : Graph κ ε) (done : List κ) : Prop where
  nodup : done.Nodup
  each : Each (fun l a => ∃ ds, g.edges a = .ok ds ∧ ∀ d ∈ ds, d ∈ l ∧ g.check a d = .ok ()) done

omit [DecidableEq κ] in
lemma closed_nil (g : Graph κ ε) : Closed g [] := ⟨List.nodup_nil, each_nil⟩

/-- What was done is done, and what some nodes reach besides, but nothing on a path. -/
structure Grown (g : Graph κ ε) (visiting sources done done' : List κ) : Prop where
  closed : Closed g done'
  added : ∃ new, done' = done ++ new ∧
    ∀ x ∈ new, x ∉ visiting ∧ ∃ k ∈ sources, ReflTransGen g.Leads k x
  mem : ∀ k ∈ sources, k ∈ done'

omit [DecidableEq κ] in
lemma Grown.subset {g : Graph κ ε} {visiting sources done done' : List κ}
    (h : Grown g visiting sources done done') : done ⊆ done' := by
  obtain ⟨new, rfl, -⟩ := h.added
  exact List.subset_append_left _ _

omit [DecidableEq κ] in
/-- Nodes that are visited one after the other, with something that each visit shows. -/
lemma foldlM_grown {g : Graph κ ε} {visiting done done' : List κ} {ds : List κ} {Q : κ → Prop}
    {f : List κ → κ → Except ε (List κ)}
    (hf : ∀ done d done', f done d = .ok done' → Closed g done →
      Grown g visiting [d] done done' ∧ Q d)
    (h : ds.foldlM f done = .ok done') (hclosed : Closed g done) :
    Grown g visiting ds done done' ∧ ∀ d ∈ ds, Q d := by
  induction ds generalizing done with
  | nil =>
    obtain rfl := Except.ok.inj h
    refine ⟨⟨hclosed, ⟨[], (List.append_nil done).symm, ?_⟩, ?_⟩, ?_⟩
    · exact fun x hx => absurd hx List.not_mem_nil
    · exact fun x hx => absurd hx List.not_mem_nil
    · exact fun x hx => absurd hx List.not_mem_nil
  | cons d ds ih =>
    rw [List.foldlM_cons] at h
    obtain ⟨between, hone, hrest⟩ := bind_eq_ok.mp h
    obtain ⟨hfirst, hd⟩ := hf done d between hone hclosed
    obtain ⟨hgrown, hds⟩ := ih hrest hfirst.closed
    obtain ⟨new, rfl, hnew⟩ := hfirst.added
    obtain ⟨new', hnew', hadded⟩ := hgrown.added
    refine ⟨⟨hgrown.closed, ⟨new ++ new', by rw [hnew', List.append_assoc], ?_⟩, ?_⟩,
      List.forall_mem_cons.mpr ⟨hd, hds⟩⟩
    · intro x hx
      rcases List.mem_append.mp hx with hx | hx
      · obtain ⟨hnot, k, hk, hreach⟩ := hnew x hx
        obtain rfl := List.mem_singleton.mp hk
        exact ⟨hnot, k, List.mem_cons_self, hreach⟩
      · obtain ⟨hnot, k, hk, hreach⟩ := hadded x hx
        exact ⟨hnot, k, List.mem_cons_of_mem d hk, hreach⟩
    · refine List.forall_mem_cons.mpr ⟨?_, hgrown.mem⟩
      exact hgrown.subset (hfirst.mem d List.mem_cons_self)

/-- A visit adds what the node reaches, each node after those it leads to. -/
theorem visit_spec (g : Graph κ ε) (visiting done : List κ) (k : κ) (done' : List κ)
    (h : visit g visiting done k = .ok done') (hclosed : Closed g done) :
    Grown g visiting [k] done done' := by
  generalize hn : (g.nodes.filter (· ∉ visiting)).length = n
  induction n using Nat.strong_induction_on generalizing visiting done k done' with
  | h n ih =>
    rw [visit] at h
    split at h
    · rename_i hk
      obtain rfl := Except.ok.inj h
      refine ⟨hclosed, ⟨[], (List.append_nil done).symm, ?_⟩, ?_⟩
      · exact fun x hx => absurd hx List.not_mem_nil
      · exact List.forall_mem_singleton.mpr hk
    · rename_i hk
      split at h
      · exact nomatch h
      · rename_i hvisiting
        split at h
        · exact nomatch h
        · rename_i ds hedges
          obtain ⟨between, hfold, heq⟩ := bind_eq_ok.mp h
          obtain rfl := Except.ok.inj heq
          have hlt := length_filter_lt (g.mem_nodes hedges) hvisiting
          rw [hn] at hlt
          have hstep : ∀ done d done', (do
              g.check k d
              visit g (k :: visiting) done d) = .ok done' → Closed g done →
              Grown g (k :: visiting) [d] done done' ∧ g.check k d = .ok () := by
            intro done d done' hd hdone
            obtain ⟨⟨⟩, hcheck, hd⟩ := bind_eq_ok.mp hd
            exact ⟨ih _ hlt _ _ _ _ hd hdone rfl, hcheck⟩
          obtain ⟨hgrown, hchecks⟩ := foldlM_grown hstep hfold hclosed
          obtain ⟨new, rfl, hnew⟩ := hgrown.added
          have hnot : k ∉ done ++ new := by
            rw [List.mem_append, not_or]
            exact ⟨hk, fun hmem => (hnew k hmem).1 List.mem_cons_self⟩
          refine ⟨⟨?_, each_concat.mpr ⟨hgrown.closed.each, ds, hedges, ?_⟩⟩,
            ⟨new ++ [k], by rw [List.append_assoc], ?_⟩, ?_⟩
          · refine List.nodup_append.mpr ⟨hgrown.closed.nodup, List.nodup_singleton k, ?_⟩
            rintro a ha b hb rfl
            rw [List.mem_singleton.mp hb] at ha
            exact hnot ha
          · exact fun d hd => ⟨hgrown.mem d hd, hchecks d hd⟩
          · intro x hx
            rcases List.mem_append.mp hx with hx | hx
            · obtain ⟨hpath, d, hd, hreach⟩ := hnew x hx
              refine ⟨fun hmem => hpath (List.mem_cons_of_mem k hmem), k, List.mem_cons_self, ?_⟩
              exact ReflTransGen.head ⟨ds, hedges, hd⟩ hreach
            · obtain rfl := List.mem_singleton.mp hx
              exact ⟨hvisiting, x, List.mem_cons_self, ReflTransGen.refl⟩
          · exact List.forall_mem_singleton.mpr (List.mem_append_right _ List.mem_cons_self)

/-- A visit succeeds where all that the node reaches is taken, and nothing of it is on a cycle or
on the path. -/
theorem visit_ok (g : Graph κ ε) (visiting done : List κ) (k : κ)
    (htakes : ∀ x, ReflTransGen g.Leads k x → g.Takes x)
    (hacyclic : ∀ x, ReflTransGen g.Leads k x → ¬ TransGen g.Leads x x)
    (hpath : ∀ y ∈ visiting, ¬ ReflTransGen g.Leads k y) :
    ∃ done', visit g visiting done k = .ok done' := by
  generalize hn : (g.nodes.filter (· ∉ visiting)).length = n
  induction n using Nat.strong_induction_on generalizing visiting done k with
  | h n ih =>
    obtain ⟨ds, hds, hchecks⟩ := htakes k ReflTransGen.refl
    have hvisiting : k ∉ visiting := fun hmem => hpath k hmem ReflTransGen.refl
    have hlt := length_filter_lt (g.mem_nodes hds) hvisiting
    rw [hn] at hlt
    have hfold : ∀ rest, rest ⊆ ds → ∀ done, ∃ done', rest.foldlM (fun done d => do
        g.check k d
        visit g (k :: visiting) done d) done = .ok done' := by
      intro rest
      induction rest with
      | nil => exact fun _ done => ⟨done, rfl⟩
      | cons d rest ihRest =>
        intro hsub done
        have hd := hsub List.mem_cons_self
        have hleads : g.Leads k d := ⟨ds, hds, hd⟩
        obtain ⟨between, hbetween⟩ := ih _ hlt (k :: visiting) done d
          (fun x hx => htakes x (ReflTransGen.head hleads hx))
          (fun x hx => hacyclic x (ReflTransGen.head hleads hx))
          (List.forall_mem_cons.mpr ⟨
            fun hback => hacyclic k ReflTransGen.refl (TransGen.head' hleads hback),
            fun y hy hreach => hpath y hy (ReflTransGen.head hleads hreach)⟩) rfl
        obtain ⟨done', hdone'⟩ := ihRest (fun x hx => hsub (List.mem_cons_of_mem d hx)) between
        refine ⟨done', ?_⟩
        rw [List.foldlM_cons]
        refine bind_eq_ok.mpr ⟨between, ?_, hdone'⟩
        exact bind_eq_ok.mpr ⟨(), hchecks d hd, hbetween⟩
    obtain ⟨done', hdone'⟩ := hfold ds (List.Subset.refl ds) done
    rw [visit]
    by_cases hk : k ∈ done
    · exact ⟨done, if_pos hk⟩
    · rw [if_neg hk, dif_neg hvisiting]
      split
      · rename_i e he
        exact nomatch hds.symm.trans he
      · rename_i ds' hds'
        obtain rfl := Except.ok.inj (hds.symm.trans hds')
        exact ⟨done' ++ [k], bind_eq_ok.mpr ⟨done', hdone', rfl⟩⟩

/-! ## Visits of several nodes -/

/-- The nodes are visited from nothing, one after the other. -/
def visitAll (g : Graph κ ε) (roots : List κ) : Except ε (List κ) :=
  roots.foldlM (visit g []) []

omit [DecidableEq κ] in
lemma Closed.mem_of_reach {g : Graph κ ε} {done : List κ} (h : Closed g done) {a b : κ}
    (ha : a ∈ done) (hab : ReflTransGen g.Leads a b) : b ∈ done := by
  induction hab with
  | refl => exact ha
  | tail _ hstep ih =>
    obtain ⟨ds, hds, hmem⟩ := hstep
    obtain ⟨l₁, l₂, rfl⟩ := List.append_of_mem ih
    obtain ⟨ds', hds', hall⟩ := h.each l₁ _ l₂ rfl
    obtain rfl := Except.ok.inj (hds.symm.trans hds')
    exact List.mem_append_left _ (hall _ hmem).1

/-- What is done in the end is what the roots reach. -/
theorem visitAll_spec {g : Graph κ ε} {roots done : List κ} (h : visitAll g roots = .ok done) :
    Closed g done ∧ ∀ x, x ∈ done ↔ ∃ k ∈ roots, ReflTransGen g.Leads k x := by
  have hstep : ∀ done k done', visit g [] done k = .ok done' → Closed g done →
      Grown g [] [k] done done' ∧ True :=
    fun done k done' hk hdone => ⟨visit_spec g [] done k done' hk hdone, trivial⟩
  obtain ⟨hgrown, -⟩ := foldlM_grown hstep h (closed_nil g)
  refine ⟨hgrown.closed, fun x => ⟨fun hx => ?_, ?_⟩⟩
  · obtain ⟨new, rfl, hnew⟩ := hgrown.added
    exact (hnew x hx).2
  · rintro ⟨k, hk, hreach⟩
    exact hgrown.closed.mem_of_reach (hgrown.mem k hk) hreach

theorem visitAll_ok {g : Graph κ ε} {roots : List κ}
    (htakes : ∀ k ∈ roots, ∀ x, ReflTransGen g.Leads k x → g.Takes x)
    (hacyclic : ∀ k ∈ roots, ∀ x, ReflTransGen g.Leads k x → ¬ TransGen g.Leads x x) :
    ∃ done, visitAll g roots = .ok done := by
  have hfold : ∀ rest, rest ⊆ roots → ∀ done,
      ∃ done', rest.foldlM (visit g []) done = .ok done' := by
    intro rest
    induction rest with
    | nil => exact fun _ done => ⟨done, rfl⟩
    | cons k ks ih =>
      intro hsub done
      have hk := hsub List.mem_cons_self
      obtain ⟨between, hbetween⟩ := visit_ok g [] done k (htakes k hk) (hacyclic k hk)
        fun y hy => absurd hy List.not_mem_nil
      obtain ⟨done', hdone'⟩ := ih (fun x hx => hsub (List.mem_cons_of_mem k hx)) between
      refine ⟨done', ?_⟩
      rw [List.foldlM_cons]
      exact bind_eq_ok.mpr ⟨between, hbetween, hdone'⟩
  exact hfold roots (List.Subset.refl roots) []

end Dependencies
