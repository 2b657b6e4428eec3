import NexaPos.Lib.Dependencies
import NexaPos.Subscriptions.Entitlements
import Mathlib.Data.Finset.Card

/-!
# What a plan entitles to, and what the resolution finds

The search for cycles does not mark every module on a cycle, but no cycle is left among the modules
that it does not mark.  That is enough: where derived modules depend on nothing but their source
and stand after it, as those of the program do, the passes end, in whatever order they go through
the sets, with exactly the modules that the plan entitles to.

The invariant of the search (`Search.Sound`) keeps the modules whose visits have ended in the order
of their ends.  A module ends after what it leads to, but for the modules that are marked, so what
is not marked comes after its dependencies and has no cycle.
-/

namespace NexaPos.Subscriptions

open Dependencies Relation

/-! ## The search -/

/-- The registered modules that a module depends on. -/
def FeatureRegistry.links (registry : FeatureRegistry) (key : String) : List String :=
  (registry.dependencies key).filter (· ∈ registry.keys)

variable {registry : FeatureRegistry}

lemma mem_links {a d : String} :
    d ∈ registry.links a ↔ d ∈ registry.dependencies a ∧ d ∈ registry.keys := by
  simp [FeatureRegistry.links]

/-- What holds of the search between its steps, with the modules whose visits have ended. -/
structure Search.Sound (registry : FeatureRegistry) (s : Search) (done : List String) : Prop where
  nodup : s.stack.Nodup
  registered : s.stack ⊆ registry.keys
  path : s.stack.IsChain fun a d => d ∈ registry.links a
  index : ∀ k ∈ s.stack, s.stackIndexes k = s.stack.idxOf k
  onStack : ∀ k, s.states k = 1 ↔ k ∈ s.stack
  finished : ∀ k, s.states k = 2 ↔ k ∈ done
  state_le : ∀ k, s.states k ≤ 2
  marked : ∀ k ∈ s.cyclic, Cyclic registry.links k
  ordered : Each (fun before a => ∀ d ∈ registry.links a, d ∈ before ∨ d ∈ s.cyclic) done

lemma Search.sound_start : Search.start.Sound registry [] where
  nodup := List.nodup_nil
  registered := List.nil_subset _
  path := .nil
  index := fun k hk => absurd hk List.not_mem_nil
  onStack := fun k => by simp [start]
  finished := fun k => by simp [start]
  state_le := fun k => by simp [start]
  marked := fun k hk => absurd hk (Finset.notMem_empty k)
  ordered := each_nil

namespace Search.Sound

variable {s : Search} {done : List String} {key : String}

lemma notMem_stack (h : s.Sound registry done) (hnew : s.states key = 0) : key ∉ s.stack := by
  intro hmem
  have := (h.onStack key).mpr hmem
  omega

lemma length_stack_lt (h : s.Sound registry done) (hkey : key ∈ registry.keys)
    (hnew : s.states key = 0) : s.stack.length < registry.keys.length := by
  have hnodup : (key :: s.stack).Nodup := List.nodup_cons.mpr ⟨h.notMem_stack hnew, h.nodup⟩
  have hsub : key :: s.stack ⊆ registry.keys := List.cons_subset.mpr ⟨hkey, h.registered⟩
  exact (List.subperm_of_subset hnodup hsub).length_le

lemma enter (h : s.Sound registry done) (hkey : key ∈ registry.keys) (hnew : s.states key = 0)
    (hpath : (s.stack ++ [key]).IsChain fun a d => d ∈ registry.links a) :
    (s.enter key).Sound registry done := by
  have hnot := h.notMem_stack hnew
  have hdone : key ∉ done := fun hmem => by
    have := (h.finished key).mpr hmem
    omega
  refine ⟨?_, ?_, hpath, ?_, ?_, ?_, ?_, h.marked, h.ordered⟩
  · exact List.nodup_append.mpr ⟨h.nodup, List.nodup_singleton key, fun a ha b hb heq =>
      hnot (by rwa [heq, List.mem_singleton.mp hb] at ha)⟩
  · exact List.append_subset.mpr ⟨h.registered, by simpa using hkey⟩
  · intro k hk
    show Function.update s.stackIndexes key s.stack.length k = (s.stack ++ [key]).idxOf k
    rcases eq_or_ne k key with rfl | hne
    · rw [Function.update_self, List.idxOf_append_of_notMem hnot, List.idxOf_cons_self, add_zero]
    · have hk : k ∈ s.stack := by
        rcases List.mem_append.mp hk with hk | hk
        · exact hk
        · exact absurd (List.mem_singleton.mp hk) hne
      rw [Function.update_of_ne hne, h.index k hk, List.idxOf_append_of_mem hk]
  · intro k
    show Function.update s.states key 1 k = 1 ↔ k ∈ s.stack ++ [key]
    rcases eq_or_ne k key with rfl | hne
    · simp
    · simp [hne, h.onStack]
  · intro k
    show Function.update s.states key 1 k = 2 ↔ k ∈ done
    rcases eq_or_ne k key with rfl | hne
    · simp [hdone]
    · rw [Function.update_of_ne hne, h.finished]
  · intro k
    show Function.update s.states key 1 k ≤ 2
    rcases eq_or_ne k key with rfl | hne
    · simp
    · rw [Function.update_of_ne hne]
      exact h.state_le k

lemma leave {stack : List String} (h : s.Sound registry done) (hstack : s.stack = stack ++ [key])
    (hlinks : ∀ d ∈ registry.links key, d ∈ done ∨ d ∈ s.cyclic) :
    (s.leave key).Sound registry (done ++ [key]) := by
  have hnodup := h.nodup
  rw [hstack] at hnodup
  have hnot : key ∉ stack := fun hmem =>
    (List.nodup_append.mp hnodup).2.2 key hmem key (List.mem_singleton_self key) rfl
  have hleft : (s.leave key).stack = stack := by
    show s.stack.dropLast = stack
    rw [hstack, List.dropLast_concat]
  have hpath := h.path
  have hregistered := h.registered
  rw [hstack] at hpath hregistered
  refine ⟨?_, ?_, ?_, ?_, ?_, ?_, ?_, h.marked, each_concat.mpr ⟨h.ordered, hlinks⟩⟩
  · rw [hleft]
    exact (List.nodup_append.mp hnodup).1
  · rw [hleft]
    exact (List.append_subset.mp hregistered).1
  · rw [hleft]
    exact hpath.left_of_append
  · intro k hk
    rw [hleft] at hk ⊢
    have hne : k ≠ key := fun heq => hnot (heq ▸ hk)
    show Function.update s.stackIndexes key 0 k = stack.idxOf k
    rw [Function.update_of_ne hne, h.index k (hstack ▸ List.mem_append_left _ hk), hstack,
      List.idxOf_append_of_mem hk]
  · intro k
    rw [hleft]
    show Function.update s.states key 2 k = 1 ↔ k ∈ stack
    rcases eq_or_ne k key with rfl | hne
    · simp [hnot]
    · rw [Function.update_of_ne hne, h.onStack, hstack]
      simp [hne]
  · intro k
    show Function.update s.states key 2 k = 2 ↔ k ∈ done ++ [key]
    rcases eq_or_ne k key with rfl | hne
    · simp
    · simp [hne, h.finished]
  · intro k
    show Function.update s.states key 2 k ≤ 2
    rcases eq_or_ne k key with rfl | hne
    · simp
    · rw [Function.update_of_ne hne]
      exact h.state_le k

lemma mark {stack : List String} {d : String} (h : s.Sound registry done)
    (hstack : s.stack = stack ++ [key]) (hd : d ∈ registry.links key) (hmem : d ∈ s.stack) :
    (s.mark d).Sound registry done ∧ d ∈ (s.mark d).cyclic := by
  have hslice : ∀ x, x ∈ (s.mark d).cyclic ↔
      x ∈ s.cyclic ∨ x ∈ (stack ++ [key]).drop ((stack ++ [key]).idxOf d) := by
    intro x
    rw [← hstack, ← h.index d hmem]
    simp [Search.mark]
  have hpath := h.path
  rw [hstack] at hpath hmem
  refine ⟨⟨h.nodup, h.registered, h.path, h.index, h.onStack, h.finished, h.state_le, ?_, ?_⟩, ?_⟩
  · intro k hk
    rcases (hslice k).mp hk with hk | hk
    · exact h.marked k hk
    · exact cyclic_of_isChain hpath hd hmem hk
  · exact h.ordered.mono fun before a hall e he =>
      (hall e he).imp_right fun hmem => (hslice e).mpr (Or.inl hmem)
  · refine (hslice d).mpr (Or.inr ?_)
    have hlt := List.idxOf_lt_length_of_mem hmem
    rw [List.drop_eq_getElem_cons hlt, List.getElem_idxOf hlt]
    exact List.mem_cons_self

end Search.Sound

/-- What a part of the search comes to: the stack is as before, and nothing is taken back. -/
structure Search.Grown (registry : FeatureRegistry) (s : Search) (done : List String) (s' : Search)
    (done' : List String) : Prop where
  sound : s'.Sound registry done'
  stack : s'.stack = s.stack
  cyclic : s.cyclic ⊆ s'.cyclic
  done : done ⊆ done'

lemma Search.Grown.refl {s : Search} {done : List String} (h : s.Sound registry done) :
    Search.Grown registry s done s done :=
  ⟨h, rfl, Finset.Subset.refl _, List.Subset.refl _⟩

lemma Search.Grown.trans {s₁ s₂ s₃ : Search} {done₁ done₂ done₃ : List String}
    (h₁ : Search.Grown registry s₁ done₁ s₂ done₂) (h₂ : Search.Grown registry s₂ done₂ s₃ done₃) :
    Search.Grown registry s₁ done₁ s₃ done₃ :=
  ⟨h₂.sound, h₂.stack.trans h₁.stack, h₁.cyclic.trans h₂.cyclic, List.Subset.trans h₁.done h₂.done⟩

/-- A visit finishes a new module that the end of the stack leads to. -/
def Search.Finishes (registry : FeatureRegistry) (visit : Search → String → Search)
    (depth : ℕ) : Prop :=
  ∀ s done key, s.Sound registry done → key ∈ registry.keys → s.states key = 0 →
    (s.stack ++ [key]).IsChain (fun a d => d ∈ registry.links a) →
    registry.keys.length ≤ s.stack.length + depth →
    ∃ done', Search.Grown registry s done (visit s key) done' ∧ key ∈ done'

section Visits

variable {visit : Search → String → Search} {depth : ℕ} {key : String} {stack : List String}

/-- A dependency of the module on top of the stack is finished or marked. -/
lemma visitDependency_grown (hvisit : Search.Finishes registry visit depth) {s : Search}
    {done : List String} {d : String} (h : s.Sound registry done)
    (hstack : s.stack = stack ++ [key]) (hdepth : registry.keys.length ≤ s.stack.length + depth)
    (hd : d ∈ registry.dependencies key) :
    ∃ done', Search.Grown registry s done (visitDependency registry visit s d) done' ∧
      (d ∈ registry.keys → d ∈ done' ∨ d ∈ (visitDependency registry visit s d).cyclic) := by
  unfold visitDependency
  by_cases hregistered : d ∈ registry.keys
  · have hlink : d ∈ registry.links key := mem_links.mpr ⟨hd, hregistered⟩
    rw [if_neg (not_not.mpr hregistered)]
    split
    · rename_i hzero
      have hchain : (s.stack ++ [d]).IsChain fun a d => d ∈ registry.links a := by
        have hpath := h.path
        rw [hstack] at hpath ⊢
        refine hpath.append (.singleton d) fun x hx y hy => ?_
        simp only [List.getLast?_append, List.getLast?_singleton, Option.some_or,
          Option.mem_def, Option.some.injEq, List.head?_cons] at hx hy
        rwa [← hx, ← hy]
      obtain ⟨done', hgrown, hmem⟩ := hvisit s done d h hregistered hzero hchain hdepth
      exact ⟨done', hgrown, fun _ => Or.inl hmem⟩
    · split
      · rename_i hone
        obtain ⟨hsound, hmarked⟩ := h.mark hstack hlink ((h.onStack d).mp hone)
        exact ⟨done, ⟨hsound, rfl, Finset.subset_union_left, List.Subset.refl _⟩,
          fun _ => Or.inr hmarked⟩
      · rename_i hzero hone
        have htwo : s.states d = 2 := by
          have := h.state_le d
          omega
        exact ⟨done, .refl h, fun _ => Or.inl ((h.finished d).mp htwo)⟩
  · rw [if_pos hregistered]
    exact ⟨done, .refl h, fun hmem => absurd hmem hregistered⟩

lemma visitDependencies_grown (hvisit : Search.Finishes registry visit depth) (ds : List String)
    (hds : ds ⊆ registry.dependencies key) {s : Search} {done : List String}
    (h : s.Sound registry done) (hstack : s.stack = stack ++ [key])
    (hdepth : registry.keys.length ≤ s.stack.length + depth) :
    ∃ done', Search.Grown registry s done (ds.foldl (visitDependency registry visit) s) done' ∧
      ∀ d ∈ ds, d ∈ registry.keys →
        d ∈ done' ∨ d ∈ (ds.foldl (visitDependency registry visit) s).cyclic := by
  induction ds generalizing s done with
  | nil => exact ⟨done, .refl h, fun d hd => absurd hd List.not_mem_nil⟩
  | cons d ds ih =>
    obtain ⟨hd, hds⟩ := List.cons_subset.mp hds
    obtain ⟨done₁, hfirst, hdone⟩ := visitDependency_grown hvisit h hstack hdepth hd
    obtain ⟨done₂, hrest, hall⟩ := ih hds hfirst.sound (hfirst.stack.trans hstack)
      (by rwa [hfirst.stack])
    rw [List.foldl_cons]
    refine ⟨done₂, hfirst.trans hrest, List.forall_mem_cons.mpr ⟨fun hregistered => ?_, hall⟩⟩
    exact (hdone hregistered).imp (fun hmem => hrest.done hmem) fun hmem => hrest.cyclic hmem

end Visits

/-- The recursion is deep enough when it may go as deep as there are modules off the stack. -/
theorem finishes_visit (fuel : ℕ) : Search.Finishes registry (visit registry fuel) fuel := by
  induction fuel with
  | zero =>
    intro s done key h hkey hnew _ hdepth
    have := h.length_stack_lt hkey hnew
    omega
  | succ fuel ih =>
    intro s done key h hkey hnew hpath hdepth
    have hlength : (s.enter key).stack.length = s.stack.length + 1 := by simp [Search.enter]
    obtain ⟨done', hgrown, hall⟩ := visitDependencies_grown ih _ (List.Subset.refl _)
      (h.enter hkey hnew hpath) rfl (by omega)
    have hleft := hgrown.sound.leave hgrown.stack fun d hd =>
      hall d (mem_links.mp hd).1 (mem_links.mp hd).2
    refine ⟨done' ++ [key], ⟨hleft, ?_, hgrown.cyclic, ?_⟩, ?_⟩
    · show List.dropLast _ = s.stack
      rw [hgrown.stack]
      exact List.dropLast_concat
    · exact List.Subset.trans hgrown.done (List.subset_append_left _ _)
    · exact List.mem_append_right _ (List.mem_singleton_self key)

/-- The search goes through the registry with an empty stack. -/
lemma search_grown (ks : List String) (hks : ks ⊆ registry.keys) {s : Search} {done : List String}
    (h : s.Sound registry done) (hstack : s.stack = []) :
    ∃ done', Search.Grown registry s done (ks.foldl (fun s key =>
      if s.states key = 0 then visit registry registry.keys.length s key else s) s) done' ∧
      ks ⊆ done' := by
  induction ks generalizing s done with
  | nil => exact ⟨done, .refl h, List.nil_subset _⟩
  | cons k ks ih =>
    obtain ⟨hk, hks⟩ := List.cons_subset.mp hks
    obtain ⟨done₁, hfirst, hmem⟩ : ∃ done₁, Search.Grown registry s done
        (if s.states k = 0 then visit registry registry.keys.length s k else s) done₁ ∧
        k ∈ done₁ := by
      split
      · rename_i hzero
        refine finishes_visit _ s done k h hk hzero ?_ (Nat.le_add_left _ _)
        rw [hstack]
        exact .singleton k
      · rename_i hzero
        have hone : s.states k ≠ 1 := fun hone => by
          have := (h.onStack k).mp hone
          rw [hstack] at this
          exact List.not_mem_nil this
        have htwo : s.states k = 2 := by
          have := h.state_le k
          omega
        exact ⟨done, .refl h, (h.finished k).mp htwo⟩
    obtain ⟨done₂, hrest, hall⟩ := ih hks hfirst.sound (hfirst.stack.trans hstack)
    exact ⟨done₂, hfirst.trans hrest, List.cons_subset.mpr ⟨hrest.done hmem, hall⟩⟩

/-- The search marks modules on cycles only, and at least one on every cycle: no cycle is left
among the modules that it does not mark. -/
theorem cyclic_modules_marked (registry : FeatureRegistry) :
    (∀ k ∈ cyclicModuleKeys registry, Cyclic registry.links k) ∧
      ∀ k, ¬ Cyclic (fun a => (registry.links a).filter (· ∉ cyclicModuleKeys registry)) k := by
  obtain ⟨done, hgrown, hall⟩ := search_grown registry.keys (List.Subset.refl _)
    Search.sound_start rfl
  refine ⟨hgrown.sound.marked, fun k hk => ?_⟩
  have hordered : Ordered (fun a => (registry.links a).filter (· ∉ cyclicModuleKeys registry))
      done :=
    hgrown.sound.ordered.mono fun before a hlinks d hd => by
      obtain ⟨hd, hunmarked⟩ := List.mem_filter.mp hd
      have hunmarked : d ∉ cyclicModuleKeys registry := by simpa using hunmarked
      exact (hlinks d hd).resolve_right hunmarked
  have hregistered : k ∈ registry.keys := by
    obtain ⟨_, _, hd⟩ := TransGen.tail'_iff.mp hk
    exact (mem_links.mp (List.mem_of_mem_filter hd)).2
  exact not_cyclic_of_each hordered (hall hregistered) hk

/-- Three modules of which each depends on another one: the search does not mark the third. -/
example : cyclicModuleKeys
    ⟨[{ key := "a", label := "A", dependencies := ["b", "c"] },
      { key := "b", label := "B", dependencies := ["a"] },
      { key := "c", label := "C", dependencies := ["b"] }], by decide⟩ = {"a", "b"} := by
  decide +kernel

/-! ## What a plan entitles to -/

/-- A plan grants a module if its field is switched on, or if it follows from another module. -/
def ModuleDefinition.GrantedBy (d : ModuleDefinition) (features : String → Bool) : Prop :=
  d.field?.any features = true ∨ d.source?.isSome

/-- A plan entitles to a granted module if it entitles to everything the module depends on. -/
inductive Entitled (registry : FeatureRegistry) (features : String → Bool) : String → Prop
  | intro {d : ModuleDefinition} (hd : d ∈ registry.definitions) (hgranted : d.GrantedBy features)
      (hdependencies : ∀ k ∈ d.dependencyKeys, Entitled registry features k) :
      Entitled registry features d.key

/-- A derived module depends on nothing but its source, which stands before it. -/
def LayeredAfter (before : List String) : List ModuleDefinition → Prop
  | [] => True
  | d :: ds => (∀ source ∈ d.source?, (∀ k ∈ d.dependencies, k = source) ∧ source ∈ before) ∧
      LayeredAfter (before ++ [d.key]) ds

instance decidableLayeredAfter : ∀ before ds, Decidable (LayeredAfter before ds)
  | _, [] => inferInstanceAs (Decidable True)
  | before, d :: ds =>
    have := decidableLayeredAfter (before ++ [d.key]) ds
    inferInstanceAs (Decidable (_ ∧ _))

/-- The derived modules of the registry are layered. -/
def FeatureRegistry.Layered (registry : FeatureRegistry) : Prop :=
  LayeredAfter [] registry.definitions

instance : Decidable registry.Layered := inferInstanceAs (Decidable (LayeredAfter _ _))

lemma layered_featureRegistry : featureRegistry.Layered := by decide +kernel

section Entitled

variable {features : String → Bool}

lemma Entitled.definition {k : String} (h : Entitled registry features k) :
    ∃ d ∈ registry.definitions, d.key = k ∧ d.GrantedBy features ∧
      ∀ k ∈ d.dependencyKeys, Entitled registry features k := by
  cases h with
  | intro hd hgranted hdependencies => exact ⟨_, hd, rfl, hgranted, hdependencies⟩

lemma Entitled.dependencies {k d : String} (h : Entitled registry features k)
    (hd : d ∈ registry.dependencies k) : Entitled registry features d := by
  obtain ⟨definition, hdefinition, rfl, -, hall⟩ := h.definition
  rw [FeatureRegistry.dependencies_key hdefinition] at hd
  exact hall d hd

/-- Nothing that a plan entitles to depends on itself. -/
lemma Entitled.not_cyclic {k : String} (h : Entitled registry features k) :
    ¬ Cyclic registry.links k := by
  induction h with
  | @intro d hd _ _ ih =>
    intro hcycle
    obtain ⟨e, hfirst, hrest⟩ := TransGen.head'_iff.mp hcycle
    have he := (mem_links.mp hfirst).1
    rw [FeatureRegistry.dependencies_key hd] at he
    exact ih e he (TransGen.tail' hrest hfirst)

end Entitled

/-! ## The passes -/

section Passes

variable {cyclic effective : Finset String}

lemma mem_addIfDerived {d : ModuleDefinition} {k : String} :
    k ∈ addIfDerived cyclic effective d ↔
      k ∈ effective ∨ k = d.key ∧ k ∉ cyclic ∧ ∃ source ∈ d.source?, source ∈ effective := by
  unfold addIfDerived
  split
  · rename_i h
    simp only [Option.any_eq_true, decide_eq_true_eq] at h
    rw [Finset.mem_insert]
    constructor
    · rintro (rfl | hk)
      · exact Or.inr ⟨rfl, h⟩
      · exact Or.inl hk
    · rintro (hk | ⟨rfl, -⟩)
      · exact Or.inr hk
      · exact Or.inl rfl
  · rename_i h
    simp only [Option.any_eq_true, decide_eq_true_eq] at h
    refine ⟨Or.inl, fun hk => hk.elim id ?_⟩
    rintro ⟨rfl, hderived⟩
    exact absurd hderived h

lemma subset_foldl_addIfDerived (ds : List ModuleDefinition) (effective : Finset String) :
    effective ⊆ ds.foldl (addIfDerived cyclic) effective := by
  induction ds generalizing effective with
  | nil => exact Finset.Subset.refl _
  | cons d ds ih =>
    exact Finset.Subset.trans (fun k hk => mem_addIfDerived.mpr (Or.inl hk)) (ih _)

/-- What a round of derivations adds. -/
lemma mem_foldl_addIfDerived {ds : List ModuleDefinition} {k : String}
    (h : k ∈ ds.foldl (addIfDerived cyclic) effective) :
    k ∈ effective ∨ k ∉ cyclic ∧ ∃ d ∈ ds, d.key = k ∧ d.source?.isSome := by
  induction ds generalizing effective with
  | nil => exact Or.inl h
  | cons d ds ih =>
    rcases ih h with hmem | ⟨hcyclic, e, he, hrest⟩
    · rcases mem_addIfDerived.mp hmem with hmem | ⟨rfl, hcyclic, source, hsource, -⟩
      · exact Or.inl hmem
      · exact Or.inr ⟨hcyclic, d, List.mem_cons_self, rfl,
          Option.isSome_iff_exists.mpr ⟨source, hsource⟩⟩
    · exact Or.inr ⟨hcyclic, e, List.mem_cons_of_mem d he, hrest⟩

/-- What is derived from an effective module is effective. -/
def Derives (cyclic : Finset String) (ds : List ModuleDefinition) (effective : Finset String) :
    Prop :=
  ∀ d ∈ ds, d.key ∉ cyclic → ∀ source ∈ d.source?, source ∈ effective → d.key ∈ effective

lemma addDerived_of_derives (h : Derives cyclic registry.definitions effective) :
    addDerived registry cyclic effective = effective := by
  unfold addDerived
  revert h
  induction registry.definitions with
  | nil => exact fun _ => rfl
  | cons d ds ih =>
    intro h
    have hfirst : addIfDerived cyclic effective d = effective := by
      ext k
      refine ⟨fun hk => ?_, fun hk => mem_addIfDerived.mpr (Or.inl hk)⟩
      rcases mem_addIfDerived.mp hk with hk | ⟨rfl, hcyclic, source, hsource, hmem⟩
      · exact hk
      · exact h d List.mem_cons_self hcyclic source hsource hmem
    rw [List.foldl_cons, hfirst]
    exact ih fun e he => h e (List.mem_cons_of_mem d he)

/-- In a layered registry one round of derivations is enough. -/
lemma derives_foldl {before : List String} {ds : List ModuleDefinition}
    (hlayered : LayeredAfter before ds) (hnodup : (before ++ ds.map ModuleDefinition.key).Nodup) :
    Derives cyclic ds (ds.foldl (addIfDerived cyclic) effective) := by
  induction ds generalizing before effective with
  | nil => exact fun d hd => absurd hd List.not_mem_nil
  | cons d ds ih =>
    have hnodup' : ((before ++ [d.key]) ++ ds.map ModuleDefinition.key).Nodup := by
      simpa using hnodup
    refine List.forall_mem_cons.mpr ⟨?_, ih hlayered.2 hnodup'⟩
    intro hcyclic source hsource hmem
    obtain ⟨-, hbefore⟩ := hlayered.1 source hsource
    have hnow : source ∈ effective := by
      rcases mem_foldl_addIfDerived hmem with hmem | ⟨-, e, he, rfl, -⟩
      · exact hmem
      · exact absurd rfl ((List.nodup_append.mp hnodup).2.2 e.key hbefore e.key
          (List.mem_map_of_mem he))
    exact subset_foldl_addIfDerived ds _
      (mem_addIfDerived.mpr (Or.inr ⟨rfl, hcyclic, source, hsource, hnow⟩))

lemma derives_addDerived (hlayered : registry.Layered) :
    Derives cyclic registry.definitions (addDerived registry cyclic effective) :=
  derives_foldl hlayered (by simpa using registry.nodup_keys)

lemma removeIfUnmet_subset {key : String} : removeIfUnmet registry effective key ⊆ effective := by
  unfold removeIfUnmet
  split
  · exact Finset.Subset.refl _
  · exact Finset.erase_subset _ _

lemma pruneUnmet_subset (keys : List String) (effective : Finset String) :
    pruneUnmet registry keys effective ⊆ effective := by
  unfold pruneUnmet
  induction keys generalizing effective with
  | nil => exact Finset.Subset.refl _
  | cons key keys ih => exact Finset.Subset.trans (ih _) removeIfUnmet_subset

/-- A derived module goes only after its source. -/
lemma derives_pruneUnmet (hsource : ∀ d ∈ registry.definitions, ∀ source ∈ d.source?,
      ∀ k ∈ d.dependencyKeys, k = source) (keys : List String)
    (h : Derives cyclic registry.definitions effective) :
    Derives cyclic registry.definitions (pruneUnmet registry keys effective) := by
  unfold pruneUnmet
  induction keys generalizing effective with
  | nil => exact h
  | cons key keys ih =>
    refine ih fun d hd hcyclic source hs hmem => ?_
    have hkept := h d hd hcyclic source hs (removeIfUnmet_subset hmem)
    unfold removeIfUnmet at hmem ⊢
    split
    · exact hkept
    · rename_i hunmet
      rw [if_neg hunmet] at hmem
      refine Finset.mem_erase.mpr ⟨?_, hkept⟩
      rintro rfl
      refine hunmet fun k hk => ?_
      rw [FeatureRegistry.dependencies_key hd] at hk
      rw [hsource d hd source hs k hk]
      exact Finset.mem_of_mem_erase hmem

/-- A pass that removes nothing leaves modules that have all their dependencies. -/
lemma dependencies_of_pruneUnmet (keys : List String)
    (h : pruneUnmet registry keys effective = effective) {k d : String} (hk : k ∈ keys)
    (hmem : k ∈ effective) (hd : d ∈ registry.dependencies k) : d ∈ effective := by
  induction keys with
  | nil => exact absurd hk List.not_mem_nil
  | cons key keys ih =>
    have hrest : pruneUnmet registry keys (removeIfUnmet registry effective key) = effective := h
    have hfirst : removeIfUnmet registry effective key = effective :=
      Finset.Subset.antisymm removeIfUnmet_subset (by
        conv_lhs => rw [← hrest]
        exact pruneUnmet_subset keys _)
    rw [hfirst] at hrest
    rcases List.mem_cons.mp hk with rfl | hk
    · by_contra hnot
      have hunmet : ¬ ∀ d ∈ registry.dependencies k, d ∈ effective := fun hall => hnot (hall d hd)
      rw [removeIfUnmet, if_neg hunmet] at hfirst
      rw [← hfirst] at hmem
      exact Finset.notMem_erase k effective hmem
    · exact ih hrest hk

/-- What has all its dependencies among kept modules is kept. -/
lemma subset_pruneUnmet {kept : String → Prop} (hkept : ∀ k, kept k → ∀ d ∈ registry.dependencies k,
      kept d) (keys : List String) (h : ∀ k, kept k → k ∈ effective) :
    ∀ k, kept k → k ∈ pruneUnmet registry keys effective := by
  unfold pruneUnmet
  induction keys generalizing effective with
  | nil => exact h
  | cons key keys ih =>
    refine ih fun k hk => ?_
    unfold removeIfUnmet
    split
    · exact h k hk
    · rename_i hunmet
      refine Finset.mem_erase.mpr ⟨?_, h k hk⟩
      rintro rfl
      exact hunmet fun d hd => h d (hkept k hk d hd)

end Passes

/-! ## The fixed point -/

section Resolution

variable {features : String → Bool}

/-- Modules that may become effective. -/
def Candidate (registry : FeatureRegistry) (features : String → Bool) (k : String) : Prop :=
  k ∉ cyclicModuleKeys registry ∧
    ∃ d ∈ registry.definitions, d.key = k ∧ d.GrantedBy features

/-- What holds of the effective modules between the passes. -/
structure Passing (registry : FeatureRegistry) (features : String → Bool)
    (effective : Finset String) : Prop where
  candidates : ∀ k ∈ effective, Candidate registry features k
  entitled : ∀ k ∈ rawEnabled registry features, Entitled registry features k → k ∈ effective

lemma mem_rawEnabled {k : String} : k ∈ rawEnabled registry features ↔
    ∃ d ∈ registry.definitions, d.key = k ∧ d.field?.any features = true := by
  simp only [rawEnabled, List.mem_toFinset, List.mem_map, List.mem_filter]
  exact ⟨fun ⟨d, ⟨hd, hfield⟩, hkey⟩ => ⟨d, hd, hkey, hfield⟩,
    fun ⟨d, hd, hkey, hfield⟩ => ⟨d, ⟨hd, hfield⟩, hkey⟩⟩

lemma Entitled.notMem_cyclic {k : String} (h : Entitled registry features k) :
    k ∉ cyclicModuleKeys registry :=
  fun hk => h.not_cyclic ((cyclic_modules_marked registry).1 k hk)

lemma passing_start (registry : FeatureRegistry) (features : String → Bool) :
    Passing registry features (rawEnabled registry features \ cyclicModuleKeys registry) where
  candidates := fun k hk => by
    obtain ⟨hraw, hcyclic⟩ := Finset.mem_sdiff.mp hk
    obtain ⟨d, hd, hkey, hfield⟩ := mem_rawEnabled.mp hraw
    exact ⟨hcyclic, d, hd, hkey, Or.inl hfield⟩
  entitled := fun _ hraw h => Finset.mem_sdiff.mpr ⟨hraw, h.notMem_cyclic⟩

lemma Layered.source {before : List String} {ds : List ModuleDefinition}
    (h : LayeredAfter before ds) : ∀ d ∈ ds, ∀ source ∈ d.source?,
      ∀ k ∈ d.dependencyKeys, k = source := by
  induction ds generalizing before with
  | nil => exact fun d hd => absurd hd List.not_mem_nil
  | cons d ds ih =>
    refine List.forall_mem_cons.mpr ⟨fun source hsource k hk => ?_, ih h.2⟩
    obtain ⟨hall, -⟩ := h.1 source hsource
    unfold ModuleDefinition.dependencyKeys at hk
    rw [Option.mem_def.mp hsource] at hk
    dsimp only at hk
    split at hk
    · exact hall k hk
    · rcases List.mem_append.mp hk with hk | hk
      · exact hall k hk
      · exact List.mem_singleton.mp hk

/-- A round of derivations reaches every module that the plan entitles to. -/
lemma entitled_foldl {before : List String} {ds : List ModuleDefinition}
    {effective : Finset String} (hlayered : LayeredAfter before ds)
    (hds : ds ⊆ registry.definitions)
    (hbefore : ∀ k ∈ before, Entitled registry features k → k ∈ effective)
    (hraw : ∀ k ∈ rawEnabled registry features, Entitled registry features k → k ∈ effective) :
    ∀ k ∈ before ++ ds.map ModuleDefinition.key, Entitled registry features k →
      k ∈ ds.foldl (addIfDerived (cyclicModuleKeys registry)) effective := by
  induction ds generalizing before effective with
  | nil => simpa using hbefore
  | cons d ds ih =>
    obtain ⟨hd, hds⟩ := List.cons_subset.mp hds
    have hstep : ∀ k ∈ before ++ [d.key], Entitled registry features k →
        k ∈ addIfDerived (cyclicModuleKeys registry) effective d := by
      intro k hk hentitled
      rcases List.mem_append.mp hk with hk | hk
      · exact mem_addIfDerived.mpr (Or.inl (hbefore k hk hentitled))
      · obtain rfl := List.mem_singleton.mp hk
        obtain ⟨e, he, hkey, hgranted, hdependencies⟩ := hentitled.definition
        obtain rfl := List.inj_on_of_nodup_map registry.nodup_keys he hd hkey
        rcases hgranted with hfield | hderived
        · have := hraw e.key (mem_rawEnabled.mpr ⟨e, hd, rfl, hfield⟩) hentitled
          exact mem_addIfDerived.mpr (Or.inl this)
        · obtain ⟨source, hsource⟩ := Option.isSome_iff_exists.mp hderived
          have hmem := hbefore source (hlayered.1 source hsource).2
            (hdependencies source (ModuleDefinition.source_mem_dependencyKeys hsource))
          exact mem_addIfDerived.mpr
            (Or.inr ⟨rfl, hentitled.notMem_cyclic, source, hsource, hmem⟩)
    have hrest := ih hlayered.2 hds hstep fun k hk h =>
      mem_addIfDerived.mpr (Or.inl (hraw k hk h))
    simpa using hrest

section Pass

variable {order : Finset String → List String} {effective : Finset String}

lemma resolvePass_candidates (h : Passing registry features effective) {k : String}
    (hk : k ∈ resolvePass registry (cyclicModuleKeys registry) order effective) :
    Candidate registry features k := by
  have hadded := pruneUnmet_subset _ _ hk
  rcases mem_foldl_addIfDerived hadded with hmem | ⟨hcyclic, d, hd, hkey, hderived⟩
  · exact h.candidates k hmem
  · exact ⟨hcyclic, d, hd, hkey, Or.inr hderived⟩

lemma entitled_resolvePass (hlayered : registry.Layered)
    (h : Passing registry features effective) {k : String} (hk : Entitled registry features k) :
    k ∈ resolvePass registry (cyclicModuleKeys registry) order effective := by
  refine subset_pruneUnmet (fun k hk d hd => hk.dependencies hd) _ (fun k hk => ?_) k hk
  obtain ⟨d, hd, hkey, -⟩ := hk.definition
  refine entitled_foldl hlayered (List.Subset.refl _)
    (fun k hk => absurd hk List.not_mem_nil) h.entitled k ?_ hk
  rw [List.nil_append, ← hkey]
  exact FeatureRegistry.key_mem_keys hd

lemma passing_resolvePass (order : Finset String → List String) (hlayered : registry.Layered)
    (h : Passing registry features effective) :
    Passing registry features
      (resolvePass registry (cyclicModuleKeys registry) order effective) where
  candidates := fun _ hk => resolvePass_candidates h hk
  entitled := fun _ _ hk => entitled_resolvePass hlayered h hk

lemma derives_resolvePass (order : Finset String → List String) (effective : Finset String)
    (hlayered : registry.Layered) :
    Derives (cyclicModuleKeys registry) registry.definitions
      (resolvePass registry (cyclicModuleKeys registry) order effective) :=
  derives_pruneUnmet (Layered.source hlayered) _ (derives_addDerived hlayered)

/-- At a fixed point only modules that the plan entitles to are left. -/
lemma entitled_of_fixed (hlayered : registry.Layered) (horder : ∀ s k, k ∈ s → k ∈ order s)
    (h : Passing registry features effective)
    (hfixed : resolvePass registry (cyclicModuleKeys registry) order effective = effective)
    {k : String} (hk : k ∈ effective) : Entitled registry features k := by
  have hderives := derives_resolvePass order effective hlayered
  rw [hfixed] at hderives
  have hadded := addDerived_of_derives hderives
  have hkept : pruneUnmet registry (order effective) effective = effective := by
    have := hfixed
    unfold resolvePass at this
    rwa [hadded] at this
  have hclosed : ∀ a ∈ effective, ∀ d ∈ registry.dependencies a, d ∈ effective :=
    fun a ha d hd => dependencies_of_pruneUnmet _ hkept (horder _ a ha) ha hd
  by_contra hnot
  classical
  have hcycle : ∃ a ∈ effective.toList.filter fun a => ¬ Entitled registry features a,
      TransGen (fun a d => d ∈ (registry.links a).filter (· ∉ cyclicModuleKeys registry)) a a := by
    refine exists_cycle (List.ne_nil_of_mem (by simpa using ⟨hk, hnot⟩)) fun a ha => ?_
    obtain ⟨hmem, hleft⟩ : a ∈ effective ∧ ¬ Entitled registry features a := by simpa using ha
    obtain ⟨-, e, he, rfl, hgranted⟩ := h.candidates a hmem
    obtain ⟨d, hd, hmissing⟩ : ∃ d ∈ e.dependencyKeys, ¬ Entitled registry features d := by
      by_contra hall
      push Not at hall
      exact hleft ⟨he, hgranted, hall⟩
    rw [← FeatureRegistry.dependencies_key he] at hd
    have hthere := hclosed _ hmem d hd
    obtain ⟨hunmarked, f, hf, rfl, -⟩ := h.candidates d hthere
    refine ⟨f.key, by simpa using ⟨hthere, hmissing⟩, List.mem_filter.mpr ⟨?_, by simpa⟩⟩
    exact mem_links.mpr ⟨hd, FeatureRegistry.key_mem_keys hf⟩
  obtain ⟨a, -, ha⟩ := hcycle
  exact (cyclic_modules_marked registry).2 a ha

end Pass

/-- The passes that follow the first only remove modules, so they end. -/
lemma resolvePasses_ends (hlayered : registry.Layered) (orders : SetOrder) (passes n : ℕ)
    {effective : Finset String} (h : Passing registry features effective)
    (hderives : Derives (cyclicModuleKeys registry) registry.definitions effective)
    (hpasses : effective.card < passes) :
    ∃ final, resolvePasses registry (cyclicModuleKeys registry) orders passes n effective =
      some final ∧ ∀ k, k ∈ final ↔ Entitled registry features k := by
  induction passes generalizing n effective with
  | zero => exact absurd hpasses (Nat.not_lt_zero _)
  | succ passes ih =>
    have hsub : resolvePass registry (cyclicModuleKeys registry) (orders.order n) effective ⊆
        effective := by
      unfold resolvePass
      rw [addDerived_of_derives hderives]
      exact pruneUnmet_subset _ _
    unfold resolvePasses
    dsimp only
    split
    · rename_i hfixed
      refine ⟨_, rfl, fun k => ⟨fun hk => ?_, entitled_resolvePass hlayered h⟩⟩
      rw [hfixed] at hk
      exact entitled_of_fixed hlayered (fun s k => (orders.mem n s k).mpr) h hfixed hk
    · rename_i hchanged
      have hlt := Finset.card_lt_card (Finset.ssubset_iff_subset_ne.mpr ⟨hsub, hchanged⟩)
      exact ih (n + 1) (passing_resolvePass _ hlayered h) (derives_resolvePass _ _ hlayered)
        (by omega)

/-- However the passes go through the sets, they end, within two more than there are modules, and
the effective modules are those that the plan entitles to. -/
lemma effectiveModules_eq (hlayered : registry.Layered) (orders : SetOrder) {passes : ℕ}
    (hpasses : registry.keys.length + 2 ≤ passes) :
    ∃ final, resolvePasses registry (cyclicModuleKeys registry) orders passes 0
        (rawEnabled registry features \ cyclicModuleKeys registry) = some final ∧
      ∀ k, k ∈ final ↔ Entitled registry features k := by
  have hstart := passing_start registry features
  obtain ⟨passes, rfl⟩ : ∃ n, passes = n + 1 := ⟨passes - 1, by omega⟩
  unfold resolvePasses
  dsimp only
  split
  · rename_i hfixed
    refine ⟨_, rfl, fun k => ⟨fun hk => ?_, entitled_resolvePass hlayered hstart⟩⟩
    rw [hfixed] at hk
    exact entitled_of_fixed hlayered (fun s k => (orders.mem 0 s k).mpr) hstart hfixed hk
  · have hnext := passing_resolvePass (orders.order 0) hlayered hstart
    refine resolvePasses_ends hlayered orders passes 1 hnext (derives_resolvePass _ _ hlayered) ?_
    have hsub : resolvePass registry (cyclicModuleKeys registry) (orders.order 0)
        (rawEnabled registry features \ cyclicModuleKeys registry) ⊆ registry.keys.toFinset := by
      intro k hk
      obtain ⟨-, d, hd, rfl, -⟩ := hnext.candidates k hk
      exact List.mem_toFinset.mpr (FeatureRegistry.key_mem_keys hd)
    have := (Finset.card_le_card hsub).trans (List.toFinset_card_le registry.keys)
    omega

end Resolution

/-! ## Main results -/

/-- Whatever the orders of the sets, the resolution of a plan ends, and its effective modules are
those that the plan entitles to. -/
theorem effective_modules_are_entitled (registry : FeatureRegistry) (hlayered : registry.Layered)
    (orders : SetOrder) {passes : ℕ} (hpasses : registry.keys.length + 2 ≤ passes)
    (features : String → Bool) :
    ∃ resolution, calculateEffectiveModules registry orders passes features = some resolution ∧
      ∀ k, k ∈ resolution.effectiveModules ↔ Entitled registry features k := by
  obtain ⟨final, hfinal, hentitled⟩ := effectiveModules_eq hlayered orders hpasses
  refine ⟨moduleResolution registry features final, ?_, hentitled⟩
  rw [calculateEffectiveModules, hfinal, Option.map_some]

/-- The sales plan, whatever the order of the sets. -/
theorem effective_modules_are_entitled_sales :
    ∃ resolution, calculateEffectiveModules featureRegistry default 18
        (fun field => field = "feature_sales") = some resolution ∧
      ∀ k, k ∈ resolution.effectiveModules ↔
        Entitled featureRegistry (fun field => field = "feature_sales") k :=
  effective_modules_are_entitled featureRegistry layered_featureRegistry default (by decide +kernel)
    _

/-- What the denial of a module says: that the plan does not grant it, or, if the plan does or the
search has marked it, what it misses. -/
structure Explains (registry : FeatureRegistry) (features : String → Bool) (d : ModuleDefinition)
    (denial : AccessDenial) : Prop where
  moduleKey : denial.moduleKey = some d.key
  disabled : ¬ d.GrantedBy features → d.key ∉ cyclicModuleKeys registry →
    denial.code = .moduleDisabled ∧ denial.missingDependencies = []
  missing : d.GrantedBy features ∨ d.key ∈ cyclicModuleKeys registry →
    denial.code = .moduleDependencyMissing ∧ ∀ k, k ∈ denial.missingDependencies ↔
      k ∈ d.dependencyKeys ∧ ¬ Entitled registry features k
  granted : d.GrantedBy features → denial.missingDependencies ≠ []

lemma missing_of_granted {features : String → Bool} {effective : Finset String}
    {d : ModuleDefinition} (hd : d ∈ registry.definitions)
    (heffective : ∀ k, k ∈ effective ↔ Entitled registry features k) (hnot : d.key ∉ effective)
    (hgranted : d.GrantedBy features) : d.dependencyKeys.filter (· ∉ effective) ≠ [] := by
  intro hnil
  refine hnot ((heffective _).mpr ⟨hd, hgranted, fun k hk => (heffective k).mp ?_⟩)
  by_contra hmissing
  have hmem : k ∈ d.dependencyKeys.filter (· ∉ effective) :=
    List.mem_filter.mpr ⟨hk, by simpa using hmissing⟩
  rw [hnil] at hmem
  exact List.not_mem_nil hmem

lemma explains_moduleDenial {features : String → Bool} {effective : Finset String}
    {d : ModuleDefinition} (hd : d ∈ registry.definitions)
    (heffective : ∀ k, k ∈ effective ↔ Entitled registry features k) (hnot : d.key ∉ effective) :
    Explains registry features d
      (moduleDenial (cyclicModuleKeys registry) (rawEnabled registry features) effective d) := by
  have hmissing := missing_of_granted hd heffective hnot
  have hmem : ∀ k, k ∈ d.dependencyKeys.filter (· ∉ effective) ↔
      k ∈ d.dependencyKeys ∧ ¬ Entitled registry features k := by
    intro k
    rw [← heffective k]
    simp
  unfold moduleDenial
  dsimp only
  split
  · rename_i hcyclic
    exact ⟨rfl, fun _ hunmarked => absurd hcyclic hunmarked, fun _ => ⟨rfl, hmem⟩, hmissing⟩
  · rename_i hunmarked
    split
    · rename_i source hsource
      have hderived : d.GrantedBy features := Or.inr (by rw [hsource]; rfl)
      have hlisted : ¬ (source ∉ effective ∧
          source ∉ d.dependencyKeys.filter (· ∉ effective)) := by
        rintro ⟨hout, hunlisted⟩
        refine hunlisted (List.mem_filter.mpr ⟨?_, by simpa using hout⟩)
        exact ModuleDefinition.source_mem_dependencyKeys hsource
      rw [if_neg hlisted]
      exact ⟨rfl, fun hrefused _ => absurd hderived hrefused, fun _ => ⟨rfl, hmem⟩, hmissing⟩
    · rename_i hsource
      have hfield : d.GrantedBy features ↔ d.key ∈ rawEnabled registry features := by
        refine ⟨fun hgranted => ?_, fun hraw => ?_⟩
        · rcases hgranted with hfield | hderived
          · exact mem_rawEnabled.mpr ⟨d, hd, rfl, hfield⟩
          · rw [hsource] at hderived
            exact absurd hderived (by simp)
        · obtain ⟨e, he, hkey, hfield⟩ := mem_rawEnabled.mp hraw
          obtain rfl := List.inj_on_of_nodup_map registry.nodup_keys he hd hkey
          exact Or.inl hfield
      split
      · rename_i hraw
        have hrefused : ¬ d.GrantedBy features := fun hgranted => hraw (hfield.mp hgranted)
        exact ⟨rfl, fun _ _ => ⟨rfl, rfl⟩,
          fun h => (h.elim hrefused hunmarked).elim, fun hgranted => absurd hgranted hrefused⟩
      · rename_i hraw
        have hgranted : d.GrantedBy features := hfield.mpr (not_not.mp hraw)
        exact ⟨rfl, fun hrefused _ => absurd hgranted hrefused, fun _ => ⟨rfl, hmem⟩, hmissing⟩

lemma lookup_denials {p : ModuleDefinition → Bool} {f : ModuleDefinition → AccessDenial}
    {ds : List ModuleDefinition} (hnodup : (ds.map ModuleDefinition.key).Nodup)
    {d : ModuleDefinition} (hd : d ∈ ds) :
    ((ds.filter p).map fun d => (d.key, f d)).lookup d.key =
      if p d = true then some (f d) else none := by
  induction ds with
  | nil => exact absurd hd List.not_mem_nil
  | cons e ds ih =>
    obtain ⟨hhead, hnodup⟩ := List.nodup_cons.mp hnodup
    rcases List.mem_cons.mp hd with rfl | hd
    · by_cases hp : p d = true
      · simp [hp]
      · have hnone : ((ds.filter p).map fun d => (d.key, f d)).lookup d.key = none := by
          refine List.lookup_eq_none_iff.mpr fun pair hpair => ?_
          obtain ⟨e, he, rfl⟩ := List.mem_map.mp hpair
          have hne : d.key ≠ e.key := fun heq =>
            hhead (heq ▸ List.mem_map_of_mem (List.mem_of_mem_filter he))
          simpa using hne
        simp [hp, hnone]
    · have hne : d.key ≠ e.key := fun heq => hhead (heq ▸ List.mem_map_of_mem hd)
      have hkey : (d.key == e.key) = false := by simpa using hne
      by_cases hp : p e = true
      · simpa [hp, List.lookup_cons, hkey] using ih hnodup hd
      · simpa [hp] using ih hnodup hd

/-- A registered module is effective or denied, never both.  Its denial says that the plan does
not grant it, or lists what the plan does not entitle to among its dependencies: at least one if
the plan grants the module. -/
theorem denials_explain (registry : FeatureRegistry) (hlayered : registry.Layered)
    (orders : SetOrder) {passes : ℕ} (hpasses : registry.keys.length + 2 ≤ passes)
    (features : String → Bool) :
    ∃ resolution, calculateEffectiveModules registry orders passes features = some resolution ∧
      ∀ d ∈ registry.definitions,
        (d.key ∈ resolution.effectiveModules ∧ resolution.denials.lookup d.key = none) ∨
        (d.key ∉ resolution.effectiveModules ∧
          ∃ denial, resolution.denials.lookup d.key = some denial ∧
            Explains registry features d denial) := by
  obtain ⟨final, hfinal, hentitled⟩ := effectiveModules_eq hlayered orders hpasses
  refine ⟨moduleResolution registry features final, ?_, fun d hd => ?_⟩
  · rw [calculateEffectiveModules, hfinal, Option.map_some]
  · have hlookup := lookup_denials (p := fun d => d.key ∉ final)
      (f := moduleDenial (cyclicModuleKeys registry) (rawEnabled registry features) final)
      registry.nodup_keys hd
    by_cases hmem : d.key ∈ final
    · exact Or.inl ⟨hmem, by rw [moduleResolution, hlookup, if_neg (by simpa using hmem)]⟩
    · refine Or.inr ⟨hmem, _, ?_, explains_moduleDenial hd hentitled hmem⟩
      rw [moduleResolution, hlookup, if_pos (by simpa using hmem)]

/-- The denials of the sales plan. -/
theorem denials_explain_sales :
    ∃ resolution, calculateEffectiveModules featureRegistry default 18
        (fun field => field = "feature_sales") = some resolution ∧
      ∀ d ∈ featureRegistry.definitions,
        (d.key ∈ resolution.effectiveModules ∧ resolution.denials.lookup d.key = none) ∨
        (d.key ∉ resolution.effectiveModules ∧
          ∃ denial, resolution.denials.lookup d.key = some denial ∧
            Explains featureRegistry (fun field => field = "feature_sales") d denial) :=
  denials_explain featureRegistry layered_featureRegistry default (by decide +kernel) _

end NexaPos.Subscriptions
