import NexaPos.Backups.Pipeline
import NexaPos.Lib.Tables

/-!
# The order of components

Each round of the loop over the heap takes the least component among those whose dependencies were
all taken before (`Chosen`).  What is chosen so is determined by the set of components, so that the
order in which they are given does not matter; and when nothing is left to choose while some
components remain, these depend on each other.
-/

namespace NexaPos.Backups.Pipeline

open Relation Dependencies

/-! ## Counting dependencies -/

lemma requiredBy_cons (d : Definition) (definitions : List Definition) (key : Text) :
    requiredBy (d :: definitions) key =
      (if d.key = key then d.requiredComponentKeys else []) ++ requiredBy definitions key := by
  unfold requiredBy
  rw [List.filter_cons]
  split
  · rename_i h
    rw [if_pos (of_decide_eq_true h), List.flatMap_cons]
  · rename_i h
    rw [if_neg (by simpa using h), List.nil_append]

lemma mem_requiredBy {definitions : List Definition} {a b : Text} :
    b ∈ requiredBy definitions a ↔
      ∃ d ∈ definitions, d.key = a ∧ b ∈ d.requiredComponentKeys := by
  unfold requiredBy
  simp only [List.mem_flatMap, List.mem_filter, decide_eq_true_eq]
  exact ⟨fun ⟨d, ⟨hd, hkey⟩, hb⟩ => ⟨d, hd, hkey, hb⟩, fun ⟨d, hd, hkey, hb⟩ => ⟨d, ⟨hd, hkey⟩, hb⟩⟩

/-- What is counted: dependencies of each key, and how often each is one. -/
structure Counted (g g' : Degrees) (required : Text → List Text) : Prop where
  indegree : ∀ x, g'.indegree x = g.indegree x + (required x).length
  dependents : ∀ d x, (g'.dependents d).count x = (g.dependents d).count x + (required x).count d

lemma foldlM_addDependency {keys : List Text} {key : Text} {deps : List Text} {g g' : Degrees}
    (h : deps.foldlM (addDependency keys key) g = .ok g') :
    deps ⊆ keys ∧ Counted g g' fun x => if key = x then deps else [] := by
  induction deps generalizing g with
  | nil =>
    obtain rfl := Except.ok.inj h
    exact ⟨List.nil_subset keys, ⟨fun x => by simp, fun d x => by simp⟩⟩
  | cons dep deps ih =>
    rw [List.foldlM_cons] at h
    obtain ⟨between, hone, hrest⟩ := bind_eq_ok.mp h
    unfold addDependency at hone
    split at hone
    · exact nomatch hone
    · rename_i hmem
      obtain ⟨hsub, hcounted⟩ := ih hrest
      obtain rfl := Except.ok.inj hone
      refine ⟨List.cons_subset.mpr ⟨not_not.mp hmem, hsub⟩, ⟨fun x => ?_, fun d x => ?_⟩⟩
      · rw [hcounted.indegree]
        by_cases hx : key = x
        · subst hx
          simp
          omega
        · simp [hx, Function.update_of_ne (Ne.symm hx)]
      · rw [hcounted.dependents]
        by_cases hd : dep = d
        · subst hd
          by_cases hx : key = x
          · subst hx
            simp
            omega
          · simp [hx]
        · by_cases hx : key = x
          · simp [hx, Function.update_of_ne (Ne.symm hd), hd]
          · simp [hx, Function.update_of_ne (Ne.symm hd)]

lemma degrees_spec {keys : List Text} {definitions : List Definition} {g g' : Degrees}
    (h : degrees keys definitions g = .ok g') :
    (∀ d ∈ definitions, d.requiredComponentKeys ⊆ keys) ∧
      Counted g g' (requiredBy definitions) := by
  unfold degrees at h
  induction definitions generalizing g with
  | nil =>
    obtain rfl := Except.ok.inj h
    exact ⟨fun d hd => absurd hd List.not_mem_nil, ⟨fun x => by simp [requiredBy],
      fun d x => by simp [requiredBy]⟩⟩
  | cons d ds ih =>
    rw [List.foldlM_cons] at h
    obtain ⟨between, hone, hrest⟩ := bind_eq_ok.mp h
    obtain ⟨hsub, hfirst⟩ := foldlM_addDependency hone
    obtain ⟨hknown, hcounted⟩ := ih hrest
    refine ⟨List.forall_mem_cons.mpr ⟨hsub, hknown⟩, ⟨fun x => ?_, fun k x => ?_⟩⟩
    · rw [hcounted.indegree, hfirst.indegree, requiredBy_cons, List.length_append]
      push_cast
      omega
    · rw [hcounted.dependents, hfirst.dependents, requiredBy_cons, List.count_append]
      omega

lemma addDependency_ok {keys deps : List Text} (hsub : deps ⊆ keys) (key : Text) (g : Degrees) :
    ∃ g', deps.foldlM (addDependency keys key) g = .ok g' := by
  induction deps generalizing g with
  | nil => exact ⟨g, rfl⟩
  | cons dep deps ih =>
    obtain ⟨hdep, hdeps⟩ := List.cons_subset.mp hsub
    rw [List.foldlM_cons]
    obtain ⟨g', hg'⟩ := ih hdeps _
    exact ⟨g', bind_eq_ok.mpr ⟨_, if_neg (not_not.mpr hdep), hg'⟩⟩

lemma degrees_ok {keys : List Text} {definitions : List Definition}
    (h : ∀ d ∈ definitions, d.requiredComponentKeys ⊆ keys) (g : Degrees) :
    ∃ g', degrees keys definitions g = .ok g' := by
  unfold degrees
  induction definitions generalizing g with
  | nil => exact ⟨g, rfl⟩
  | cons d ds ih =>
    obtain ⟨hd, hds⟩ := List.forall_mem_cons.mp h
    rw [List.foldlM_cons]
    obtain ⟨between, hbetween⟩ := addDependency_ok hd d.key g
    obtain ⟨g', hg'⟩ := ih hds between
    exact ⟨g', bind_eq_ok.mpr ⟨between, hbetween, hg'⟩⟩

/-! ## The heap -/

lemma heappop_none {es : List Entry} (h : heappop es = none) : es = [] := by
  cases es with
  | nil => rfl
  | cons e es => exact nomatch h

lemma foldl_min_le (e : Entry) (es : List Entry) :
    es.foldl min e ≤ e ∧ (∀ f ∈ es, es.foldl min e ≤ f) ∧ es.foldl min e ∈ e :: es := by
  induction es generalizing e with
  | nil => exact ⟨le_rfl, fun f hf => absurd hf List.not_mem_nil, List.mem_cons_self⟩
  | cons f fs ih =>
    obtain ⟨hle, hall, hmem⟩ := ih (min e f)
    refine ⟨hle.trans (min_le_left e f), ?_, ?_⟩
    · exact List.forall_mem_cons.mpr ⟨hle.trans (min_le_right e f), hall⟩
    · rcases List.mem_cons.mp hmem with heq | hmem
      · rw [List.foldl_cons, heq]
        rcases min_choice e f with h | h
        · rw [h]
          exact List.mem_cons_self
        · rw [h]
          exact List.mem_cons_of_mem e List.mem_cons_self
      · exact List.mem_cons_of_mem e (List.mem_cons_of_mem f hmem)

/-- A least entry is taken from the heap. -/
lemma heappop_some {es rest : List Entry} {e : Entry} (h : heappop es = some (e, rest)) :
    e ∈ es ∧ (∀ f ∈ es, e ≤ f) ∧ rest = es.erase e := by
  cases es with
  | nil => exact nomatch h
  | cons f fs =>
    obtain ⟨rfl, rfl⟩ := Prod.mk.inj (Option.some.inj h)
    obtain ⟨hle, hall, hmem⟩ := foldl_min_le f fs
    exact ⟨hmem, List.forall_mem_cons.mpr ⟨hle, hall⟩, rfl⟩

lemma release_fst (rank : Text → Entry) (s : (Text → ℤ) × List Entry) (y z : Text) :
    (release rank s y).1 z = if z = y then s.1 y - 1 else s.1 z := by
  show Function.update s.1 y (s.1 y - 1) z = _
  rw [Function.update_apply]

lemma cast_count_cons (y z : Text) (L : List Text) :
    ((y :: L).count z : ℤ) = (if z = y then 1 else 0) + L.count z := by
  by_cases heq : z = y
  · subst heq
    rw [List.count_cons_self, if_pos rfl]
    push_cast
    omega
  · rw [List.count_cons_of_ne (Ne.symm heq), if_neg heq, zero_add]

/-- Dependents that are released: those for which nothing is left to wait for go on the heap. -/
lemma foldl_release {rank : Text → Entry} (hrank : Function.Injective rank) {L : List Text}
    {s : (Text → ℤ) × List Entry} (hcount : ∀ y ∈ L, (L.count y : ℤ) ≤ s.1 y)
    (hnot : ∀ y ∈ L, rank y ∉ s.2) (hnodup : s.2.Nodup) :
    (∀ y, (L.foldl (release rank) s).1 y = s.1 y - L.count y) ∧
      (L.foldl (release rank) s).2.Nodup ∧
        ∀ e, e ∈ (L.foldl (release rank) s).2 ↔
          e ∈ s.2 ∨ ∃ y ∈ L, e = rank y ∧ s.1 y = L.count y := by
  induction L generalizing s with
  | nil => exact ⟨fun y => by simp, hnodup, fun e => by simp⟩
  | cons y L ih =>
    have hy := hcount y List.mem_cons_self
    rw [List.count_cons_self] at hy
    push_cast at hy
    have hone := release_fst rank s y
    have hcons := fun z => cast_count_cons y z L
    have hrest : ∀ z ∈ L, (L.count z : ℤ) ≤ (release rank s y).1 z := by
      intro z hz
      have hz' := hcount z (List.mem_cons_of_mem y hz)
      rw [hcons] at hz'
      rw [hone]
      split
      · rename_i heq
        subst heq
        omega
      · rename_i heq
        rw [if_neg heq] at hz'
        omega
    rw [List.foldl_cons]
    by_cases hzero : s.1 y - 1 = 0
    · have hnone : y ∉ L := fun hmem => by
        have := List.count_pos_iff.mpr hmem
        omega
      have hready : (release rank s y).2 = rank y :: s.2 := if_pos hzero
      obtain ⟨hdegree, hnodup', hmem⟩ := ih hrest (fun z hz => by
        rw [hready, List.mem_cons, not_or]
        refine ⟨fun heq => hnone (hrank heq ▸ hz), hnot z (List.mem_cons_of_mem y hz)⟩)
        (by rw [hready]; exact List.nodup_cons.mpr ⟨hnot y List.mem_cons_self, hnodup⟩)
      refine ⟨fun z => ?_, hnodup', fun e => ?_⟩
      · rw [hdegree, hone, hcons]
        split
        · rename_i heq
          subst heq
          omega
        · omega
      · rw [hmem, hready, List.mem_cons]
        constructor
        · rintro ((rfl | he) | ⟨z, hz, rfl, heq⟩)
          · refine .inr ⟨y, List.mem_cons_self, rfl, ?_⟩
            rw [hcons, if_pos rfl, List.count_eq_zero.mpr hnone]
            push_cast
            omega
          · exact .inl he
          · refine .inr ⟨z, List.mem_cons_of_mem y hz, rfl, ?_⟩
            have hne : z ≠ y := fun heq => hnone (heq ▸ hz)
            rw [hone, if_neg hne] at heq
            rw [hcons, if_neg hne, heq, zero_add]
        · rintro (he | ⟨z, hz, rfl, heq⟩)
          · exact .inl (.inr he)
          · rcases List.mem_cons.mp hz with rfl | hz
            · exact .inl (.inl rfl)
            · have hne : z ≠ y := fun heq => hnone (heq ▸ hz)
              refine .inr ⟨z, hz, rfl, ?_⟩
              rw [hone, if_neg hne, heq, hcons, if_neg hne, zero_add]
    · have hready : (release rank s y).2 = s.2 := if_neg hzero
      obtain ⟨hdegree, hnodup', hmem⟩ := ih hrest
        (fun z hz => by rw [hready]; exact hnot z (List.mem_cons_of_mem y hz))
        (by rw [hready]; exact hnodup)
      refine ⟨fun z => ?_, hnodup', fun e => ?_⟩
      · rw [hdegree, hone, hcons]
        split
        · rename_i heq
          subst heq
          omega
        · omega
      · rw [hmem, hready]
        refine or_congr_right ⟨?_, ?_⟩
        · rintro ⟨z, hz, rfl, heq⟩
          refine ⟨z, List.mem_cons_of_mem y hz, rfl, ?_⟩
          rw [hone] at heq
          rw [hcons]
          split at heq
          · rename_i hzy
            subst hzy
            rw [if_pos rfl]
            omega
          · rename_i hzy
            rw [if_neg hzy, heq, zero_add]
        · rintro ⟨z, hz, rfl, heq⟩
          rw [hcons] at heq
          rcases List.mem_cons.mp hz with rfl | hz
          · rw [if_pos rfl] at heq
            have hmem : z ∈ L := List.count_pos_iff.mp (by omega)
            refine ⟨z, hmem, rfl, ?_⟩
            rw [hone, if_pos rfl]
            omega
          · refine ⟨z, hz, rfl, ?_⟩
            rw [hone]
            split at heq
            · rename_i hzy
              subst hzy
              rw [if_pos rfl]
              omega
            · rename_i hzy
              rw [if_neg hzy, heq, zero_add]

/-! ## The loop -/

section Loop

variable {keys : List Text} {required : Text → List Text} {rank : Text → Entry}

/-- What a round takes: a least component among those whose dependencies were taken before. -/
structure Chosen (keys : List Text) (required : Text → List Text) (rank : Text → Entry)
    (l : List Text) (a : Text) : Prop where
  mem : a ∈ keys
  notMem : a ∉ l
  after : ∀ d ∈ required a, d ∈ l
  least : ∀ b ∈ keys, b ∉ l → (∀ d ∈ required b, d ∈ l) → rank a ≤ rank b

/-- What holds between two rounds. -/
structure Drained (keys : List Text) (required : Text → List Text) (rank : Text → Entry)
    (s : Draining) : Prop where
  chosen : Each (Chosen keys required rank) s.ordered
  indegree : ∀ x, s.indegree x = (required x).countP (· ∉ s.ordered)
  nodup : s.ready.Nodup
  ready : ∀ e, e ∈ s.ready ↔
    ∃ x ∈ keys, e = rank x ∧ x ∉ s.ordered ∧ ∀ d ∈ required x, d ∈ s.ordered

lemma chosen_nodup {xs : List Text} (h : Each (Chosen keys required rank) xs) :
    xs.Nodup ∧ xs ⊆ keys := by
  induction xs using List.reverseRecOn with
  | nil => exact ⟨List.nodup_nil, List.nil_subset keys⟩
  | append_singleton xs a ih =>
    obtain ⟨hxs, ha⟩ := each_concat.mp h
    obtain ⟨hnodup, hsub⟩ := ih hxs
    refine ⟨?_, List.append_subset.mpr ⟨hsub, ?_⟩⟩
    · refine List.nodup_append.mpr ⟨hnodup, List.nodup_singleton a, ?_⟩
      rintro b hb c hc rfl
      rw [List.mem_singleton.mp hc] at hb
      exact ha.notMem hb
    · exact List.cons_subset.mpr ⟨ha.mem, List.nil_subset keys⟩

lemma chosen_ordered {xs : List Text} (h : Each (Chosen keys required rank) xs) :
    Ordered required xs := h.mono fun _ _ ha => ha.after

/-- Dependencies that are waited for, when one more component is taken. -/
lemma countP_concat {deps ordered : List Text} {x : Text} (hx : x ∉ ordered) :
    deps.countP (· ∉ ordered) = deps.countP (· ∉ ordered ++ [x]) + deps.count x := by
  induction deps with
  | nil => rfl
  | cons d deps ih =>
    rw [List.countP_cons, List.countP_cons, List.count_cons, ih]
    by_cases heq : d = x
    · subst heq
      simp [hx]
      omega
    · by_cases hd : d ∈ ordered
      · simp [hd, heq]
      · simp [hd, heq]
        omega

lemma countP_eq_zero_iff {deps ordered : List Text} :
    deps.countP (· ∉ ordered) = 0 ↔ ∀ d ∈ deps, d ∈ ordered := by
  simp [List.countP_eq_zero]

/-- A round takes the next component. -/
lemma drained_step {dependents : Text → List Text} {s : Draining} {e : Entry} {rest : List Entry}
    (hrank : ∀ x, (ofLex (rank x)).2 = x)
    (hdependents : ∀ d x, (dependents d).count x = (required x).count d)
    (hkeys : ∀ x, required x ≠ [] → x ∈ keys) (h : Drained keys required rank s)
    (hpop : heappop s.ready = some (e, rest)) :
    Drained keys required rank
      ⟨(((dependents (ofLex e).2).insertionSort (· ≤ ·)).foldl (release rank)
          (s.indegree, rest)).1,
        (((dependents (ofLex e).2).insertionSort (· ≤ ·)).foldl (release rank)
          (s.indegree, rest)).2, s.ordered ++ [(ofLex e).2]⟩ := by
  have hinjective : Function.Injective rank := fun a b hab => by rw [← hrank a, hab, hrank b]
  obtain ⟨he, hleast, rfl⟩ := heappop_some hpop
  obtain ⟨x, hx, rfl, hnot, hrequired⟩ := (h.ready e).mp he
  rw [hrank]
  have hperm := List.perm_insertionSort (· ≤ ·) (dependents x)
  have hsorted : ∀ y, ((dependents x).insertionSort (· ≤ ·)).count y = (required y).count x := by
    intro y
    rw [hperm.count_eq, hdependents]
  have hmember : ∀ {y}, y ∈ (dependents x).insertionSort (· ≤ ·) → x ∈ required y := by
    intro y hy
    have := List.count_pos_iff.mpr hy
    rw [hsorted] at this
    exact List.count_pos_iff.mp this
  obtain ⟨hdegree, hnodup, hmem⟩ := foldl_release hinjective
    (L := (dependents x).insertionSort (· ≤ ·)) (s := (s.indegree, s.ready.erase (rank x)))
    (fun y hy => by
      show _ ≤ s.indegree y
      rw [h.indegree, hsorted, countP_concat hnot]
      push_cast
      omega)
    (fun y hy hready => by
      obtain ⟨z, -, heq, -, hz⟩ := (h.ready _).mp (List.mem_of_mem_erase hready)
      obtain rfl := hinjective heq
      exact hnot (hz x (hmember hy)))
    (h.nodup.erase _)
  have hchosen : Chosen keys required rank s.ordered x :=
    ⟨hx, hnot, hrequired, fun b hb hbNot hbRequired =>
      hleast _ ((h.ready _).mpr ⟨b, hb, rfl, hbNot, hbRequired⟩)⟩
  have hordered := chosen_ordered h.chosen
  refine ⟨each_concat.mpr ⟨h.chosen, hchosen⟩, fun y => ?_, hnodup, fun e => ?_⟩
  · have hone := hdegree y
    rw [hsorted] at hone
    have hbefore := h.indegree y
    rw [countP_concat hnot] at hbefore
    push_cast at hbefore
    have hafter : s.indegree y - ((required y).count x : ℤ) =
        (required y).countP (· ∉ s.ordered ++ [x]) := by omega
    exact hone.trans hafter
  · rw [hmem]
    show e ∈ s.ready.erase (rank x) ∨ (∃ y ∈ _, e = rank y ∧ s.indegree y = _) ↔ _
    constructor
    · rintro (hready | ⟨y, hy, rfl, hzero⟩)
      · obtain ⟨hne, hready⟩ := (List.Nodup.mem_erase_iff h.nodup).mp hready
        obtain ⟨z, hz, rfl, hzNot, hzRequired⟩ := (h.ready e).mp hready
        refine ⟨z, hz, rfl, ?_, fun d hd => List.mem_append_left _ (hzRequired d hd)⟩
        rw [List.mem_append, not_or, List.mem_singleton]
        exact ⟨hzNot, fun heq => hne (heq ▸ rfl)⟩
      · have hxy := hmember hy
        rw [h.indegree, hsorted, countP_concat hnot] at hzero
        have hnone : (required y).countP (· ∉ s.ordered ++ [x]) = 0 := by omega
        refine ⟨y, hkeys y (List.ne_nil_of_mem hxy), rfl, ?_, countP_eq_zero_iff.mp hnone⟩
        rw [List.mem_append, not_or, List.mem_singleton]
        refine ⟨fun hyOrdered => hnot (hordered.mem hyOrdered hxy), ?_⟩
        rintro rfl
        exact hnot (hrequired y hxy)
    · rintro ⟨z, hz, rfl, hzNot, hzRequired⟩
      rw [List.mem_append, not_or, List.mem_singleton] at hzNot
      by_cases hzx : x ∈ required z
      · refine .inr ⟨z, ?_, rfl, ?_⟩
        · rw [← List.count_pos_iff, hsorted]
          exact List.count_pos_iff.mpr hzx
        · rw [h.indegree, hsorted, countP_concat hnot, countP_eq_zero_iff.mpr hzRequired]
          push_cast
          omega
      · refine .inl ((List.Nodup.mem_erase_iff h.nodup).mpr ⟨fun heq => hzNot.2 (hinjective heq),
          (h.ready _).mpr ⟨z, hz, rfl, hzNot.1, fun d hd => ?_⟩⟩)
        rcases List.mem_append.mp (hzRequired d hd) with hd' | hd'
        · exact hd'
        · rw [List.mem_singleton.mp hd'] at hd
          exact absurd hd hzx

/-- The loop ends with an empty heap. -/
theorem drained_drain {dependents : Text → List Text} {s : Draining} {rounds : ℕ}
    (hrank : ∀ x, (ofLex (rank x)).2 = x)
    (hdependents : ∀ d x, (dependents d).count x = (required x).count d)
    (hkeys : ∀ x, required x ≠ [] → x ∈ keys) (h : Drained keys required rank s)
    (hrounds : keys.length ≤ s.ordered.length + rounds) :
    Drained keys required rank (drain rank dependents rounds s) ∧
      (drain rank dependents rounds s).ready = [] := by
  induction rounds generalizing s with
  | zero =>
    refine ⟨h, ?_⟩
    obtain ⟨hnodup, hsub⟩ := chosen_nodup h.chosen
    have hperm := (List.subperm_of_subset hnodup hsub).perm_of_length_le (by omega)
    refine List.eq_nil_iff_forall_not_mem.mpr fun e he => ?_
    obtain ⟨x, hx, -, hnot, -⟩ := (h.ready e).mp he
    exact hnot (hperm.mem_iff.mpr hx)
  | succ rounds ih =>
    unfold drain
    split
    · rename_i hpop
      exact ⟨h, heappop_none hpop⟩
    · rename_i e rest hpop
      refine ih (drained_step hrank hdependents hkeys h hpop) ?_
      rw [List.length_append, List.length_singleton]
      omega

end Loop

/-! ## Components of a key -/

section Lookup

variable {definitions definitions' : List Definition}

lemma lookup_eq_some (hnodup : (definitions.map (·.key)).Nodup) {key : Text} {d : Definition} :
    lookup definitions key = some d ↔ d ∈ definitions ∧ d.key = key := by
  unfold lookup
  constructor
  · intro h
    have hkey := List.find?_some h
    exact ⟨List.mem_of_find?_eq_some h, by simpa using hkey⟩
  · rintro ⟨hd, rfl⟩
    cases hfind : definitions.find? fun e => e.key = d.key with
    | none => exact absurd (decide_eq_true rfl) (List.find?_eq_none.mp hfind d hd)
    | some e =>
      have he := List.mem_of_find?_eq_some hfind
      have hkey : e.key = d.key := by simpa using List.find?_some hfind
      rw [List.inj_on_of_nodup_map hnodup he hd hkey]

lemma lookup_perm (hperm : definitions'.Perm definitions)
    (hnodup : (definitions.map (·.key)).Nodup) : lookup definitions' = lookup definitions := by
  have hnodup' : (definitions'.map (·.key)).Nodup := (hperm.map _).nodup_iff.mpr hnodup
  funext key
  refine Option.ext fun d => ?_
  rw [lookup_eq_some hnodup', lookup_eq_some hnodup, hperm.mem_iff]

lemma requiredBy_eq (hnodup : (definitions.map (·.key)).Nodup) (key : Text) :
    requiredBy definitions key =
      ((lookup definitions key).map (·.requiredComponentKeys)).getD [] := by
  cases hlookup : lookup definitions key with
  | none =>
    have hnone := List.find?_eq_none.mp hlookup
    have hempty : definitions.filter (·.key = key) = [] := List.filter_eq_nil_iff.mpr hnone
    unfold requiredBy
    rw [hempty]
    rfl
  | some d =>
    obtain ⟨hd, rfl⟩ := (lookup_eq_some hnodup).mp hlookup
    unfold requiredBy
    rw [filter_key_eq_singleton hnodup hd]
    simp

lemma mem_keys_of_requiredBy {key : Text} (h : requiredBy definitions key ≠ []) :
    key ∈ definitions.map (·.key) := by
  obtain ⟨r, hr⟩ := List.exists_mem_of_ne_nil _ h
  obtain ⟨d, hd, rfl, -⟩ := mem_requiredBy.mp hr
  exact List.mem_map_of_mem hd

lemma rankOf_snd (orderAttribute : OrderAttribute) (key : Text) :
    (ofLex (rankOf definitions orderAttribute key)).2 = key := rfl

lemma rankOf_injective (orderAttribute : OrderAttribute) :
    Function.Injective (rankOf definitions orderAttribute) :=
  fun _ _ h => congrArg (fun e => (ofLex e).2) h

end Lookup

/-! ## The loop on definitions -/

/-- A key is there twice. -/
def HasDuplicate (definitions : List Definition) : Prop := ¬ (definitions.map (·.key)).Nodup

/-- A dependency is not there. -/
def MissesDependency (definitions : List Definition) : Prop :=
  ∃ d ∈ definitions, ∃ key ∈ d.requiredComponentKeys, key ∉ definitions.map (·.key)

/-- A component requires itself, by some steps. -/
def HasCycle (definitions : List Definition) : Prop := ∃ key, Cyclic (requiredBy definitions) key

/-- The state in which the loop ends. -/
def final (definitions : List Definition) (orderAttribute : OrderAttribute) (g : Degrees) :
    Draining :=
  drain (rankOf definitions orderAttribute) g.dependents (definitions.map (·.key)).length
    ⟨g.indegree, ((definitions.map (·.key)).filter fun key => g.indegree key = 0).map
      (rankOf definitions orderAttribute), []⟩

section Final

variable {definitions : List Definition} {g : Degrees}

lemma final_spec (orderAttribute : OrderAttribute) (hnodup : (definitions.map (·.key)).Nodup)
    (hg : degrees (definitions.map (·.key)) definitions ⟨fun _ => 0, fun _ => []⟩ = .ok g) :
    Drained (definitions.map (·.key)) (requiredBy definitions)
      (rankOf definitions orderAttribute) (final definitions orderAttribute g) ∧
      (final definitions orderAttribute g).ready = [] := by
  obtain ⟨-, hcounted⟩ := degrees_spec hg
  have hindegree : ∀ x, g.indegree x = (requiredBy definitions x).length := fun x => by
    rw [hcounted.indegree, zero_add]
  refine drained_drain (rankOf_snd orderAttribute) (fun d x => ?_)
    (fun x => mem_keys_of_requiredBy) ⟨each_nil, fun x => ?_, ?_, fun e => ?_⟩ (by simp)
  · rw [hcounted.dependents, List.count_nil, zero_add]
  · show g.indegree x = _
    rw [hindegree]
    simp
  · exact (hnodup.filter _).map (rankOf_injective orderAttribute)
  · simp only [List.mem_map, List.mem_filter, decide_eq_true_eq, hindegree]
    constructor
    · rintro ⟨x, ⟨hx, hzero⟩, rfl⟩
      have hnil : requiredBy definitions x = [] :=
        List.length_eq_zero_iff.mp (by exact_mod_cast hzero)
      exact ⟨x, hx, rfl, List.not_mem_nil, fun d hd => hnil ▸ hd⟩
    · rintro ⟨x, hx, rfl, -, hnone⟩
      refine ⟨x, ⟨hx, ?_⟩, rfl⟩
      have hnil : requiredBy definitions x = [] :=
        List.eq_nil_iff_forall_not_mem.mpr fun d hd => absurd (hnone d hd) List.not_mem_nil
      exact_mod_cast congrArg List.length hnil

variable {orderAttribute : OrderAttribute}

lemma perm_of_full (hnodup : (definitions.map (·.key)).Nodup)
    (hg : degrees (definitions.map (·.key)) definitions ⟨fun _ => 0, fun _ => []⟩ = .ok g)
    (hfull : (final definitions orderAttribute g).ordered.length =
      (definitions.map (·.key)).length) :
    (final definitions orderAttribute g).ordered.Perm (definitions.map (·.key)) := by
  obtain ⟨hnodup', hsub⟩ := chosen_nodup (final_spec orderAttribute hnodup hg).1.chosen
  exact (List.subperm_of_subset hnodup' hsub).perm_of_length_le hfull.ge

/-- When all components were taken, there is no cycle. -/
lemma not_hasCycle_of_full (hnodup : (definitions.map (·.key)).Nodup)
    (hg : degrees (definitions.map (·.key)) definitions ⟨fun _ => 0, fun _ => []⟩ = .ok g)
    (hfull : (final definitions orderAttribute g).ordered.length =
      (definitions.map (·.key)).length) : ¬ HasCycle definitions := by
  rintro ⟨key, hcycle⟩
  have hordered := chosen_ordered (final_spec orderAttribute hnodup hg).1.chosen
  refine not_cyclic_of_each hordered ((perm_of_full hnodup hg hfull).mem_iff.mpr ?_) hcycle
  obtain ⟨d, hd, -⟩ := TransGen.head'_iff.mp hcycle
  exact mem_keys_of_requiredBy (List.ne_nil_of_mem hd)

/-- When some were not, there is one. -/
lemma hasCycle_of_short (hnodup : (definitions.map (·.key)).Nodup)
    (hg : degrees (definitions.map (·.key)) definitions ⟨fun _ => 0, fun _ => []⟩ = .ok g)
    (hshort : (final definitions orderAttribute g).ordered.length ≠
      (definitions.map (·.key)).length) : HasCycle definitions := by
  obtain ⟨hdrained, hempty⟩ := final_spec orderAttribute hnodup hg
  obtain ⟨hknown, -⟩ := degrees_spec hg
  obtain ⟨hnodup', hsub⟩ := chosen_nodup hdrained.chosen
  have hleft : (definitions.map (·.key)).filter
      (· ∉ (final definitions orderAttribute g).ordered) ≠ [] := by
    intro hnil
    have hall : definitions.map (·.key) ⊆ (final definitions orderAttribute g).ordered := by
      intro x hx
      by_contra hnot
      have hmem : x ∈ (definitions.map (·.key)).filter
          (· ∉ (final definitions orderAttribute g).ordered) :=
        List.mem_filter.mpr ⟨hx, decide_eq_true hnot⟩
      rw [hnil] at hmem
      exact List.not_mem_nil hmem
    exact hshort (le_antisymm (List.subperm_of_subset hnodup' hsub).length_le
      (List.subperm_of_subset hnodup hall).length_le)
  obtain ⟨a, -, hcycle⟩ := exists_cycle (r := fun a d => d ∈ requiredBy definitions a) hleft
    fun a ha => by
      obtain ⟨hkey, hnot⟩ := List.mem_filter.mp ha
      by_contra hnone
      have hready : rankOf definitions orderAttribute a ∈
          (final definitions orderAttribute g).ready := by
        refine (hdrained.ready _).mpr ⟨a, hkey, rfl, of_decide_eq_true hnot, fun d hd => ?_⟩
        by_contra hd'
        obtain ⟨e, he, -, hmem⟩ := mem_requiredBy.mp hd
        exact hnone ⟨d, List.mem_filter.mpr ⟨hknown e he hmem, decide_eq_true hd'⟩, hd⟩
      rw [hempty] at hready
      exact List.not_mem_nil hready
  exact ⟨a, hcycle⟩

end Final

/-! ## The order -/

section Order

variable {definitions definitions' : List Definition} {orderAttribute : OrderAttribute}

lemma order_eq : orderComponentDefinitions definitions orderAttribute =
    if ¬ (definitions.map (·.key)).Nodup then .error .duplicateKey
    else if definitions.map (·.key) = [] then .error .noComponents
    else degrees (definitions.map (·.key)) definitions ⟨fun _ => 0, fun _ => []⟩ >>= fun g =>
      if (final definitions orderAttribute g).ordered.length ≠ (definitions.map (·.key)).length then
        .error (.circularComponentDependency (((definitions.map (·.key)).filter fun key =>
          0 < (final definitions orderAttribute g).indegree key).insertionSort (· ≤ ·)))
      else .ok ((final definitions orderAttribute g).ordered.filterMap (lookup definitions)) := rfl

/-- What a returned order is. -/
lemma order_spec {ordered : List Definition}
    (h : orderComponentDefinitions definitions orderAttribute = .ok ordered) :
    ¬ HasDuplicate definitions ∧ definitions ≠ [] ∧ ¬ MissesDependency definitions ∧
      ¬ HasCycle definitions ∧ ∃ keys, keys.Perm (definitions.map (·.key)) ∧
        Each (Chosen (definitions.map (·.key)) (requiredBy definitions)
          (rankOf definitions orderAttribute)) keys ∧
        ordered = keys.filterMap (lookup definitions) := by
  rw [order_eq] at h
  split at h
  · exact nomatch h
  · rename_i hnodup
    split at h
    · exact nomatch h
    · rename_i hne
      obtain ⟨g, hg, h⟩ := bind_eq_ok.mp h
      split at h
      · exact nomatch h
      · rename_i hfull
        obtain rfl := Except.ok.inj h
        have hfull : (final definitions orderAttribute g).ordered.length =
            (definitions.map (·.key)).length := not_not.mp hfull
        refine ⟨hnodup, fun hnil => hne (by rw [hnil]; rfl), ?_,
          not_hasCycle_of_full (not_not.mp hnodup) hg hfull, _,
          perm_of_full (not_not.mp hnodup) hg hfull,
          (final_spec orderAttribute (not_not.mp hnodup) hg).1.chosen, rfl⟩
        rintro ⟨d, hd, key, hkey, hnot⟩
        exact hnot ((degrees_spec hg).1 d hd hkey)

/-- An order is refused for a reason only. -/
lemma order_ok (orderAttribute : OrderAttribute) (hdup : ¬ HasDuplicate definitions)
    (hne : definitions ≠ [])
    (hknown : ¬ MissesDependency definitions) (hcycle : ¬ HasCycle definitions) :
    ∃ ordered, orderComponentDefinitions definitions orderAttribute = .ok ordered := by
  have hsub : ∀ d ∈ definitions, d.requiredComponentKeys ⊆ definitions.map (·.key) := by
    intro d hd key hkey
    by_contra hnot
    exact hknown ⟨d, hd, key, hkey, hnot⟩
  obtain ⟨g, hg⟩ := degrees_ok hsub ⟨fun _ => 0, fun _ => []⟩
  have hfull : (final definitions orderAttribute g).ordered.length =
      (definitions.map (·.key)).length := by
    by_contra hshort
    exact hcycle (hasCycle_of_short (not_not.mp hdup) hg hshort)
  refine ⟨(final definitions orderAttribute g).ordered.filterMap (lookup definitions), ?_⟩
  have hnodup : ¬ ¬ (definitions.map (·.key)).Nodup := hdup
  rw [order_eq, if_neg hnodup, if_neg (by simpa using hne)]
  exact bind_eq_ok.mpr ⟨g, hg, if_neg (not_not.mpr hfull)⟩

lemma map_key_filterMap (hnodup : (definitions.map (·.key)).Nodup) {keys : List Text}
    (hkeys : keys ⊆ definitions.map (·.key)) :
    (keys.filterMap (lookup definitions)).map (·.key) = keys := by
  induction keys with
  | nil => rfl
  | cons key keys ih =>
    obtain ⟨hkey, hrest⟩ := List.cons_subset.mp hkeys
    obtain ⟨d, hd, rfl⟩ := List.mem_map.mp hkey
    rw [List.filterMap_cons_some ((lookup_eq_some hnodup).mpr ⟨hd, rfl⟩), List.map_cons, ih hrest]

/-- Every component is there once. -/
lemma perm_filterMap (hnodup : (definitions.map (·.key)).Nodup) {keys : List Text}
    (hperm : keys.Perm (definitions.map (·.key))) :
    (keys.filterMap (lookup definitions)).Perm definitions := by
  refine (hperm.filterMap _).trans (List.Perm.of_eq ?_)
  have hsome : ∀ d ∈ definitions, (lookup definitions ∘ (·.key)) d = some d :=
    fun d hd => (lookup_eq_some hnodup).mpr ⟨hd, rfl⟩
  rw [List.filterMap_map, List.filterMap_congr hsome, List.filterMap_some]

lemma chosen_unique {keys : List Text} {required : Text → List Text} {rank : Text → Entry}
    (hrank : Function.Injective rank) {xs ys : List Text}
    (hxs : Each (Chosen keys required rank) xs) (hys : Each (Chosen keys required rank) ys)
    (hlength : xs.length = ys.length) : xs = ys := by
  refine each_unique (fun l a b ha hb => ?_) hxs hys hlength
  exact hrank (le_antisymm (ha.least b hb.mem hb.notMem hb.after)
    (hb.least a ha.mem ha.notMem ha.after))

/-- The order in which the components are given does not matter. -/
lemma order_perm (hperm : definitions'.Perm definitions) {ordered : List Definition}
    (h : orderComponentDefinitions definitions orderAttribute = .ok ordered) :
    orderComponentDefinitions definitions' orderAttribute = .ok ordered := by
  obtain ⟨hdup, hne, hknown, hcycle, keys, hkeys, hchosen, rfl⟩ := order_spec h
  have hnodup := not_not.mp hdup
  have hkeysPerm := hperm.map (·.key)
  have hlookup := lookup_perm hperm hnodup
  have hnodup' : (definitions'.map (·.key)).Nodup := hkeysPerm.nodup_iff.mpr hnodup
  have hrequired : requiredBy definitions' = requiredBy definitions := by
    funext key
    rw [requiredBy_eq hnodup, requiredBy_eq hnodup', hlookup]
  have hrank : rankOf definitions' orderAttribute = rankOf definitions orderAttribute := by
    funext key
    unfold rankOf
    rw [hlookup]
  have hknown' : ¬ MissesDependency definitions' := by
    rintro ⟨d, hd, key, hkey, hnot⟩
    exact hknown ⟨d, hperm.mem_iff.mp hd, key, hkey, fun hmem => hnot (hkeysPerm.mem_iff.mpr hmem)⟩
  have hcycle' : ¬ HasCycle definitions' := by
    unfold HasCycle
    rw [hrequired]
    exact hcycle
  have hne' : definitions' ≠ [] := fun hnil => hne (List.Perm.nil_eq (hnil ▸ hperm)).symm
  obtain ⟨ordered', h'⟩ :=
    order_ok orderAttribute (not_not.mpr hnodup') hne' hknown' hcycle'
  obtain ⟨-, -, -, -, keys', hkeys', hchosen', rfl⟩ := order_spec h'
  have hsame : Each (Chosen (definitions.map (·.key)) (requiredBy definitions)
      (rankOf definitions orderAttribute)) keys' := by
    refine hchosen'.mono fun l a ha => ?_
    rw [hrequired, hrank] at ha
    exact ⟨hkeysPerm.mem_iff.mp ha.mem, ha.notMem, ha.after,
      fun b hb => ha.least b (hkeysPerm.mem_iff.mpr hb)⟩
  have heq : keys' = keys := chosen_unique (rankOf_injective orderAttribute) hsame hchosen
    (by rw [hkeys'.length_eq, hkeysPerm.length_eq, hkeys.length_eq])
  rw [h', heq, hlookup]

/-- Every component comes after the components that it requires. -/
def AfterDependencies (ordered : List Definition) : Prop :=
  ∀ l₁ d l₂, ordered = l₁ ++ d :: l₂ → ∀ key ∈ d.requiredComponentKeys, ∃ e ∈ l₁, e.key = key

lemma order_after {ordered : List Definition}
    (h : orderComponentDefinitions definitions orderAttribute = .ok ordered) :
    ordered.Perm definitions ∧ AfterDependencies ordered := by
  obtain ⟨hdup, -, -, -, keys, hkeys, hchosen, rfl⟩ := order_spec h
  have hnodup := not_not.mp hdup
  have hperm := perm_filterMap hnodup hkeys
  refine ⟨hperm, fun l₁ d l₂ hsplit key hkey => ?_⟩
  have hmap := map_key_filterMap hnodup hkeys.subset
  rw [hsplit, List.map_append, List.map_cons] at hmap
  have hd : d ∈ definitions := by
    rw [← hperm.mem_iff, hsplit]
    exact List.mem_append_right _ List.mem_cons_self
  have hafter := (hchosen _ _ _ hmap.symm).after key (mem_requiredBy.mpr ⟨d, hd, rfl, hkey⟩)
  obtain ⟨e, he, rfl⟩ := List.mem_map.mp hafter
  exact ⟨e, he, rfl⟩

end Order

/-! ## The registry -/

/-- One component requires another. -/
def ComponentRegistry.Requires (registry : ComponentRegistry) (a b : Text) : Prop :=
  b ∈ requiredBy registry.definitions a

lemma not_hasCycle (registry : ComponentRegistry) : ¬ HasCycle registry.definitions := by
  rintro ⟨key, hcycle⟩
  have hacyclic := registry.acyclic
  unfold isAcyclic at hacyclic
  cases hvisit : visitAll (definitionGraph registry.definitions)
      (registry.definitions.map (·.key)) with
  | error e =>
    rw [hvisit] at hacyclic
    cases hacyclic
  | ok done =>
    obtain ⟨hclosed, hmem⟩ := visitAll_spec hvisit
    have hordered : Ordered (requiredBy registry.definitions) done := by
      refine hclosed.each.mono fun l a ha d hd => ?_
      obtain ⟨ds, hds, hall⟩ := ha
      unfold definitionGraph at hds
      dsimp only at hds
      split at hds
      · obtain rfl := Except.ok.inj hds
        exact (hall d hd).1
      · cases hds
    refine not_cyclic_of_each hordered ((hmem key).mpr ⟨key, ?_, ReflTransGen.refl⟩) hcycle
    obtain ⟨d, hd, -⟩ := TransGen.head'_iff.mp hcycle
    exact mem_keys_of_requiredBy (List.ne_nil_of_mem hd)

section Registry

variable {registry : ComponentRegistry} {scope : BackupScope}
  {enabledProducts : List ProductOwner} {eligible : List Definition}

/-- What is eligible is registered, and what it requires is eligible. -/
lemma resolve_spec (h : registry.resolve scope enabledProducts = .ok eligible) :
    (∀ d ∈ eligible, d ∈ registry.definitions) ∧
      ∀ d ∈ eligible, ∀ key ∈ d.requiredComponentKeys, key ∈ eligible.map (·.key) := by
  unfold ComponentRegistry.resolve at h
  obtain ⟨selected, -, h⟩ := bind_eq_ok.mp h
  dsimp only at h
  split at h
  · rename_i hclosed
    obtain rfl := Except.ok.inj h
    have hperm := List.perm_insertionSort (fun d e : Definition =>
      rankOf (registry.definitions.filter fun d => scope ∈ d.scopeEligibility ∧
        (d.productOwner = .shared ∨ d.productOwner ∈ selected)) .exportOrder d.key ≤
      rankOf (registry.definitions.filter fun d => scope ∈ d.scopeEligibility ∧
        (d.productOwner = .shared ∨ d.productOwner ∈ selected)) .exportOrder e.key)
      (registry.definitions.filter fun d => scope ∈ d.scopeEligibility ∧
        (d.productOwner = .shared ∨ d.productOwner ∈ selected))
    refine ⟨fun d hd => (List.mem_filter.mp (hperm.mem_iff.mp hd)).1, fun d hd key hkey => ?_⟩
    exact (hperm.map _).mem_iff.mpr (hclosed d (hperm.mem_iff.mp hd) key hkey)
  · exact nomatch h

lemma edges_eq {key : Text} {ds : List Text} :
    (requestGraph registry eligible).edges key = .ok ds ↔
      ∃ d, registry.get key = some d ∧ key ∈ eligible.map (·.key) ∧
        ds = d.requiredComponentKeys := by
  simp only [requestGraph]
  cases hget : registry.get key with
  | none => simp
  | some d =>
    by_cases hmem : key ∈ eligible.map (·.key)
    · simp only [if_pos hmem, Except.ok.injEq, Option.some.injEq]
      constructor
      · rintro rfl
        exact ⟨d, rfl, hmem, rfl⟩
      · rintro ⟨e, rfl, -, rfl⟩
        rfl
    · simp only [if_neg hmem, reduceCtorEq, false_iff, not_exists, not_and]
      intro e he hkey
      exact absurd hkey hmem

lemma requiredBy_get {key : Text} {d : Definition} (h : registry.get key = some d) :
    requiredBy registry.definitions key = d.requiredComponentKeys := by
  have hlookup : lookup registry.definitions key = some d := h
  rw [requiredBy_eq registry.nodup, hlookup]
  rfl

lemma leads_iff {a b : Text} (h : ∀ d ∈ eligible, d ∈ registry.definitions) :
    (requestGraph registry eligible).Leads a b ↔
      a ∈ eligible.map (·.key) ∧ registry.Requires a b := by
  unfold Dependencies.Graph.Leads ComponentRegistry.Requires
  constructor
  · rintro ⟨ds, hds, hb⟩
    obtain ⟨d, hd, hmem, rfl⟩ := edges_eq.mp hds
    exact ⟨hmem, by rwa [requiredBy_get hd]⟩
  · rintro ⟨hmem, hb⟩
    obtain ⟨d, hd, rfl⟩ := List.mem_map.mp hmem
    have hget : registry.get d.key = some d := (lookup_eq_some registry.nodup).mpr ⟨h d hd, rfl⟩
    rw [requiredBy_get hget] at hb
    exact ⟨_, edges_eq.mpr ⟨d, hget, hmem, rfl⟩, hb⟩

/-- What an eligible component requires is eligible. -/
lemma eligible_of_requires (h : registry.resolve scope enabledProducts = .ok eligible) {a b : Text}
    (ha : a ∈ eligible.map (·.key)) (hab : registry.Requires a b) : b ∈ eligible.map (·.key) := by
  obtain ⟨hsub, hclosed⟩ := resolve_spec h
  obtain ⟨d, hd, rfl⟩ := List.mem_map.mp ha
  obtain ⟨e, he, hkey, hb⟩ := mem_requiredBy.mp hab
  obtain rfl := List.inj_on_of_nodup_map registry.nodup he (hsub d hd) hkey
  exact hclosed e hd b hb

lemma reach_iff (h : registry.resolve scope enabledProducts = .ok eligible) {a b : Text}
    (ha : a ∈ eligible.map (·.key)) :
    ReflTransGen (requestGraph registry eligible).Leads a b ↔
      ReflTransGen registry.Requires a b := by
  obtain ⟨hsub, -⟩ := resolve_spec h
  have hle : (requestGraph registry eligible).Leads ≤ registry.Requires :=
    fun x y hxy => ((leads_iff hsub).mp hxy).2
  refine ⟨ReflTransGen.mono hle a b, fun hab => ?_⟩
  have hboth : ReflTransGen (requestGraph registry eligible).Leads a b ∧
      b ∈ eligible.map (·.key) := by
    induction hab with
    | refl => exact ⟨ReflTransGen.refl, ha⟩
    | tail _ hstep ih =>
      exact ⟨ih.1.tail ((leads_iff hsub).mpr ⟨ih.2, hstep⟩), eligible_of_requires h ih.2 hstep⟩
  exact hboth.1

/-- The closure of a request that is eligible is what the request requires. -/
lemma closure_spec (h : registry.resolve scope enabledProducts = .ok eligible)
    {requested : List Text} {selected : List Definition}
    (hselected : requestedDependencyClosure registry eligible requested = .ok selected) :
    (∀ k ∈ requested, k ∈ eligible.map (·.key)) ∧ (selected.map (·.key)).Nodup ∧
      (∀ d ∈ selected, d ∈ registry.definitions) ∧
      ∀ key, key ∈ selected.map (·.key) ↔
        ∃ k ∈ requested, ReflTransGen registry.Requires k key := by
  obtain ⟨done, hdone, heq⟩ := bind_eq_ok.mp hselected
  obtain rfl := Except.ok.inj heq
  obtain ⟨hclosed, hmem⟩ := visitAll_spec hdone
  have htaken : ∀ key ∈ done, ∃ d, registry.get key = some d ∧ key ∈ eligible.map (·.key) := by
    intro key hkey
    obtain ⟨l₁, l₂, rfl⟩ := List.append_of_mem hkey
    obtain ⟨ds, hds, -⟩ := hclosed.each l₁ key l₂ rfl
    obtain ⟨d, hd, hmem, -⟩ := edges_eq.mp hds
    exact ⟨d, hd, hmem⟩
  have hrequested : ∀ k ∈ requested, k ∈ eligible.map (·.key) := by
    intro k hk
    obtain ⟨d, -, hmem⟩ := htaken k ((hmem k).mpr ⟨k, hk, ReflTransGen.refl⟩)
    exact hmem
  have hkeys : (done.filterMap registry.get).map (·.key) = done := by
    refine map_key_filterMap registry.nodup fun key hkey => ?_
    obtain ⟨d, hd, -⟩ := htaken key hkey
    obtain ⟨hmem', rfl⟩ := (lookup_eq_some registry.nodup).mp hd
    exact List.mem_map_of_mem hmem'
  refine ⟨hrequested, by rw [hkeys]; exact hclosed.nodup, fun d hd => ?_, fun key => ?_⟩
  · obtain ⟨key, -, hget⟩ := List.mem_filterMap.mp hd
    exact ((lookup_eq_some registry.nodup).mp hget).1
  · rw [hkeys, hmem]
    refine exists_congr fun k => and_congr_right fun hk => ?_
    exact reach_iff h (hrequested k hk)

lemma closure_ok (h : registry.resolve scope enabledProducts = .ok eligible)
    {requested : List Text} (hrequested : ∀ k ∈ requested, k ∈ eligible.map (·.key)) :
    ∃ selected, requestedDependencyClosure registry eligible requested = .ok selected := by
  obtain ⟨hsub, hclosed⟩ := resolve_spec h
  have hreach : ∀ k ∈ requested, ∀ x,
      ReflTransGen (requestGraph registry eligible).Leads k x → x ∈ eligible.map (·.key) := by
    intro k hk x hx
    induction hx with
    | refl => exact hrequested k hk
    | tail _ hstep ih => exact eligible_of_requires h ih ((leads_iff hsub).mp hstep).2
  have hle : (requestGraph registry eligible).Leads ≤ registry.Requires :=
    fun x y hxy => ((leads_iff hsub).mp hxy).2
  obtain ⟨done, hdone⟩ := visitAll_ok (g := requestGraph registry eligible)
    (fun k hk x hx => by
      obtain ⟨d, hd, rfl⟩ := List.mem_map.mp (hreach k hk x hx)
      have hget : registry.get d.key = some d :=
        (lookup_eq_some registry.nodup).mpr ⟨hsub d hd, rfl⟩
      exact ⟨_, edges_eq.mpr ⟨d, hget, List.mem_map_of_mem hd, rfl⟩,
        fun key hkey => if_pos (hclosed d hd key hkey)⟩)
    (fun k hk x hx hcycle => not_hasCycle registry ⟨x, TransGen.mono hle x x hcycle⟩)
  exact ⟨_, bind_eq_ok.mpr ⟨done, hdone, rfl⟩⟩

end Registry

/-! ## Plans -/

section Plan

variable {registry : ComponentRegistry} {scope : BackupScope}
  {enabledProducts : List ProductOwner} {requested : List Text}

lemma forM_ok {keys : List Text} (h : ∀ key ∈ keys, ∃ d, registry.get key = some d) :
    (keys.forM fun key => do let _ ← definitionForKey registry key) = .ok () := by
  induction keys with
  | nil => rfl
  | cons key keys ih =>
    obtain ⟨⟨d, hd⟩, hrest⟩ := List.forall_mem_cons.mp h
    have hone : definitionForKey registry key = .ok d := by
      unfold definitionForKey
      rw [hd]
    rw [List.forM]
    exact bind_eq_ok.mpr ⟨(), bind_eq_ok.mpr ⟨d, hone, rfl⟩, ih hrest⟩

/-- The parts of a plan that was requested. -/
lemma plan_parts {plan : ResolvedComponentPlan}
    (h : resolveComponentPlan registry scope enabledProducts (some requested) = .ok plan) :
    ∃ eligible selected, registry.resolve scope enabledProducts = .ok eligible ∧
      requestedDependencyClosure registry eligible requested.eraseDups = .ok selected ∧
      orderComponentDefinitions selected .exportOrder = .ok plan.exportComponents ∧
      orderComponentDefinitions selected .importOrder = .ok plan.importComponents := by
  obtain ⟨selected, hselected, h⟩ := bind_eq_ok.mp h
  obtain ⟨exported, hexport, h⟩ := bind_eq_ok.mp h
  obtain ⟨imported, himport, h⟩ := bind_eq_ok.mp h
  obtain rfl := Except.ok.inj h
  obtain ⟨eligible, heligible, h⟩ := bind_eq_ok.mp hselected
  obtain ⟨-, -, hclosure⟩ := bind_eq_ok.mp h
  exact ⟨eligible, selected, heligible, hclosure, hexport, himport⟩

/-- A plan has the components that the request reaches. -/
lemma plan_spec {plan : ResolvedComponentPlan}
    (h : resolveComponentPlan registry scope enabledProducts (some requested) = .ok plan)
    (key : Text) :
    (key ∈ plan.exportComponents.map (·.key) ↔
      ∃ k ∈ requested, ReflTransGen registry.Requires k key) ∧
    (key ∈ plan.importComponents.map (·.key) ↔
      ∃ k ∈ requested, ReflTransGen registry.Requires k key) := by
  obtain ⟨eligible, selected, heligible, hclosure, hexport, himport⟩ := plan_parts h
  obtain ⟨-, -, -, hmem⟩ := closure_spec heligible hclosure
  have hreach : key ∈ selected.map (·.key) ↔
      ∃ k ∈ requested, ReflTransGen registry.Requires k key := by
    rw [hmem]
    exact exists_congr fun k => and_congr_left fun _ => List.mem_eraseDups
  exact ⟨((order_after hexport).1.map _).mem_iff.trans hreach,
    ((order_after himport).1.map _).mem_iff.trans hreach⟩

/-- There is a plan exactly when something eligible was requested, and nothing else. -/
lemma plan_ok_iff :
    (∃ plan, resolveComponentPlan registry scope enabledProducts (some requested) = .ok plan) ↔
      requested ≠ [] ∧ ∃ eligible, registry.resolve scope enabledProducts = .ok eligible ∧
        ∀ k ∈ requested, k ∈ eligible.map (·.key) := by
  constructor
  · rintro ⟨plan, hplan⟩
    obtain ⟨eligible, selected, heligible, hclosure, hexport, -⟩ := plan_parts hplan
    obtain ⟨hrequested, -⟩ := closure_spec heligible hclosure
    refine ⟨?_, eligible, heligible, fun k hk => hrequested k (List.mem_eraseDups.mpr hk)⟩
    rintro rfl
    obtain rfl := Except.ok.inj hclosure
    exact (order_spec hexport).2.1 rfl
  · rintro ⟨hne, eligible, heligible, hrequested⟩
    obtain ⟨hsub, -⟩ := resolve_spec heligible
    have hdups : ∀ k ∈ requested.eraseDups, k ∈ eligible.map (·.key) :=
      fun k hk => hrequested k (List.mem_eraseDups.mp hk)
    obtain ⟨selected, hclosure⟩ := closure_ok heligible hdups
    obtain ⟨-, hnodup, hregistered, hmem⟩ := closure_spec heligible hclosure
    have hselectedNe : selected ≠ [] := by
      rintro rfl
      obtain ⟨k, hk⟩ := List.exists_mem_of_ne_nil _ hne
      exact List.not_mem_nil ((hmem k).mpr ⟨k, List.mem_eraseDups.mpr hk, ReflTransGen.refl⟩)
    have hknown : ¬ MissesDependency selected := by
      rintro ⟨d, hd, key, hkey, hnot⟩
      obtain ⟨k, hk, hreach⟩ := (hmem d.key).mp (List.mem_map_of_mem hd)
      refine hnot ((hmem key).mpr ⟨k, hk, hreach.tail ?_⟩)
      exact mem_requiredBy.mpr ⟨d, hregistered d hd, rfl, hkey⟩
    have hcycle : ¬ HasCycle selected := by
      rintro ⟨key, hcycle⟩
      refine not_hasCycle registry ⟨key, TransGen.mono (fun a b hab => ?_) key key hcycle⟩
      obtain ⟨d, hd, hkey, hb⟩ := mem_requiredBy.mp hab
      exact mem_requiredBy.mpr ⟨d, hregistered d hd, hkey, hb⟩
    obtain ⟨exported, hexport⟩ :=
      order_ok .exportOrder (not_not.mpr hnodup) hselectedNe hknown hcycle
    obtain ⟨imported, himport⟩ :=
      order_ok .importOrder (not_not.mpr hnodup) hselectedNe hknown hcycle
    have hforM : (requested.eraseDups.forM fun key => do
        let _ ← definitionForKey registry key) = .ok () := forM_ok fun key hkey => by
      obtain ⟨d, hd, rfl⟩ := List.mem_map.mp (hdups key hkey)
      exact ⟨d, (lookup_eq_some registry.nodup).mpr ⟨hsub d hd, rfl⟩⟩
    have hselect : selectComponents registry scope enabledProducts (some requested) =
        .ok selected :=
      bind_eq_ok.mpr ⟨eligible, heligible, bind_eq_ok.mpr ⟨(), hforM, hclosure⟩⟩
    exact ⟨⟨exported, imported⟩, bind_eq_ok.mpr ⟨selected, hselect,
      bind_eq_ok.mpr ⟨exported, hexport, bind_eq_ok.mpr ⟨imported, himport, rfl⟩⟩⟩⟩

end Plan

/-- An order has every component after those it requires, whatever the order in which they are
given, and is refused exactly for a duplicate, a missing dependency, a cycle or no components at
all; and the plan of a request has the components that the request reaches. -/
theorem component_order :
    (∀ definitions orderAttribute ordered,
      orderComponentDefinitions definitions orderAttribute = .ok ordered →
        ordered.Perm definitions ∧ AfterDependencies ordered ∧
          ∀ definitions' : List Definition, definitions'.Perm definitions →
            orderComponentDefinitions definitions' orderAttribute = .ok ordered) ∧
    (∀ definitions orderAttribute,
      (∃ e, orderComponentDefinitions definitions orderAttribute = .error e) ↔
        HasDuplicate definitions ∨ MissesDependency definitions ∨ HasCycle definitions ∨
          definitions = []) ∧
    ∀ (registry : ComponentRegistry) scope enabledProducts requested,
      ((∃ plan, resolveComponentPlan registry scope enabledProducts (some requested) = .ok plan) ↔
        requested ≠ [] ∧ ∃ eligible, registry.resolve scope enabledProducts = .ok eligible ∧
          ∀ k ∈ requested, k ∈ eligible.map (·.key)) ∧
      ∀ plan, resolveComponentPlan registry scope enabledProducts (some requested) = .ok plan →
        ∀ key, (key ∈ plan.exportComponents.map (·.key) ↔
            ∃ k ∈ requested, ReflTransGen registry.Requires k key) ∧
          (key ∈ plan.importComponents.map (·.key) ↔
            ∃ k ∈ requested, ReflTransGen registry.Requires k key) := by
  refine ⟨fun definitions orderAttribute ordered h => ?_, fun definitions orderAttribute => ?_,
    fun registry scope enabledProducts requested =>
      ⟨plan_ok_iff, fun plan hplan => plan_spec hplan⟩⟩
  · obtain ⟨hperm, hafter⟩ := order_after h
    exact ⟨hperm, hafter, fun definitions' hperm' => order_perm hperm' h⟩
  · constructor
    · rintro ⟨e, he⟩
      by_contra hnone
      simp only [not_or] at hnone
      obtain ⟨hdup, hknown, hcycle, hne⟩ := hnone
      obtain ⟨ordered, hok⟩ := order_ok orderAttribute hdup hne hknown hcycle
      exact nomatch he.symm.trans hok
    · intro hreason
      cases horder : orderComponentDefinitions definitions orderAttribute with
      | error e => exact ⟨e, rfl⟩
      | ok ordered =>
        obtain ⟨hdup, hne, hknown, hcycle, -⟩ := order_spec horder
        rcases hreason with h | h | h | h
        · exact absurd h hdup
        · exact absurd h hknown
        · exact absurd h hcycle
        · exact absurd h hne

/-- Without any component there is nothing wrong, and no order. -/
theorem component_order_empty :
    orderComponentDefinitions [] .exportOrder = .error .noComponents ∧ ¬ HasDuplicate [] ∧
      ¬ MissesDependency [] ∧ ¬ HasCycle [] := by
  refine ⟨rfl, not_not.mpr List.nodup_nil, ?_, ?_⟩
  · rintro ⟨d, hd, -⟩
    exact List.not_mem_nil hd
  · rintro ⟨key, hcycle⟩
    obtain ⟨d, hd, -⟩ := TransGen.head'_iff.mp hcycle
    exact List.not_mem_nil hd

end NexaPos.Backups.Pipeline
