import NexaPos.Subscriptions.FeatureRegistry
import Mathlib.Data.Finset.Basic
import Mathlib.Data.Finset.Dedup
import Mathlib.Data.Finset.Filter
import Mathlib.Data.Finset.Sort
import Mathlib.Data.String.Basic

/-!
# What a plan entitles to

`_cyclic_module_keys` searches the registry depth-first for modules that depend on themselves;
`calculate_effective_modules` drops them, adds the derived modules and drops modules whose
dependencies are missing, until a pass changes nothing.

A pass goes through a Python set, whose order depends on the process.  `SetOrder` stands for it.
-/

namespace NexaPos.Subscriptions

/-! ## Denials -/

/-- `DenialCode`. -/
inductive DenialCode
  | authenticationRequired
  | membershipRequired
  | businessInactive
  | subscriptionMissing
  | subscriptionReadOnly
  | subscriptionSuspended
  | subscriptionInactive
  | trialInvalid
  | planInactive
  | moduleDisabled
  | moduleDependencyMissing
  | permissionDenied
  | scopeDenied
  | unknownModule
  deriving DecidableEq, Repr

/-- `AccessDenial`. -/
structure AccessDenial where
  code : DenialCode
  message : String
  moduleKey : Option String := none
  missingDependencies : List String := []
  deriving DecidableEq, Repr

/-! ## The search for cycles -/

/-- The variables of `_cyclic_module_keys`. -/
structure Search where
  states : String → ℕ
  stack : List String
  stackIndexes : String → ℕ
  cyclic : Finset String

namespace Search

/-- Nothing is visited. -/
def start : Search := ⟨fun _ => 0, [], fun _ => 0, ∅⟩

/-- The visit of a module begins. -/
def enter (s : Search) (key : String) : Search where
  states := Function.update s.states key 1
  stackIndexes := Function.update s.stackIndexes key s.stack.length
  stack := s.stack ++ [key]
  cyclic := s.cyclic

/-- The visit of a module ends. -/
def leave (s : Search) (key : String) : Search where
  stack := s.stack.dropLast
  stackIndexes := Function.update s.stackIndexes key 0
  states := Function.update s.states key 2
  cyclic := s.cyclic

/-- `cyclic.update(stack[stack_indexes[dependency]:])`. -/
def mark (s : Search) (dependency : String) : Search :=
  { s with cyclic := s.cyclic ∪ (s.stack.drop (s.stackIndexes dependency)).toFinset }

end Search

/-- A round of the loop of `visit`, with the visit of a dependency. -/
def visitDependency (registry : FeatureRegistry) (visit : Search → String → Search) (s : Search)
    (dependency : String) : Search :=
  if dependency ∉ registry.keys then s
  else if s.states dependency = 0 then visit s dependency
  else if s.states dependency = 1 then s.mark dependency
  else s

/-- `visit`; the argument bounds the depth of the recursion. -/
def visit (registry : FeatureRegistry) : ℕ → Search → String → Search
  | 0, s, _ => s
  | fuel + 1, s, key =>
    ((registry.dependencies key).foldl (visitDependency registry (visit registry fuel))
      (s.enter key)).leave key

/-- `_cyclic_module_keys`: no visit is deeper than there are modules. -/
def cyclicModuleKeys (registry : FeatureRegistry) : Finset String :=
  (registry.keys.foldl (fun s key =>
    if s.states key = 0 then visit registry registry.keys.length s key else s) .start).cyclic

/-! ## Resolution -/

/-- The orders in which the passes go through a set of modules. -/
structure SetOrder where
  order : ℕ → Finset String → List String
  nodup : ∀ n s, (order n s).Nodup
  mem : ∀ n s k, k ∈ order n s ↔ k ∈ s

/-- The alphabetical order. -/
instance : Inhabited SetOrder :=
  ⟨⟨fun _ s => s.sort (· ≤ ·), fun _ s => s.sort_nodup _, fun _ _ _ => Finset.mem_sort _⟩⟩

/-- `raw_enabled`, where `features` is `bool(getattr(plan, field, False))`. -/
def rawEnabled (registry : FeatureRegistry) (features : String → Bool) : Finset String :=
  ((registry.definitions.filter fun d => d.field?.any features).map ModuleDefinition.key).toFinset

/-- A module that is derived from an effective module is added. -/
def addIfDerived (cyclic effective : Finset String) (d : ModuleDefinition) : Finset String :=
  if d.key ∉ cyclic ∧ d.source?.any (· ∈ effective) then insert d.key effective else effective

/-- The first loop of a pass. -/
def addDerived (registry : FeatureRegistry) (cyclic effective : Finset String) : Finset String :=
  registry.definitions.foldl (addIfDerived cyclic) effective

/-- A module that misses a dependency is removed. -/
def removeIfUnmet (registry : FeatureRegistry) (effective : Finset String) (key : String) :
    Finset String :=
  if ∀ d ∈ registry.dependencies key, d ∈ effective then effective else effective.erase key

/-- The second loop of a pass. -/
def pruneUnmet (registry : FeatureRegistry) (keys : List String) (effective : Finset String) :
    Finset String :=
  keys.foldl (removeIfUnmet registry) effective

/-- A pass of the loop. -/
def resolvePass (registry : FeatureRegistry) (cyclic : Finset String)
    (order : Finset String → List String) (effective : Finset String) : Finset String :=
  let added := addDerived registry cyclic effective
  pruneUnmet registry (order added) added

/-- The loop, for a number of passes: `none` if they do not reach the fixed point. -/
def resolvePasses (registry : FeatureRegistry) (cyclic : Finset String) (orders : SetOrder) :
    ℕ → ℕ → Finset String → Option (Finset String)
  | 0, _, _ => none
  | passes + 1, n, effective =>
    let next := resolvePass registry cyclic (orders.order n) effective
    if next = effective then some next
    else resolvePasses registry cyclic orders passes (n + 1) next

/-- The denial of a module that is not effective. -/
def moduleDenial (cyclic rawEnabled effective : Finset String) (d : ModuleDefinition) :
    AccessDenial :=
  let missing := d.dependencyKeys.filter (· ∉ effective)
  if d.key ∈ cyclic then
    { code := .moduleDependencyMissing
      message := d.label ++ " has cyclic module dependencies."
      moduleKey := some d.key
      missingDependencies := missing }
  else
    match d.source? with
    | some source =>
      { code := .moduleDependencyMissing
        message := d.label ++ " requires enabled parent modules."
        moduleKey := some d.key
        missingDependencies :=
          if source ∉ effective ∧ source ∉ missing then source :: missing else missing }
    | none =>
      if d.key ∉ rawEnabled then
        { code := .moduleDisabled
          message := d.label ++ " is not included in this plan."
          moduleKey := some d.key }
      else
        { code := .moduleDependencyMissing
          message := d.label ++ " has unmet module dependencies."
          moduleKey := some d.key
          missingDependencies := missing }

/-- `ModuleResolution`. -/
structure ModuleResolution where
  effectiveModules : Finset String
  rawEnabledModules : Finset String
  denials : List (String × AccessDenial)

/-- The resolution that `calculate_effective_modules` returns for the effective modules. -/
def moduleResolution (registry : FeatureRegistry) (features : String → Bool)
    (effective : Finset String) : ModuleResolution where
  effectiveModules := effective
  rawEnabledModules := rawEnabled registry features
  denials := (registry.definitions.filter fun d => d.key ∉ effective).map fun d =>
    (d.key, moduleDenial (cyclicModuleKeys registry) (rawEnabled registry features) effective d)

/-- `calculate_effective_modules`, for a number of passes. -/
def calculateEffectiveModules (registry : FeatureRegistry) (orders : SetOrder) (passes : ℕ)
    (features : String → Bool) : Option ModuleResolution :=
  (resolvePasses registry (cyclicModuleKeys registry) orders passes 0
    (rawEnabled registry features \ cyclicModuleKeys registry)).map
    (moduleResolution registry features)

end NexaPos.Subscriptions
