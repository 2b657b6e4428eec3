import NexaPos.Backups.Registry
import NexaPos.Lib.Dependencies
import NexaPos.Core.Inputs
import Mathlib.Data.Char
import Mathlib.Data.List.Lex
import Mathlib.Data.Prod.Lex

/-!
# Plans of components

A registry holds the definitions of components, which name the components that they require.  A
plan is made of the components that the scope of a backup admits, or of those that were requested
and what they require, in an order in which every component comes after what it requires: once for
the export and once for the import.
-/

namespace NexaPos.Backups.Pipeline

open Dependencies (visitAll Cyclic)

/-- `ComponentDefinition`, with the fields that a plan is made of. -/
structure Definition where
  key : Text
  productOwner : ProductOwner
  includedModelLabels : List Text := []
  requiredComponentKeys : List Text := []
  exportOrder : ℤ := 100
  importOrder : ℤ := 100
  restoreBehavior : RestoreBehavior := .replaceable
  componentVersion : Text := "1.0".toList
  scopeEligibility : List BackupScope := [.pos, .wms, .allEnabled]
  deriving DecidableEq

inductive OrderAttribute
  | exportOrder
  | importOrder
  deriving DecidableEq, Repr

/-- `getattr(definition, order_attribute)`. -/
def Definition.declaredOrder (d : Definition) : OrderAttribute → ℤ
  | .exportOrder => d.exportOrder
  | .importOrder => d.importOrder

inductive PipelineError
  /-- `ManifestBuildError` for a key that is there twice. -/
  | duplicateKey
  /-- `ManifestBuildError` for no components at all. -/
  | noComponents
  | missingComponentDependency (key dependencyKey : Text)
  | circularComponentDependency (keys : List Text)
  | unknownBackupComponent (key : Text)
  | backupScopeNotAllowed (text : String)
  deriving DecidableEq

/-! ## The order -/

/-- What is required by the components of a key. -/
def requiredBy (definitions : List Definition) (key : Text) : List Text :=
  (definitions.filter (·.key = key)).flatMap (·.requiredComponentKeys)

/-- `by_key[key]`. -/
def lookup (definitions : List Definition) (key : Text) : Option Definition :=
  definitions.find? (·.key = key)

/-- An entry of the heap. -/
abbrev Entry := ℤ ×ₗ Text

/-- `heapq.heappop`: a least entry, and the others. -/
def heappop : List Entry → Option (Entry × List Entry)
  | [] => none
  | e :: es =>
    let least := es.foldl min e
    some (least, (e :: es).erase least)

structure Degrees where
  indegree : Text → ℤ
  dependents : Text → List Text

/-- A dependency is counted, and remembered. -/
def addDependency (keys : List Text) (key : Text) (g : Degrees) (dependencyKey : Text) :
    Except PipelineError Degrees :=
  if dependencyKey ∉ keys then .error (.missingComponentDependency key dependencyKey)
  else
    .ok { indegree := Function.update g.indegree key (g.indegree key + 1)
          dependents := Function.update g.dependents dependencyKey
            (g.dependents dependencyKey ++ [key]) }

/-- The dependencies of all components. -/
def degrees (keys : List Text) (definitions : List Definition) (g : Degrees) :
    Except PipelineError Degrees :=
  definitions.foldlM (fun g d => d.requiredComponentKeys.foldlM (addDependency keys d.key) g) g

/-- One dependent fewer waits for a component. -/
def release (rank : Text → Entry) (s : (Text → ℤ) × List Entry) (dependentKey : Text) :
    (Text → ℤ) × List Entry :=
  let count := s.1 dependentKey - 1
  (Function.update s.1 dependentKey count, if count = 0 then rank dependentKey :: s.2 else s.2)

/-- What the loop over the heap goes on with. -/
structure Draining where
  indegree : Text → ℤ
  ready : List Entry
  ordered : List Text

/-- `while ready`, for so many rounds at most. -/
def drain (rank : Text → Entry) (dependents : Text → List Text) : ℕ → Draining → Draining
  | 0, s => s
  | rounds + 1, s =>
    match heappop s.ready with
    | none => s
    | some (entry, ready) =>
      let key := (ofLex entry).2
      let released := ((dependents key).insertionSort (· ≤ ·)).foldl (release rank)
        (s.indegree, ready)
      drain rank dependents rounds ⟨released.1, released.2, s.ordered ++ [key]⟩

/-- The entry of a component. -/
def rankOf (definitions : List Definition) (orderAttribute : OrderAttribute) (key : Text) : Entry :=
  toLex (((lookup definitions key).map (·.declaredOrder orderAttribute)).getD 0, key)

/-- `order_component_definitions`.  Every round takes another component, so that there are no more
rounds than components. -/
def orderComponentDefinitions (definitions : List Definition) (orderAttribute : OrderAttribute) :
    Except PipelineError (List Definition) := do
  let keys := definitions.map (·.key)
  if ¬ keys.Nodup then throw .duplicateKey
  else if keys = [] then throw .noComponents
  else
    let g ← degrees keys definitions ⟨fun _ => 0, fun _ => []⟩
    let rank := rankOf definitions orderAttribute
    let ready := (keys.filter fun key => g.indegree key = 0).map rank
    let final := drain rank g.dependents keys.length ⟨g.indegree, ready, []⟩
    if final.ordered.length ≠ keys.length then
      throw (.circularComponentDependency
        ((keys.filter fun key => 0 < final.indegree key).insertionSort (· ≤ ·)))
    else return final.ordered.filterMap (lookup definitions)

/-! ## The registry -/

/-- The graph of the definitions, for `_assert_acyclic`. -/
def definitionGraph (definitions : List Definition) : Dependencies.Graph Text Unit where
  nodes := definitions.map (·.key)
  edges key := if key ∈ definitions.map (·.key) then .ok (requiredBy definitions key) else .error ()
  check _ _ := .ok ()
  cycle _ _ := ()
  mem_nodes h := by
    split at h
    · assumption
    · exact nomatch h

/-- `_assert_acyclic`. -/
def isAcyclic (definitions : List Definition) : Bool :=
  (visitAll (definitionGraph definitions) (definitions.map (·.key))).isOk

/-- A registry, with what its construction asks. -/
structure ComponentRegistry where
  definitions : List Definition
  nodup : (definitions.map (·.key)).Nodup
  labels : (definitions.flatMap (·.includedModelLabels)).Nodup
  known : ∀ d ∈ definitions, ∀ key ∈ d.requiredComponentKeys, key ∈ definitions.map (·.key)
  acyclic : isAcyclic definitions = true

/-- `registry.get` and `registry.maybe_get`. -/
def ComponentRegistry.get (registry : ComponentRegistry) (key : Text) : Option Definition :=
  lookup registry.definitions key

/-- The products that a scope selects. -/
def selectedProducts (scope : BackupScope) (enabledProducts : List ProductOwner) :
    Except PipelineError (List ProductOwner) :=
  if ProductOwner.shared ∈ enabledProducts then
    .error (.backupScopeNotAllowed "Only POS and WMS are backup product entitlements.")
  else
    match scope with
    | .pos =>
      if ProductOwner.pos ∈ enabledProducts then .ok [.pos]
      else .error (.backupScopeNotAllowed "POS is not enabled for this business.")
    | .wms =>
      if ProductOwner.wms ∈ enabledProducts then .ok [.wms]
      else .error (.backupScopeNotAllowed "WMS is not enabled for this business.")
    | .allEnabled =>
      if enabledProducts = [] then
        .error (.backupScopeNotAllowed "No backup-enabled product is available for this business.")
      else .ok enabledProducts

/-- `registry.resolve`, with its errors as `resolve_component_plan` reports them. -/
def ComponentRegistry.resolve (registry : ComponentRegistry) (scope : BackupScope)
    (enabledProducts : List ProductOwner) : Except PipelineError (List Definition) := do
  let selected ← selectedProducts scope enabledProducts
  let resolved := registry.definitions.filter fun d =>
    scope ∈ d.scopeEligibility ∧ (d.productOwner = .shared ∨ d.productOwner ∈ selected)
  if ∀ d ∈ resolved, ∀ key ∈ d.requiredComponentKeys, key ∈ resolved.map (·.key) then
    return resolved.insertionSort fun d e =>
      rankOf resolved .exportOrder d.key ≤ rankOf resolved .exportOrder e.key
  else throw (.missingComponentDependency [] [])

/-! ## The plan -/

/-- The graph in which `_requested_dependency_closure` includes components. -/
def requestGraph (registry : ComponentRegistry) (eligible : List Definition) :
    Dependencies.Graph Text PipelineError where
  nodes := eligible.map (·.key)
  edges key :=
    match registry.get key with
    | none => .error (.unknownBackupComponent key)
    | some definition =>
      if key ∈ eligible.map (·.key) then .ok definition.requiredComponentKeys
      else
        .error (.backupScopeNotAllowed
          "A requested backup component is not eligible for the resolved scope.")
  check key dependencyKey :=
    if dependencyKey ∈ eligible.map (·.key) then .ok ()
    else if (registry.get dependencyKey).isNone then
      .error (.missingComponentDependency key dependencyKey)
    else
      .error (.backupScopeNotAllowed
        "A component dependency is not eligible for the resolved scope.")
  cycle visiting key := .circularComponentDependency ((key :: visiting).insertionSort (· ≤ ·))
  mem_nodes h := by
    split at h
    · exact nomatch h
    · split at h
      · assumption
      · exact nomatch h

/-- `_requested_dependency_closure`. -/
def requestedDependencyClosure (registry : ComponentRegistry) (eligible : List Definition)
    (requestedComponentKeys : List Text) : Except PipelineError (List Definition) := do
  let selected ← visitAll (requestGraph registry eligible) requestedComponentKeys
  return selected.filterMap registry.get

/-- `_definition_for_key`. -/
def definitionForKey (registry : ComponentRegistry) (key : Text) :
    Except PipelineError Definition :=
  match registry.get key with
  | none => .error (.unknownBackupComponent key)
  | some definition => .ok definition

/-- `ResolvedComponentPlan`; an item of a plan has the fields of its definition. -/
structure ResolvedComponentPlan where
  exportComponents : List Definition
  importComponents : List Definition

/-- What is selected for a plan. -/
def selectComponents (registry : ComponentRegistry) (scope : BackupScope)
    (enabledProducts : List ProductOwner) (requestedComponentKeys : Option (List Text)) :
    Except PipelineError (List Definition) := do
  let eligible ← registry.resolve scope enabledProducts
  match requestedComponentKeys with
  | none => return eligible
  | some keys =>
    let requested := keys.eraseDups
    requested.forM fun key => do
      let _ ← definitionForKey registry key
    requestedDependencyClosure registry eligible requested

/-- `resolve_component_plan`. -/
def resolveComponentPlan (registry : ComponentRegistry) (scope : BackupScope)
    (enabledProducts : List ProductOwner) (requestedComponentKeys : Option (List Text)) :
    Except PipelineError ResolvedComponentPlan := do
  let selected ← selectComponents registry scope enabledProducts requestedComponentKeys
  let exportComponents ← orderComponentDefinitions selected .exportOrder
  let importComponents ← orderComponentDefinitions selected .importOrder
  return ⟨exportComponents, importComponents⟩

end NexaPos.Backups.Pipeline
