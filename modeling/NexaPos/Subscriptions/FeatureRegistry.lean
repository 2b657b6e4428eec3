import Mathlib.Data.Finset.Dedup
import Mathlib.Data.Finset.Lattice.Basic
import Mathlib.Data.List.Basic
import Mathlib.Logic.Function.Basic

/-!
# Commercial modules

A plan sells modules.  A module is switched on by a field of the plan, or follows from another
module, and it works only with the modules it depends on.  The registry of modules is data of the
program; the resolution of a plan is written for any registry, as the tests of the program run it
with others.

A field that is the empty text counts as missing, as in the source.
-/

namespace NexaPos.Subscriptions

/-- `ModuleDefinition`, with the fields that decide about access. -/
structure ModuleDefinition where
  key : String
  label : String
  planField : Option String := none
  derivedFrom : Option String := none
  dependencies : List String := []
  deriving DecidableEq, Repr

namespace ModuleDefinition

/-- `definition.plan_field`, if it is true. -/
def field? (d : ModuleDefinition) : Option String := d.planField.filter (· ≠ "")

/-- `definition.derived_from`, if it is true. -/
def source? (d : ModuleDefinition) : Option String := d.derivedFrom.filter (· ≠ "")

/-- `_dependency_keys`. -/
def dependencyKeys (d : ModuleDefinition) : List String :=
  match d.source? with
  | some source => if source ∈ d.dependencies then d.dependencies else d.dependencies ++ [source]
  | none => d.dependencies

lemma source_mem_dependencyKeys {d : ModuleDefinition} {source : String}
    (h : d.source? = some source) : source ∈ d.dependencyKeys := by
  unfold dependencyKeys
  rw [h]
  dsimp only
  split
  · assumption
  · exact List.mem_append_right _ (List.mem_singleton_self source)

end ModuleDefinition

/-- A registry: a mapping from the keys of its definitions. -/
structure FeatureRegistry where
  definitions : List ModuleDefinition
  nodup_keys : (definitions.map ModuleDefinition.key).Nodup

namespace FeatureRegistry

variable (registry : FeatureRegistry)

/-- The keys, in the order of the definitions. -/
def keys : List String := registry.definitions.map ModuleDefinition.key

/-- `get_module_definition`. -/
def getModuleDefinition (key : String) : Option ModuleDefinition :=
  registry.definitions.find? (·.key = key)

/-- `_dependency_keys(FEATURE_REGISTRY[key])`. -/
def dependencies (key : String) : List String :=
  ((registry.getModuleDefinition key).map ModuleDefinition.dependencyKeys).getD []

variable {registry}

lemma key_mem_keys {d : ModuleDefinition} (hd : d ∈ registry.definitions) :
    d.key ∈ registry.keys :=
  List.mem_map_of_mem hd

lemma getModuleDefinition_eq_some {key : String} {d : ModuleDefinition} :
    registry.getModuleDefinition key = some d ↔ d ∈ registry.definitions ∧ d.key = key := by
  constructor
  · intro h
    exact ⟨List.mem_of_find?_eq_some h, by simpa using List.find?_some h⟩
  · rintro ⟨hd, rfl⟩
    cases hfind : registry.getModuleDefinition d.key with
    | none => simpa using List.find?_eq_none.mp hfind d hd
    | some e =>
      have he : e.key = d.key := by simpa using List.find?_some hfind
      exact congrArg some (List.inj_on_of_nodup_map registry.nodup_keys
        (List.mem_of_find?_eq_some hfind) hd he)

lemma getModuleDefinition_isSome {key : String} :
    (registry.getModuleDefinition key).isSome ↔ key ∈ registry.keys := by
  simp [getModuleDefinition, keys, List.find?_isSome]

lemma dependencies_key {d : ModuleDefinition} (hd : d ∈ registry.definitions) :
    registry.dependencies d.key = d.dependencyKeys := by
  rw [dependencies, getModuleDefinition_eq_some.mpr ⟨hd, rfl⟩]
  rfl

end FeatureRegistry

/-! ## The registry of the program -/

/-- `_DEFINITIONS`. -/
def moduleDefinitions : List ModuleDefinition :=
  [{ key := "pos_core", label := "POS Core", planField := some "feature_sales" },
    { key := "wms", label := "Workshop Management System", planField := some "feature_wms" },
    { key := "customers", label := "Customers", derivedFrom := some "pos_core",
      dependencies := ["pos_core"] },
    { key := "users_staff", label := "Users & Staff", derivedFrom := some "pos_core",
      dependencies := ["pos_core"] },
    { key := "inventory", label := "Inventory Management",
      planField := some "feature_inventory", dependencies := ["pos_core"] },
    { key := "suppliers", label := "Suppliers", planField := some "feature_suppliers",
      dependencies := ["pos_core"] },
    { key := "purchases", label := "Purchasing", planField := some "feature_purchases",
      dependencies := ["inventory", "suppliers"] },
    { key := "stock_transfers", label := "Stock Transfers",
      planField := some "feature_transfers", dependencies := ["inventory"] },
    { key := "expenses", label := "Expenses", planField := some "feature_expenses",
      dependencies := ["pos_core"] },
    { key := "tailoring", label := "Tailoring Operations",
      planField := some "feature_tailoring_module", dependencies := ["pos_core", "inventory"] },
    { key := "customer_credit", label := "Customer Credit",
      planField := some "feature_customer_credit", dependencies := ["pos_core"] },
    { key := "advanced_reports", label := "Advanced Reports",
      planField := some "feature_advanced_reports", dependencies := ["pos_core"] },
    { key := "audit_logs", label := "Audit Logs", planField := some "feature_audit_logs",
      dependencies := ["pos_core"] },
    { key := "barcode_printing", label := "Barcode Printing",
      planField := some "feature_barcode_printing", dependencies := ["pos_core"] },
    { key := "custom_roles", label := "Custom Roles", planField := some "feature_custom_roles",
      dependencies := ["users_staff"] },
    { key := "api_access", label := "API Access", planField := some "feature_api_access" }]

/-- `FEATURE_REGISTRY`. -/
def featureRegistry : FeatureRegistry := ⟨moduleDefinitions, by decide +kernel⟩

end NexaPos.Subscriptions
