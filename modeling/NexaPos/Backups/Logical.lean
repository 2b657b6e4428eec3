import NexaPos.Backups.Registry

/-!
# Logical export and restore of a tenant

The rows of one tenant, as the logical exporter sees them: a model, a public identity and the
values of the exported fields.  A foreign key is written by the public identity of its target,
which stands for its primary key.  The specifications of the models (`ModelExportSpec`, with what
each relation does when its target is deleted) are a parameter, and so is the model layer:
`full_clean` and `save` of a model accept a row or refuse it, and say with which values it is
stored.

The engine is `LogicalRestoreEngine`: reference-only and dependency-only components are compared
with the live rows, replaceable ones are deleted and created again from the records.
-/

namespace NexaPos.Backups

/-- The canonical value of an exported field. -/
inductive Value
  | null
  | text (s : String)
  | number (n : ℤ)
  /-- In microseconds. -/
  | instant (t : ℕ)
  | relation (model : ModelLabel) (publicId : ℕ)
  | relations (model : ModelLabel) (publicIds : List ℕ)
  deriving DecidableEq, Repr

abbrev Fields := List (String × Value)

/-- A row of the tenant, and the record that the export writes for it. -/
structure LogicalRecord where
  model : ModelLabel
  publicId : ℕ
  fields : Fields
  deriving DecidableEq, Repr

abbrev Rows := List LogicalRecord

/-- `_record_key`. -/
def LogicalRecord.key (r : LogicalRecord) : ModelLabel × ℕ := (r.model, r.publicId)

/-- The value of a field; `null` where the row has none. -/
def LogicalRecord.field (r : LogicalRecord) (name : String) : Value :=
  (r.fields.lookup name).getD .null

/-- `on_delete` of a foreign key. -/
inductive OnDelete
  | cascade
  | protect
  | setNull
  deriving DecidableEq, Repr

/-- `RelationExportSpec`, with the `on_delete` of the field. -/
structure RelationExportSpec where
  fieldName : String
  target : ModelLabel
  nullable : Bool := false
  onDelete : OnDelete := .protect
  deriving DecidableEq, Repr

/-- A reference to a user is resolved among all users. -/
def RelationExportSpec.globalReference (s : RelationExportSpec) : Bool := s.target == .user

structure ManyToManyExportSpec where
  fieldName : String
  target : ModelLabel
  deriving DecidableEq, Repr

/-- `ModelExportSpec`: what the restore reads of it. -/
structure ModelExportSpec where
  scalarFields : List String := []
  jsonFields : List String := []
  relationFields : List RelationExportSpec := []
  manyToManyFields : List ManyToManyExportSpec := []
  mediaFields : List String := []
  deriving DecidableEq, Repr

abbrev Specs := ModelLabel → ModelExportSpec

/-- `full_clean(validate_unique=False, validate_constraints=False)` and `save(force_insert=True)`
of the model, among the rows that are there: the stored values, or a refusal. -/
abbrev ModelLayer := Rows → LogicalRecord → Option Fields

/-- The business and the global users that records can refer to. -/
structure Directory where
  business : ℕ
  users : List ℕ
  deriving DecidableEq, Repr

/-- `PreparedLogicalRestore`; the component of a record is that of its model. -/
structure PreparedLogicalRestore where
  records : Rows
  componentKeys : List ComponentKey
  deriving DecidableEq, Repr

/-- The `issue_code` of a refusal. -/
inductive RestoreIssue
  | dependencyCount (model : ModelLabel)
  | dependencyContent (model : ModelLabel) (publicId : ℕ)
  | identityUnresolved
  | deleteFailed
  | identityCollision
  | relationMissing
  | relationInvalid
  | globalRelationUnresolved
  | crossTenantRelation
  | relationUnresolved
  | recordWriteFailed
  | recordCountMismatch
  | logicalMismatch
  | componentInvalid
  deriving DecidableEq, Repr

/-- The models of a component, in the order of its definition. -/
def modelsOf (key : ComponentKey) : List ModelLabel :=
  ((componentDefinition key).map (·.includedModelLabels)).getD []

def behavior (key : ComponentKey) : RestoreBehavior :=
  ((componentDefinition key).map (·.restoreBehavior)).getD .nonRestorable

/-- `_query_for_spec`: the rows of a model. -/
def ofModel (rows : Rows) (m : ModelLabel) : Rows := rows.filter fun r => r.model == m

/-! ## Components that are compared -/

/-- A component that the restore compares and leaves alone. -/
def nonMutating (key : ComponentKey) : Bool :=
  behavior key == .referenceOnly || behavior key == .dependencyOnly

/-- One record against the row it names. -/
def compareRecord (rows : Rows) (r : LogicalRecord) : Except RestoreIssue Unit :=
  match (ofModel rows r.model).filter fun x => x.publicId == r.publicId with
  | [x] => if x.fields = r.fields then .ok () else .error (.dependencyContent r.model r.publicId)
  | _ => .error .identityUnresolved

/-- One model: as many rows as records, and every record as it stands. -/
def compareModel (rows records : Rows) (m : ModelLabel) : Except RestoreIssue Unit := do
  if (ofModel rows m).length ≠ (ofModel records m).length then
    throw (.dependencyCount m)
  (ofModel records m).forM (compareRecord rows)

/-- `validate_non_mutating_dependencies`. -/
def validateNonMutatingDependencies (rows : Rows) (p : PreparedLogicalRestore) :
    Except RestoreIssue Unit :=
  p.componentKeys.forM fun key =>
    if nonMutating key then (modelsOf key).forM (compareModel rows p.records) else pure ()

/-- `_seed_non_mutating_components`: the identities that records can refer to at the start. -/
def seedNonMutatingComponents (rows : Rows) (p : PreparedLogicalRestore) :
    Except RestoreIssue (List (ModelLabel × ℕ)) := do
  validateNonMutatingDependencies rows p
  pure (((p.componentKeys.filter nonMutating).flatMap modelsOf).flatMap fun m =>
    (ofModel p.records m).map (·.key))

/-! ## Deletion -/

/-- The row has a foreign key of the given kind to one of the keys. -/
def refersTo (specs : Specs) (kind : OnDelete) (keys : List (ModelLabel × ℕ))
    (r : LogicalRecord) : Bool :=
  (specs r.model).relationFields.any fun s =>
    s.onDelete == kind &&
      match r.field s.fieldName with
      | .relation m i => keys.contains (m, i)
      | _ => false

/-- The rows that go with the given ones, one cascade further. -/
def cascadeOnce (specs : Specs) (rows : Rows) (keys : List (ModelLabel × ℕ)) :
    List (ModelLabel × ℕ) :=
  (rows.filter fun r => keys.contains r.key || refersTo specs .cascade keys r).map (·.key)

/-- All rows that go with the rows of a model. -/
def doomedKeys (specs : Specs) (rows : Rows) (m : ModelLabel) : List (ModelLabel × ℕ) :=
  (cascadeOnce specs rows)^[rows.length] ((ofModel rows m).map (·.key))

/-- A nulled foreign key, or a list of links without the deleted ones. -/
def forget (specs : Specs) (keys : List (ModelLabel × ℕ)) (r : LogicalRecord) : LogicalRecord :=
  { r with fields := r.fields.map fun (name, v) =>
      match v with
      | .relation m i =>
        if keys.contains (m, i) &&
            (specs r.model).relationFields.any (fun s => s.fieldName == name &&
              s.onDelete == .setNull) then
          (name, .null)
        else
          (name, v)
      | .relations m is => (name, .relations m (is.filter fun i => !keys.contains (m, i)))
      | _ => (name, v) }

/-- `model.objects.filter(business=business).delete()`. -/
def deleteModel (specs : Specs) (rows : Rows) (m : ModelLabel) : Except RestoreIssue Rows :=
  let keys := doomedKeys specs rows m
  if rows.any (refersTo specs .protect keys) then
    .error .deleteFailed
  else
    .ok ((rows.filter fun r => !keys.contains r.key).map (forget specs keys))

/-- The models a restore replaces, in the order of deletion. -/
def deletionOrder (p : PreparedLogicalRestore) : List ModelLabel :=
  (p.componentKeys.reverse.filter replaceable).flatMap fun key => (modelsOf key).reverse

/-- The models a restore replaces, in the order of creation. -/
def creationOrder (p : PreparedLogicalRestore) : List ModelLabel :=
  (p.componentKeys.filter replaceable).flatMap modelsOf

/-! ## Creation -/

/-- `_resolve_relation`. -/
def resolveRelation (dir : Directory) (identities : List (ModelLabel × ℕ))
    (s : RelationExportSpec) : Value → Except RestoreIssue Unit
  | .null => if s.nullable then .ok () else .error .relationMissing
  | .relation m i =>
    if m ≠ s.target then
      .error .relationInvalid
    else if s.globalReference then
      if dir.users.contains i then .ok () else .error .globalRelationUnresolved
    else if s.target = .business then
      if i = dir.business then .ok () else .error .crossTenantRelation
    else if identities.contains (m, i) then
      .ok ()
    else
      .error .relationUnresolved
  | _ => .error .relationInvalid

/-- The restored rows so far, and the identities that records can refer to. -/
structure Restoring where
  rows : Rows
  identities : List (ModelLabel × ℕ)
  deriving DecidableEq, Repr

/-- `_create_record`; the links of many-to-many fields are set afterwards. -/
def createRecord (specs : Specs) (models : ModelLayer) (dir : Directory) (x : Restoring)
    (r : LogicalRecord) : Except RestoreIssue Restoring := do
  if x.rows.any fun y => y.key == r.key then
    throw .identityCollision
  (specs r.model).relationFields.forM fun s =>
    resolveRelation dir x.identities s (r.field s.fieldName)
  match models x.rows r with
  | some fields =>
    pure { rows := x.rows ++ [{ r with fields := fields }], identities := r.key :: x.identities }
  | none => throw .recordWriteFailed

/-- The links of the many-to-many fields of one record, which must all be resolved. -/
def resolveLinks (specs : Specs) (identities : List (ModelLabel × ℕ)) (r : LogicalRecord) :
    Except RestoreIssue Unit :=
  (specs r.model).manyToManyFields.forM fun s =>
    match r.field s.fieldName with
    | .relations m is =>
      is.forM fun i =>
        if identities.contains (m, i) then pure () else throw .relationUnresolved
    | _ => throw .relationInvalid

/-- `LogicalRestoreEngine.mutate`. -/
def mutate (specs : Specs) (models : ModelLayer) (dir : Directory) (rows : Rows)
    (p : PreparedLogicalRestore) : Except RestoreIssue Rows := do
  let identities ← seedNonMutatingComponents rows p
  let emptied ← (deletionOrder p).foldlM (deleteModel specs) rows
  let restored ← ((creationOrder p).flatMap (ofModel p.records)).foldlM
    (createRecord specs models dir) { rows := emptied, identities := identities }
  (p.records.filter fun r => (creationOrder p).contains r.model).forM
    (resolveLinks specs restored.identities)
  pure restored.rows

/-- The rows that `mutate` deletes, with those that go in a cascade. -/
def deletedRows (specs : Specs) (rows : Rows) (p : PreparedLogicalRestore) : Rows :=
  match (deletionOrder p).foldlM (deleteModel specs) rows with
  | .ok emptied => rows.filter fun r => !emptied.any fun x => x.key == r.key
  | .error _ => []

/-! ## Verification -/

/-- `verify` of one record. -/
def verifyRecord (rows : Rows) (r : LogicalRecord) : Except RestoreIssue Unit :=
  match (ofModel rows r.model).filter fun x => x.publicId == r.publicId with
  | [x] => if x.fields = r.fields then .ok () else .error .logicalMismatch
  | _ => .error .identityUnresolved

/-- `verify` of one model. -/
def verifyModel (rows records : Rows) (m : ModelLabel) : Except RestoreIssue Unit := do
  if (ofModel rows m).length ≠ (ofModel records m).length then
    throw .recordCountMismatch
  (ofModel records m).forM (verifyRecord rows)

/-- `LogicalRestoreEngine.verify`. -/
def verifyRestored (rows : Rows) (p : PreparedLogicalRestore) : Except RestoreIssue Unit :=
  p.componentKeys.forM fun key => do
    (modelsOf key).forM (verifyModel rows p.records)
    if behavior key = .nonRestorable then
      throw .componentInvalid

/-! ## Export -/

/-- The records of one model, in the order of the export: by public identity. -/
def exportModel (rows : Rows) (m : ModelLabel) : Rows :=
  (ofModel rows m).insertionSort fun a b => a.publicId ≤ b.publicId

/-- The records of the given components. -/
def exportComponents (rows : Rows) (keys : List ComponentKey) : Rows :=
  keys.flatMap fun key => (modelsOf key).flatMap (exportModel rows)

end NexaPos.Backups
