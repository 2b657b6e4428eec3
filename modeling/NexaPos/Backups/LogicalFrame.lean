import NexaPos.Backups.Logical
import NexaPos.Core.State
import Mathlib.Data.List.Flatten

/-!
# What the logical engine accepts

Rows are identified by their model and public identity.  Among such rows the comparison of one
record looks for that record, the comparison of a model accepts exactly the same rows in any order,
and the export of components holds the rows of each model once.
-/

namespace NexaPos.Backups

/-- A check of every element passes when each one does. -/
lemma forM_eq_ok {α ε : Type} {f : α → Except ε PUnit} {l : List α} :
    l.forM f = .ok ⟨⟩ ↔ ∀ x ∈ l, f x = .ok ⟨⟩ := by
  induction l with
  | nil => exact iff_of_true rfl fun _ h => absurd h List.not_mem_nil
  | cons x l ih =>
    show (f x >>= fun _ => l.forM f) = _ ↔ _
    cases hx : f x with
    | error e => simp [bind, Except.bind, hx]
    | ok u => simpa [bind, Except.bind, hx] using ih

@[simp] lemma mem_ofModel {rows : Rows} {m : ModelLabel} {r : LogicalRecord} :
    r ∈ ofModel rows m ↔ r ∈ rows ∧ r.model = m := by
  simp [ofModel]

lemma nodup_of_keys {rows : Rows} (h : (rows.map (·.key)).Nodup) : rows.Nodup := h.of_map _

/-- The rows that a record names. -/
lemma identified_eq (rows : Rows) (r : LogicalRecord) :
    (ofModel rows r.model).filter (fun x => x.publicId == r.publicId) =
      rows.filter fun x => x.key = r.key := by
  rw [ofModel, List.filter_filter]
  refine List.filter_congr fun x _ => ?_
  rw [Bool.eq_iff_iff]
  simp [LogicalRecord.key, and_comm]

/-- Rows with one key are one row. -/
lemma eq_of_key {rows : Rows} (h : (rows.map (·.key)).Nodup) {x y : LogicalRecord} (hx : x ∈ rows)
    (hy : y ∈ rows) (hkey : x.key = y.key) : x = y :=
  List.inj_on_of_nodup_map h hx hy hkey

/-- What the identity of a record finds. -/
lemma identified_cases {rows : Rows} (h : (rows.map (·.key)).Nodup) (r : LogicalRecord) :
    (rows.filter (fun x => x.key = r.key) = [] ∧ ∀ x ∈ rows, x.key ≠ r.key) ∨
    ∃ x ∈ rows, x.key = r.key ∧ rows.filter (fun x => x.key = r.key) = [x] := by
  by_cases hr : ∃ x ∈ rows, x.key = r.key
  · obtain ⟨x, hx, hkey⟩ := hr
    refine .inr ⟨x, hx, hkey, ?_⟩
    rw [← hkey]
    exact filter_key_eq_singleton h hx
  · push Not at hr
    refine .inl ⟨List.filter_eq_nil_iff.mpr fun x hx => ?_, hr⟩
    simpa using hr x hx

lemma eq_of_identified {x r : LogicalRecord} (hkey : x.key = r.key) (hfields : x.fields = r.fields) :
    x = r := by
  obtain ⟨hm, hi⟩ := Prod.mk.inj hkey
  cases x
  cases r
  simp_all

/-- A record is accepted when its row is there as it stands. -/
lemma compareRecord_eq_ok {rows : Rows} (h : (rows.map (·.key)).Nodup) {r : LogicalRecord} :
    compareRecord rows r = .ok ⟨⟩ ↔ r ∈ rows := by
  rw [compareRecord, identified_eq]
  rcases identified_cases h r with ⟨hnone, hne⟩ | ⟨x, hx, hkey, hone⟩
  · rw [hnone]
    exact iff_of_false nofun fun hr => hne r hr rfl
  · rw [hone]
    show (if x.fields = r.fields then _ else _) = _ ↔ _
    by_cases hfields : x.fields = r.fields
    · rw [if_pos hfields]
      exact iff_of_true rfl (eq_of_identified hkey hfields ▸ hx)
    · rw [if_neg hfields]
      refine iff_of_false nofun fun hr => hfields ?_
      rw [eq_of_key h hx hr hkey]

/-- As many rows as records and every record among them: these are the same rows. -/
lemma perm_iff_subset {rows records : Rows} (h : records.Nodup) :
    rows.Perm records ↔ rows.length = records.length ∧ ∀ r ∈ records, r ∈ rows := by
  constructor
  · intro hperm
    exact ⟨hperm.length_eq, fun r hr => hperm.mem_iff.mpr hr⟩
  · rintro ⟨hlength, hsub⟩
    have hsubperm : records.Subperm rows := List.subperm_of_subset h hsub
    exact (hsubperm.perm_of_length_le (by omega)).symm

/-- A model is accepted when its rows are those of the records. -/
lemma compareModel_eq_ok {rows records : Rows} (h : (rows.map (·.key)).Nodup)
    (hrecords : records.Nodup) {m : ModelLabel} :
    compareModel rows records m = .ok ⟨⟩ ↔ (ofModel rows m).Perm (ofModel records m) := by
  have hnodup : (ofModel records m).Nodup := hrecords.filter _
  rw [compareModel, perm_iff_subset hnodup]
  by_cases hlength : (ofModel rows m).length = (ofModel records m).length
  · rw [if_neg (not_not_intro hlength)]
    show (ofModel records m).forM (compareRecord rows) = _ ↔ _
    rw [forM_eq_ok]
    constructor
    · intro hall
      refine ⟨hlength, fun r hr => ?_⟩
      have hmem := (compareRecord_eq_ok h).mp (hall r hr)
      exact mem_ofModel.mpr ⟨hmem, (mem_ofModel.mp hr).2⟩
    · rintro ⟨-, hall⟩ r hr
      exact (compareRecord_eq_ok h).mpr (mem_ofModel.mp (hall r hr)).1
  · rw [if_pos hlength]
    exact iff_of_false nofun fun hperm => hlength hperm.1

/-- The comparison of the reference components, model by model. -/
lemma validate_eq_ok {rows : Rows} {p : PreparedLogicalRestore} (h : (rows.map (·.key)).Nodup)
    (hrecords : p.records.Nodup) :
    validateNonMutatingDependencies rows p = .ok ⟨⟩ ↔
      ∀ key ∈ p.componentKeys, nonMutating key = true → ∀ m ∈ modelsOf key,
        (ofModel rows m).Perm (ofModel p.records m) := by
  rw [validateNonMutatingDependencies, forM_eq_ok]
  refine forall₂_congr fun key _ => ?_
  by_cases hkey : nonMutating key = true
  · simp only [hkey, if_true, forall_const, forM_eq_ok]
    exact forall₂_congr fun m _ => compareModel_eq_ok h hrecords
  · rw [if_neg hkey]
    exact iff_of_true rfl fun hpos => absurd hpos hkey

/-! ## What an export holds -/

lemma perm_exportModel (rows : Rows) (m : ModelLabel) : (exportModel rows m).Perm (ofModel rows m) :=
  List.perm_insertionSort _ _

lemma model_of_mem_exportModel {rows : Rows} {m : ModelLabel} {r : LogicalRecord}
    (h : r ∈ exportModel rows m) : r.model = m :=
  (mem_ofModel.mp ((perm_exportModel rows m).mem_iff.mp h)).2

lemma ofModel_exportModel (rows : Rows) (m n : ModelLabel) :
    ofModel (exportModel rows m) n = if m = n then exportModel rows m else [] := by
  split
  case isTrue h =>
    refine List.filter_eq_self.mpr fun r hr => ?_
    simp [model_of_mem_exportModel hr, h]
  case isFalse h =>
    refine List.filter_eq_nil_iff.mpr fun r hr => ?_
    simp [model_of_mem_exportModel hr, h]

/-- The models of components are exported one after the other. -/
lemma exportComponents_eq (rows : Rows) (keys : List ComponentKey) :
    exportComponents rows keys = (keys.flatMap modelsOf).flatMap (exportModel rows) := by
  rw [exportComponents, List.flatMap_assoc]

/-- The export holds each model once. -/
lemma ofModel_exportComponents {rows : Rows} {keys : List ComponentKey}
    (hnodup : (keys.flatMap modelsOf).Nodup) {m : ModelLabel} (hm : m ∈ keys.flatMap modelsOf) :
    ofModel (exportComponents rows keys) m = exportModel rows m := by
  rw [exportComponents_eq]
  generalize keys.flatMap modelsOf = models at hnodup hm
  induction models with
  | nil => exact absurd hm List.not_mem_nil
  | cons n models ih =>
    obtain ⟨hn, hmodels⟩ := List.nodup_cons.mp hnodup
    have happend : ofModel ((n :: models).flatMap (exportModel rows)) m =
        ofModel (exportModel rows n) m ++ ofModel (models.flatMap (exportModel rows)) m := by
      rw [List.flatMap_cons]
      exact List.filter_append _ _
    rw [happend, ofModel_exportModel]
    rcases List.mem_cons.mp hm with rfl | hm
    · have hrest : ofModel (models.flatMap (exportModel rows)) m = [] := by
        refine List.filter_eq_nil_iff.mpr fun r hr => ?_
        obtain ⟨k, hk, hr⟩ := List.mem_flatMap.mp hr
        have hne : k ≠ m := fun h => hn (h ▸ hk)
        simp [model_of_mem_exportModel hr, hne]
      rw [hrest, if_pos rfl, List.append_nil]
    · have hne : n ≠ m := fun h => hn (h ▸ hm)
      rw [if_neg hne, List.nil_append, ih hmodels hm]

/-- The records of an export are distinct. -/
lemma nodup_exportComponents {rows : Rows} {keys : List ComponentKey} (h : rows.Nodup)
    (hnodup : (keys.flatMap modelsOf).Nodup) : (exportComponents rows keys).Nodup := by
  rw [exportComponents_eq, List.nodup_flatMap]
  refine ⟨fun m _ => (perm_exportModel rows m).nodup_iff.mpr (h.filter _), ?_⟩
  refine hnodup.imp fun {m n} hne r hm hn => hne ?_
  exact (model_of_mem_exportModel hm).symm.trans (model_of_mem_exportModel hn)

/-- The components of a scope hold each model once. -/
lemma nodup_models_of_resolve {scope : BackupScope} {enabled : List ProductOwner}
    {components : List ComponentDefinition} (h : resolveComponents scope enabled = .ok components) :
    ((components.map (·.key)).flatMap modelsOf).Nodup := by
  have hsub : ∃ keep, components.Perm (componentDefinitions.filter keep) := by
    revert h
    cases scope <;> simp only [resolveComponents, bind, Except.bind, pure, Except.pure] <;>
      split <;> intro h <;> cases h <;> exact ⟨_, List.perm_insertionSort _ _⟩
  obtain ⟨keep, hperm⟩ := hsub
  have hall : ((componentDefinitions.map (·.key)).flatMap modelsOf).Nodup := by decide
  refine ((hperm.map _).flatMap_right _).nodup_iff.mpr (hall.sublist ?_)
  exact (List.filter_sublist.map _).flatMap _

end NexaPos.Backups
