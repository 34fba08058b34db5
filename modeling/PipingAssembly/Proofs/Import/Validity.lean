import PipingAssembly.Proofs.Import.Rows
import PipingAssembly.Proofs.Schema.Violations
import PipingAssembly.Proofs.Yaml.Data

/-!
# Parts of rows and the schema of parts

What a row may say is narrower than what the schema of parts allows, apart from three bounds: an id
may have any length, and the diameter and the pressure may be zero. So these three are all that the
schema can find in the document that is written for a part of a row.
-/

namespace PipingAssembly

open Json (filter_optionalField forall_mem_optionalField)
open Value (Fields find? canonicalFields optionalField)
open Yaml (AreData IsData)

namespace Part

/-! ### The data of a part -/

/-- The fields that a part may have. -/
def fieldNames : List String :=
  ["part_id", "name", "family", "dn", "pn", "end_type", "face_type", "metadata", "model_path"]

private theorem keys_optionalField {α : Type} (key : String) (write : α → Value) (o : Option α) :
    ((optionalField key write o).map (·.1)).Sublist [key] := by
  cases o with
  | none => exact List.nil_sublist _
  | some a => exact List.Sublist.refl _

private theorem keys_ite (c : Prop) [Decidable c] (key : String) (v : Value) :
    ((if c then [] else [(key, v)]).map (·.1)).Sublist [key] := by
  split
  · exact List.nil_sublist _
  · exact List.Sublist.refl _

/-- The keys of a part are field names in their order. -/
theorem keys_toFields (q : Part) : (q.toFields.map (·.1)).Sublist fieldNames := by
  simp only [toFields, List.map_append]
  exact ((((((((List.Sublist.refl ["part_id"]).append (keys_optionalField _ _ _)).append
    (List.Sublist.refl ["family"])).append (keys_optionalField _ _ _)).append
    (keys_optionalField _ _ _)).append (keys_optionalField _ _ _)).append
    (keys_optionalField _ _ _)).append (keys_ite _ _ _)).append (keys_optionalField _ _ _)

theorem isData_of_mem_toFields {q : Part} (h : q.IsOfRow) : ∀ e ∈ q.toFields, IsData 127 e.2 := by
  have hnumber (n : UInt32) : IsData 127 (.ofUInt32 n) :=
    Int.ofNat_lt.mpr (n.toNat_lt.trans (by decide))
  simp only [toFields, List.forall_mem_append, List.forall_mem_singleton,
    forall_mem_optionalField, forall_mem_ite_nil]
  refine ⟨⟨⟨⟨⟨⟨⟨⟨trivial, fun _ _ ↦ trivial⟩, trivial⟩, fun n _ ↦ hnumber n⟩,
    fun n _ ↦ hnumber n⟩, fun _ _ ↦ trivial⟩, fun _ _ ↦ trivial⟩, fun hne ↦ ?_⟩,
    fun _ _ ↦ trivial⟩
  obtain hnil | ⟨s, -, heq⟩ := h.metadata
  · exact absurd hnil hne
  · rw [heq]
    exact ⟨List.not_mem_nil, trivial, trivial⟩

/-- The document that is written for a part of a row has the fields of the part as its data. -/
theorem readData_render {q : Part} (h : q.IsOfRow) :
    Yaml.readData (Yaml.render q.toValue) = .ok q.toValue := by
  have hnodup : (q.toFields.map (·.1)).Nodup := q.keys_toFields.nodup (by decide)
  have hne : q.toFields ≠ [] := by simp [toFields]
  exact Yaml.readData_render hne (Part.areTrees_toFields h)
    (Yaml.areData_iff.mpr ⟨hnodup, isData_of_mem_toFields h⟩)

/-! ### Violations by a part -/

/-- What the schema of parts finds in a part of a row. -/
def violations (q : Part) : List Violation :=
  (if 128 < q.id.length then [⟨["part_id"], .tooLong q.id 128⟩] else []) ++
  (if q.dn = some 0 then [⟨["dn"], .tooSmall 1⟩] else []) ++
  (if q.pn = some 0 then [⟨["pn"], .tooSmall 1⟩] else [])

/-- A part has no fields but those that the schema knows. -/
private theorem furtherViolations_toFields (q : Part) {properties : List (String × Schema)}
    (h : properties.map (·.1) = fieldNames) :
    Schema.furtherViolations [] ((canonicalFields q.toFields).filter fun f ↦
      !properties.any (·.1 == f.1)) .forbidden = [] := by
  rw [Schema.furtherViolations, if_pos]
  rw [List.filter_eq_nil_iff]
  rintro ⟨key, w⟩ hf
  obtain ⟨v, hv, -⟩ := Value.exists_of_mem_canonicalFields hf
  have hknown := q.keys_toFields.subset (List.mem_map_of_mem hv)
  rw [← h, List.mem_map] at hknown
  obtain ⟨⟨_, schema⟩, hproperty, rfl⟩ := hknown
  simpa using ⟨schema, hproperty⟩

/-! ### Violations by single fields -/

section Fields

variable {fields : Fields} {key : String} {path : List String} {schema : Schema}

private theorem violations_given {v : Value} (h : fields.filter (·.1 == key) = [(key, v)]) :
    (find? (canonicalFields fields) key).toList.flatMap (schema.violations path) =
      schema.violations path v.canonical := by
  rw [Value.find?_canonicalFields_some h]
  exact List.append_nil _

private theorem violations_optional {o : Option String}
    (h : fields.filter (·.1 == key) = optionalField key .text o)
    (hschema : ∀ s ∈ o, schema.violations path (.text s) = []) :
    (find? (canonicalFields fields) key).toList.flatMap (schema.violations path) = [] := by
  rw [Value.find?_canonicalFields_optional h]
  cases o with
  | none => rfl
  | some s => exact (List.append_nil _).trans (hschema s rfl)

/-- A size violates its bound only if it is zero. -/
private theorem violations_size {o : Option UInt32}
    (h : fields.filter (·.1 == key) = optionalField key .ofUInt32 o) :
    (find? (canonicalFields fields) key).toList.flatMap
      ((Schema.integer (some 1)).violations path) =
        if o = some 0 then [⟨path, .tooSmall 1⟩] else [] := by
  rw [Value.find?_canonicalFields_optional h]
  cases o with
  | none => rfl
  | some n =>
    have hzero : (n.toNat : Int) < 1 ↔ n = 0 := by
      rw [← UInt32.toNat_inj, UInt32.toNat_zero]
      omega
    simp only [Option.map_some, Option.toList_some, List.flatMap_singleton, Value.ofUInt32,
      Value.canonical, Schema.violations_integer, hzero, Option.some.injEq]

/-- Texts under any keys are metadata. -/
private theorem violations_metadata (entries : List (String × String)) :
    (Schema.record [] [] (.each .text)).violations path
      (Value.object (entries.map fun (key, s) ↦ (key, .text s))).canonical = [] := by
  rw [Value.canonical, Schema.violations_record, Schema.propertyViolations,
    Schema.furtherViolations]
  simp only [List.filter_nil, List.map_nil, List.nil_append, List.flatMap_eq_nil_iff]
  rintro ⟨key, w⟩ hf
  obtain ⟨v, hv, rfl⟩ := Value.exists_of_mem_canonicalFields (List.mem_filter.mp hf).1
  obtain ⟨e, -, heq⟩ := List.mem_map.mp hv
  obtain ⟨rfl, rfl⟩ := Prod.mk.inj heq
  exact Schema.violations_text

end Fields

/-- The schema of parts finds nothing else in a part of a row. -/
theorem violations_toValue {q : Part} (h : q.IsOfRow) :
    Schema.part.violations [] q.toValue.canonical = q.violations := by
  have hid : q.toFields.filter (·.1 == "part_id") = [("part_id", .text q.id)] := by
    simp [toFields, filter_optionalField]
  have hname : q.toFields.filter (·.1 == "name") = optionalField "name" .text q.name := by
    simp [toFields, filter_optionalField]
  have hfamily : q.toFields.filter (·.1 == "family") = [("family", .text q.family.name)] := by
    simp [toFields, filter_optionalField]
  have hdn : q.toFields.filter (·.1 == "dn") = optionalField "dn" .ofUInt32 q.dn := by
    simp [toFields, filter_optionalField]
  have hpn : q.toFields.filter (·.1 == "pn") = optionalField "pn" .ofUInt32 q.pn := by
    simp [toFields, filter_optionalField]
  have hend : q.toFields.filter (·.1 == "end_type") =
      optionalField "end_type" .text q.endType := by
    simp [toFields, filter_optionalField]
  have hface : q.toFields.filter (·.1 == "face_type") =
      optionalField "face_type" .text q.faceType := by
    simp [toFields, filter_optionalField]
  have hmodel : q.toFields.filter (·.1 == "model_path") =
      optionalField "model_path" .text q.modelPath := by
    simp [toFields, filter_optionalField]
  have hmetadata : (find? (canonicalFields q.toFields) "metadata").toList.flatMap
      ((Schema.record [] [] (.each .text)).violations ["metadata"]) = [] := by
    by_cases hnil : q.metadata = []
    · rw [Value.find?_canonicalFields_none (q.filter_metadata.trans (if_pos hnil))]
      rfl
    · rw [violations_given (q.filter_metadata.trans (if_neg hnil)), violations_metadata]
  have hmissing : (["part_id"].filter fun r ↦
      (find? (canonicalFields q.toFields) r).isNone) = [] := by
    simp [Value.find?_canonicalFields_some hid]
  have hfamilyName : q.family.name ∈ ["pipe", "flange", "valve", "bolt", "nut", "gasket",
      "other"] := by
    cases q.family <;> decide
  rw [toValue, Value.canonical, Schema.part, Schema.violations_record, hmissing,
    furtherViolations_toFields q rfl]
  simp only [Schema.propertyViolations_cons, List.nil_append]
  rw [violations_given hid, violations_optional hname, violations_given hfamily,
    violations_size hdn, violations_size hpn, violations_optional hend, violations_optional hface,
    hmetadata, violations_optional hmodel, Schema.propertyViolations, Value.canonical_text,
    Value.canonical_text, Schema.violations_textOf h.id.1, Schema.violations_oneOf hfamilyName, violations]
  · by_cases hlong : 128 < q.id.length <;> simp [Option.filter_some, hlong]
  · exact fun _ _ ↦ Schema.violations_text
  · exact fun _ _ ↦ Schema.violations_text
  · exact fun _ _ ↦ Schema.violations_text
  · exact fun s hs ↦ Schema.violations_textOf (h.name s hs).1 none

end Part

/-! ### The verdict on a part -/

/-- The document that is written for a part of a row fits the schema of parts exactly if the id has
at most 128 characters and neither the diameter nor the pressure is zero; nothing else is ever found
in it. -/
theorem validate_partOfRecord_iff {columns : Columns} {r : Delimited.Record} {q : Part}
    (h : partOfRecord columns r = .ok q) :
    (validate (Yaml.render q.toValue) .part = .ok () ↔
      q.id.length ≤ 128 ∧ q.dn ≠ some 0 ∧ q.pn ≠ some 0) ∧
    ∀ refusal, validate (Yaml.render q.toValue) .part = .error refusal →
      refusal = .violations q.violations := by
  have hrow := Part.isOfRow h
  have hkeys : q.toValue.hasTextKeys = true :=
    Yaml.fieldsHaveTextKeys_of_areTrees (Part.areTrees_toFields hrow)
  have hvalidate : validate (Yaml.render q.toValue) .part =
      if q.violations = [] then .ok () else .error (.violations q.violations) := by
    rw [validate, Part.readData_render hrow]
    simp only [hkeys, Schema.ofKind, Part.violations_toValue hrow]
    cases q.violations with
    | nil => rfl
    | cons v vs => rfl
  have hnone : q.violations = [] ↔ q.id.length ≤ 128 ∧ q.dn ≠ some 0 ∧ q.pn ≠ some 0 := by
    simp [Part.violations]
  rw [hvalidate, ← hnone]
  by_cases hv : q.violations = []
  · rw [if_pos hv]
    exact ⟨iff_of_true rfl hv, nofun⟩
  · rw [if_neg hv]
    exact ⟨iff_of_false nofun hv, fun refusal heq ↦ (Except.error.inj heq).symm⟩

/-- A row with a part whose diameter is zero. -/
private def zeroRow : Delimited.Record := ⟨[Text.encode "X-1", Text.encode "0"], 1, 2, 11⟩

/-- The row is read as a part, and the document of the part is refused. -/
theorem validate_partOfRecord_iff_zero :
    ∃ q, partOfRecord (Columns.ofHeader ["part_id", "dn"]) zeroRow = .ok q ∧ q.dn = some 0 ∧
      validate (Yaml.render q.toValue) .part = .error (.violations [⟨["dn"], .tooSmall 1⟩]) := by
  have hpart : partOfRecord (Columns.ofHeader ["part_id", "dn"]) zeroRow =
      .ok { id := "X-1", dn := some 0 } := by
    decide +kernel
  obtain ⟨haccepted, hrefused⟩ := validate_partOfRecord_iff hpart
  refine ⟨_, hpart, rfl, ?_⟩
  cases hverdict : validate (Yaml.render _) .part with
  | ok _ => exact absurd rfl (haccepted.mp hverdict).2.1
  | error refusal =>
    rw [hrefused refusal hverdict]
    decide

end PipingAssembly
