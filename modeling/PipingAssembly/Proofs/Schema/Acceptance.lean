import PipingAssembly.Proofs.Yaml.Readings
import PipingAssembly.Schema.Validation

/-!
# What a schema says of a record

A schema is checked against the general data of a document, but a store reads the document as a
record. Of a node that a schema accepts, the record value has the fields that the schema asks for,
each of them once, and each of their nodes is accepted by the schema of its field.
-/

namespace PipingAssembly

open Value (Fields find? canonicalFields asOptional?)
open Yaml (Node isFieldName isOwnTag SameField exists_record)

/-! ### Fields in canonical form -/

namespace Value

theorem find?_cons (key name : String) (v : Value) (fields : Fields) :
    find? ((key, v) :: fields) name = if key = name then some v else find? fields name := by
  rw [find?, List.find?_cons, find?]
  by_cases h : key = name
  · simp [h]
  · rw [beq_false_of_ne h, if_neg h]

private theorem find?_insertBefore_of_ne {key name : String} (h : key ≠ name) (v : Value)
    (fields : Fields) : find? (canonicalFields.insertBefore key v fields) name =
      find? fields name := by
  induction fields with
  | nil => rw [canonicalFields.insertBefore, find?_cons, if_neg h]
  | cons f fields ih =>
    obtain ⟨k, w⟩ := f
    rw [canonicalFields.insertBefore]
    split
    · rfl
    split
    · rw [find?_cons, if_neg h]
    · rw [find?_cons, find?_cons, ih]

private theorem find?_insertBefore_self {name : String} {fields : Fields}
    (h : find? fields name = none) (v : Value) :
    find? (canonicalFields.insertBefore name v fields) name = some v := by
  induction fields with
  | nil => rw [canonicalFields.insertBefore, find?_cons, if_pos rfl]
  | cons f fields ih =>
    obtain ⟨k, w⟩ := f
    rw [find?_cons] at h
    split at h
    · cases h
    · rename_i hne
      rw [canonicalFields.insertBefore, if_neg (Ne.symm hne)]
      split
      · rw [find?_cons, if_pos rfl]
      · rw [find?_cons, if_neg hne, ih h]

/-- A key that is not given is not there in canonical form. -/
theorem find?_canonicalFields_none {name : String} {fields : Fields}
    (h : fields.filter (·.1 == name) = []) : find? (canonicalFields fields) name = none := by
  induction fields with
  | nil => rfl
  | cons f fields ih =>
    obtain ⟨k, v⟩ := f
    rw [List.filter_cons] at h
    split at h
    · cases h
    · rename_i hne
      rw [canonicalFields, find?_insertBefore_of_ne (by simpa using hne), ih h]

/-- A key that is given once has its value in canonical form. -/
theorem find?_canonicalFields_some {name : String} {v : Value} {fields : Fields}
    (h : fields.filter (·.1 == name) = [(name, v)]) :
    find? (canonicalFields fields) name = some v.canonical := by
  induction fields with
  | nil => cases h
  | cons f fields ih =>
    obtain ⟨k, w⟩ := f
    rw [List.filter_cons] at h
    rw [canonicalFields]
    split at h
    · obtain ⟨hfirst, hrest⟩ := List.cons.inj h
      obtain ⟨rfl, rfl⟩ := Prod.mk.inj hfirst
      exact find?_insertBefore_self (find?_canonicalFields_none hrest) _
    · rename_i hne
      rw [find?_insertBefore_of_ne (by simpa using hne), ih h]

theorem mem_of_find? {name : String} {v : Value} {fields : Fields}
    (h : find? fields name = some v) : (name, v) ∈ fields := by
  obtain ⟨f, hf, rfl⟩ := Option.map_eq_some_iff.mp h
  have hname : f.1 = name := by simpa using List.find?_some hf
  exact hname ▸ List.mem_of_find?_eq_some hf

/-- The fields of a value that is a record. -/
def recordFields (v : Value) : Fields := v.untagged.fieldList

end Value

/-! ### Acceptance -/

namespace Schema

/-- A schema accepts a node if it has data that do not violate it. -/
def Accepts (s : Schema) (n : Node) : Prop :=
  ∃ depth u path, n.dataWithin depth = .ok u ∧ s.violations path u.canonical = []

section Violations

variable {path : List String} {v : Value} {type : ValueType} {options : List String}
  {minLength maxLength : Option Nat} {minimum maximum : Option Int} {required : List String}
  {properties : List (String × Schema)} {further : Further}
  (h : (Schema.of type options minLength maxLength minimum maximum required properties
    further).violations path v = [])
include h

private theorem scalarFaults_of_violations :
    v.scalarFaults type options minLength maxLength minimum maximum = [] := by
  rw [violations] at h
  simp only [List.append_eq_nil_iff, List.map_eq_nil_iff] at h
  exact h.1.1.1

theorem hasType_of_violations : v.hasType type = true := by
  have hfaults := scalarFaults_of_violations h
  simp only [Value.scalarFaults, List.append_eq_nil_iff] at hfaults
  have htype := hfaults.1.1.1
  split at htype
  · assumption
  · cases htype

theorem mem_options_of_violations {s : String} (hv : v = .text s) (hoptions : options ≠ []) :
    s ∈ options := by
  have hfaults := scalarFaults_of_violations h
  subst hv
  simp only [Value.scalarFaults, List.append_eq_nil_iff, if_neg hoptions] at hfaults
  have hoption := hfaults.1.1.2
  split at hoption
  · exact List.contains_iff_mem.mp ‹_›
  · cases hoption

theorem isSome_of_violations {fields : Fields} (hv : v = .object fields) {name : String}
    (hname : name ∈ required) : (find? fields name).isSome = true := by
  rw [violations] at h
  simp only [List.append_eq_nil_iff, List.map_eq_nil_iff] at h
  have hmissing := h.1.1.2
  subst hv
  rw [Value.isObject, if_pos rfl, List.filter_eq_nil_iff] at hmissing
  simpa [Value.fieldList, Option.isSome_iff_ne_none] using hmissing name hname

theorem property_of_violations {fields : Fields} (hv : v = .object fields) {name : String}
    {s : Schema} (hs : (name, s) ∈ properties) {w : Value} (hw : find? fields name = some w) :
    s.violations (path ++ [name]) w = [] := by
  rw [violations] at h
  simp only [List.append_eq_nil_iff, List.map_eq_nil_iff] at h
  have hproperties := h.1.2
  subst hv
  clear h
  induction properties with
  | nil => cases hs
  | cons property properties ih =>
    obtain ⟨key, s'⟩ := property
    rw [propertyViolations, List.append_eq_nil_iff] at hproperties
    obtain heq | hs := List.mem_cons.mp hs
    · obtain ⟨rfl, rfl⟩ := Prod.mk.inj heq
      have hfirst := hproperties.1
      rw [Value.fieldList, hw] at hfirst
      exact hfirst
    · exact ih hs hproperties.2

theorem known_of_violations {fields : Fields} (hv : v = .object fields)
    (hfurther : further = .forbidden) {f : String × Value} (hf : f ∈ fields) :
    ∃ s, (f.1, s) ∈ properties := by
  rw [violations] at h
  simp only [List.append_eq_nil_iff, List.map_eq_nil_iff] at h
  have hunknown := h.2
  subst hv hfurther
  rw [furtherViolations] at hunknown
  split at hunknown
  · rename_i hnone
    have hknown := List.filter_eq_nil_iff.mp hnone f hf
    simp only [Bool.not_eq_true', Bool.not_eq_false, List.any_eq_true, beq_iff_eq] at hknown
    obtain ⟨⟨key, s⟩, hmem, rfl⟩ := hknown
    exact ⟨s, hmem⟩
  · cases hunknown

end Violations

/-! ### Scalars -/

/-- The type that a schema asks for. -/
def type : Schema → ValueType
  | .of type .. => type

/-- A node that has to be a text has a text. -/
theorem Accepts.exists_text {s : Schema} {n : Node} (h : s.Accepts n) (hs : s.type = .string) :
    ∃ depth t, n.dataWithin depth = .ok (.text t) := by
  obtain ⟨depth, u, path, hdata, hnone⟩ := h
  obtain ⟨_⟩ := s
  obtain rfl : _ = ValueType.string := hs
  have htype := hasType_of_violations hnone
  cases u with
  | text t => exact ⟨depth, t, hdata⟩
  | null | bool | int | real | plain | list | openList | object | tagged | keyedByNodes =>
    cases htype

/-- A node that has to be one of some texts is one of them. -/
theorem Accepts.exists_option {options : List String} {n : Node} (h : (oneOf options).Accepts n)
    (hoptions : options ≠ []) : ∃ depth, ∃ t ∈ options, n.dataWithin depth = .ok (.text t) := by
  obtain ⟨depth, u, path, hdata, hnone⟩ := h
  have htype := hasType_of_violations hnone
  cases u with
  | text t => exact ⟨depth, t, mem_options_of_violations hnone rfl hoptions, hdata⟩
  | null | bool | int | real | plain | list | openList | object | tagged | keyedByNodes =>
    cases htype

/-- A node that has to be a number has a number. -/
theorem Accepts.exists_number {s : Schema} {n : Node} (h : s.Accepts n) (hs : s.type = .number) :
    ∃ depth u, n.dataWithin depth = .ok u ∧ u.magnitude?.isSome = true := by
  obtain ⟨depth, u, path, hdata, hnone⟩ := h
  obtain ⟨_⟩ := s
  obtain rfl : _ = ValueType.number := hs
  exact ⟨depth, u, hdata, match u, hasType_of_violations hnone with
    | .int _, htype => htype
    | .real _, htype => htype⟩

theorem Accepts.ne_null {s : Schema} {n : Node} (h : s.Accepts n) :
    ∃ depth u, n.dataWithin depth = .ok u ∧ u ≠ .null := by
  obtain ⟨depth, u, path, hdata, hnone⟩ := h
  refine ⟨depth, u, hdata, ?_⟩
  rintro rfl
  obtain ⟨type⟩ := s
  cases type <;> cases hasType_of_violations hnone

/-- What a schema accepts is read by an optional reader as by the reader itself. -/
theorem Accepts.asOptional? {α : Type} {s : Schema} {n : Node} (h : s.Accepts n)
    (read : Value → Option α) : Value.asOptional? read n.toValue = (read n.toValue).map some := by
  obtain ⟨depth, u, hdata, hu⟩ := h.ne_null
  exact Yaml.asOptional?_toValue read hu hdata

/-! ### Records -/

/-- An object of one field under a tag of an application is refused: the tag is no known field, or a
field with another key is missing. -/
def RefusesOwnTags (required : List String) (properties : List (String × Schema))
    (further : Further) : Prop :=
  (further = .forbidden ∧ ∀ p ∈ properties, isOwnTag p.1 = false) ∨
    ∃ r ∈ required, isOwnTag r = false

/-- What a record has under a name: nothing if nothing is required, else one node that is accepted
by the schema of the field. -/
def FieldOf (required : List String) (properties : List (String × Schema)) (further : Further)
    (record : Fields) (name : String) : Prop :=
  (record.filter (·.1 == name) = [] ∧ name ∉ required) ∨
    ∃ n : Node, record.filter (·.1 == name) = [(name, n.toValue)] ∧
      (∀ s, (name, s) ∈ properties → s.Accepts n) ∧
      (further = .forbidden → ∃ s, (name, s) ∈ properties)

/-- A node that the schema of a record accepts is a record with the fields of the schema. -/
theorem Accepts.fieldOf {required : List String} {properties : List (String × Schema)}
    {further : Further} {n : Node} (h : (record required properties further).Accepts n)
    (hown : RefusesOwnTags required properties further) :
    n.toValue.untagged = .object n.toValue.recordFields ∧ ∀ name, isFieldName name = true →
      FieldOf required properties further n.toValue.recordFields name := by
  obtain ⟨depth, u, path, hdata, hnone⟩ := h
  obtain ⟨fields, rfl⟩ : ∃ fields, u = .object fields := by
    have htype := hasType_of_violations hnone
    cases u with
    | object fields => exact ⟨fields, rfl⟩
    | null | bool | int | real | text | plain | list | openList | tagged | keyedByNodes =>
      cases htype
  have htag : ∀ t ∈ n.tag, isOwnTag t = false := by
    intro t ht
    rw [← Bool.not_eq_true]
    intro htown
    obtain ⟨v, hv⟩ := Yaml.data_of_isOwnTag ht htown hdata
    obtain rfl := Value.object.inj hv
    have hcanonical : (Value.object [(t, v)]).canonical = .object [(t, v.canonical)] := rfl
    obtain ⟨hforbidden, hproperties⟩ | ⟨r, hr, hrown⟩ := hown
    · obtain ⟨s, hs⟩ := known_of_violations hnone hcanonical hforbidden List.mem_cons_self
      rw [hproperties _ hs] at htown
      cases htown
    · have hsome := isSome_of_violations hnone hcanonical hr
      rw [Value.find?_cons] at hsome
      split at hsome
      · rename_i heq
        rw [heq, hrown] at htown
        cases htown
      · cases hsome
  obtain ⟨record, hrecord, hsame⟩ := exists_record htag hdata
  obtain rfl : n.toValue.recordFields = record := by
    rw [Value.recordFields, hrecord]
    rfl
  refine ⟨hrecord, fun name hname ↦ ?_⟩
  have hcanonical : (Value.object fields).canonical = .object (canonicalFields fields) := rfl
  obtain ⟨hnil, hrecordNil⟩ | ⟨m, depth', w, hw, hfields, hrecordName⟩ := hsame name hname
  · refine Or.inl ⟨hrecordNil, fun hrequired ↦ ?_⟩
    have hsome := isSome_of_violations hnone hcanonical hrequired
    rw [Value.find?_canonicalFields_none hnil] at hsome
    cases hsome
  · have hfind := Value.find?_canonicalFields_some hfields
    refine Or.inr ⟨m, hrecordName, fun s hs ↦ ?_, fun hforbidden ↦ ?_⟩
    · exact ⟨depth', w, _, hw, property_of_violations hnone hcanonical hs hfind⟩
    · exact known_of_violations hnone hcanonical hforbidden (Value.mem_of_find? hfind)

end Schema

end PipingAssembly
