import PipingAssembly.Proofs.Schema.Acceptance
import PipingAssembly.Value.Reading

/-!
# Reading the fields of a record that a schema accepts

A reader gets from each field at most one node, and that one is accepted by the schema of the field.
So a reader succeeds exactly if it succeeds on that node; for a text it always does.
-/

namespace PipingAssembly

open Value (Fields)
open Yaml (Node)
open Schema (FieldOf)

/-! ### Reading one field -/

/-- Whether whatever a record has under a name can be read. -/
def Value.Fields.Reads {α : Type} (fields : Fields) (name : String) (read : Value → Option α) :
    Prop :=
  ∀ v, (name, v) ∈ fields → (read v).isSome = true

namespace Schema

section Text

variable {s : Schema} {n : Node} (h : s.Accepts n) (hs : s.type = .string)
include h hs

theorem Accepts.isSome_asText? : n.toValue.asText?.isSome = true := by
  obtain ⟨depth, t, ht⟩ := h.exists_text hs
  rw [Yaml.asText?_toValue ht]
  rfl

theorem Accepts.isSome_asCase? : n.toValue.asCase?.isSome = true := by
  obtain ⟨depth, t, ht⟩ := h.exists_text hs
  rw [Yaml.asCase?_toValue ht]
  rfl

end Text

namespace FieldOf

variable {α : Type} {required : List String} {properties : List (String × Schema)}
  {further : Further} {fields : Fields} {name : String} {s : Schema}

/-- What a record has under a name is nothing, or one node that the schema of the field accepts. -/
theorem eq_nil_or_exists (h : FieldOf required properties further fields name)
    (hs : (name, s) ∈ properties) :
    fields.filter (·.1 == name) = [] ∨
      ∃ n, fields.filter (·.1 == name) = [(name, n.toValue)] ∧ s.Accepts n := by
  obtain ⟨hnil, -⟩ | ⟨n, hn, haccepts, -⟩ := h
  · exact Or.inl hnil
  · exact Or.inr ⟨n, hn, haccepts s hs⟩

theorem exists_of_required (h : FieldOf required properties further fields name)
    (hs : (name, s) ∈ properties) (hrequired : name ∈ required) :
    ∃ n, fields.filter (·.1 == name) = [(name, n.toValue)] ∧ s.Accepts n := by
  obtain ⟨-, hoptional⟩ | ⟨n, hn, haccepts, -⟩ := h
  · exact absurd hrequired hoptional
  · exact ⟨n, hn, haccepts s hs⟩

/-- A record has nothing under a name that its schema does not know. -/
theorem eq_nil_of_unknown (h : FieldOf required properties further fields name)
    (hfurther : further = .forbidden) (hname : name ∉ properties.map (·.1)) :
    fields.filter (·.1 == name) = [] := by
  obtain ⟨hnil, -⟩ | ⟨n, -, -, hknown⟩ := h
  · exact hnil
  · obtain ⟨s, hs⟩ := hknown hfurther
    exact absurd (List.mem_map.mpr ⟨_, hs, rfl⟩) hname

theorem mem_iff_of_filter {l : Fields} (h : fields.filter (·.1 == name) = l) (v : Value) :
    (name, v) ∈ fields ↔ (name, v) ∈ l := by
  rw [← h, List.mem_filter]
  simp

private theorem reads_of_filter_nil (h : fields.filter (·.1 == name) = [])
    (read : Value → Option α) : fields.Reads name read := by
  intro v hv
  rw [mem_iff_of_filter h] at hv
  cases hv

private theorem reads_iff_of_filter {v : Value} (h : fields.filter (·.1 == name) = [(name, v)])
    (read : Value → Option α) : fields.Reads name read ↔ (read v).isSome = true := by
  simp [Fields.Reads, mem_iff_of_filter h]

section Readers

variable (h : FieldOf required properties further fields name) (hs : (name, s) ∈ properties)
  (read : Value → Option α)
include h hs

theorem isSome_required? (hrequired : name ∈ required) :
    (fields.required? name read).isSome = true ↔ fields.Reads name read := by
  obtain ⟨n, hn, -⟩ := h.exists_of_required hs hrequired
  rw [reads_iff_of_filter hn, Fields.required?, Fields.lookup?, hn]
  rfl

theorem isSome_optional? :
    (fields.optional? name read).isSome = true ↔ fields.Reads name read := by
  obtain hnil | ⟨n, hn, haccepts⟩ := h.eq_nil_or_exists hs
  · simp [Fields.optional?, Fields.lookup?, hnil, reads_of_filter_nil hnil]
  · rw [reads_iff_of_filter hn, Fields.optional?, Fields.lookup?, hn]
    simp only [haccepts.asOptional?, Option.isSome_map]

theorem isSome_withDefault? (default : α) :
    (fields.withDefault? name default read).isSome = true ↔ fields.Reads name read := by
  obtain hnil | ⟨n, hn, -⟩ := h.eq_nil_or_exists hs
  · simp [Fields.withDefault?, Fields.lookup?, hnil, reads_of_filter_nil hnil]
  · rw [reads_iff_of_filter hn, Fields.withDefault?, Fields.lookup?, hn]

/-- What a reader asks of a field is what it asks of a node that the schema of the field accepts. -/
theorem reads_iff {P : Value → Prop}
    (hread : ∀ n : Node, s.Accepts n → ((read n.toValue).isSome = true ↔ P n.toValue)) :
    fields.Reads name read ↔ ∀ v, (name, v) ∈ fields → P v := by
  obtain hnil | ⟨n, hn, haccepts⟩ := h.eq_nil_or_exists hs
  · simp [mem_iff_of_filter hnil, reads_of_filter_nil hnil]
  · rw [reads_iff_of_filter hn, hread n haccepts]
    simp [mem_iff_of_filter hn]

theorem reads {read : Value → Option α}
    (hread : ∀ n : Node, s.Accepts n → (read n.toValue).isSome = true) :
    fields.Reads name read :=
  (h.reads_iff hs read fun n hn ↦ iff_of_true (hread n hn) trivial).mpr fun _ _ ↦ trivial

theorem isSome_withDefault?_of {read : Value → Option α}
    (hread : ∀ n : Node, s.Accepts n → (read n.toValue).isSome = true) (default : α) :
    (fields.withDefault? name default read).isSome = true :=
  (h.isSome_withDefault? hs _ default).mpr (h.reads hs hread)

omit read

theorem isSome_required?_text (htext : s.type = .string) (hrequired : name ∈ required) :
    (fields.required? name Value.asText?).isSome = true :=
  (h.isSome_required? hs _ hrequired).mpr (h.reads hs fun _ hn ↦ hn.isSome_asText? htext)

theorem isSome_optional?_text (htext : s.type = .string) :
    (fields.optional? name Value.asText?).isSome = true :=
  (h.isSome_optional? hs _).mpr (h.reads hs fun _ hn ↦ hn.isSome_asText? htext)

end Readers

end FieldOf

end Schema

end PipingAssembly
