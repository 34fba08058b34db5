import PipingAssembly.Proofs.Schema.Parts
import PipingAssembly.Proofs.Schema.Rules

/-!
# Documents that are valid and records that are read

A valid document of a kind is read as a record of that kind if what the schema leaves open fits, and
never as a record of the other kind.
-/

namespace PipingAssembly

open Yaml (Node)

/-- The data of a document do not violate the schema of a kind that it is valid for. -/
theorem accepts_of_validate {content : String} {kind : RecordKind}
    (h : validate content kind = .ok ()) :
    ∃ n : Node, Yaml.readRecord? content = some n.toValue ∧ (Schema.ofKind kind).Accepts n := by
  rw [validate] at h
  split at h
  · cases h
  · rename_i u hdata
    split at h
    · cases h
    split at h
    · rename_i hnone
      obtain ⟨document, hdocument, hdata⟩ := bind_eq_ok_iff.mp hdata
      cases document with
      | none =>
        obtain rfl := Except.ok.inj hdata
        cases kind <;> cases Schema.hasType_of_violations hnone
      | some n =>
        refine ⟨n, by rw [Yaml.readRecord?, hdocument]; rfl, 128, u, [], ?_, hnone⟩
        exact mapError_eq_ok_iff.mp hdata
    · cases h

namespace RecordKind

/-- What a store asks of a record of a kind beyond its schema. -/
def Fits : RecordKind → Value → Prop
  | part => Part.Fits
  | rule => Rule.Fits

/-- The id of a record of a kind. -/
def idOf? : RecordKind → Value → Option String
  | part, v => (Part.ofValue? v).map (·.id)
  | rule, v => (Rule.ofValue? v).map (·.id)

/-- A part without an id is not read. -/
private theorem idOf?_part_of_rule {n : Node} (h : Schema.rule.Accepts n) :
    part.idOf? n.toValue = none := by
  obtain ⟨hrecord, hfield⟩ := h.fieldOf (Or.inr ⟨"rule_id", by decide, by decide⟩)
  have hnil := (hfield "part_id" (by decide +kernel)).eq_nil_of_unknown rfl (by simp)
  rw [idOf?, Option.map_eq_none_iff, Part.ofValue?, Value.asRecord?_of_untagged hrecord]
  simp [Value.Fields.required?, Value.Fields.lookup?, hnil]

private theorem idOf?_rule_of_part {n : Node} (h : Schema.part.Accepts n) :
    rule.idOf? n.toValue = none := by
  obtain ⟨hrecord, hfield⟩ := h.fieldOf (Or.inr ⟨"part_id", by decide, by decide⟩)
  have hnil := (hfield "rule_id" (by decide +kernel)).eq_nil_of_unknown rfl (by simp)
  rw [idOf?, Option.map_eq_none_iff, Rule.ofValue?, Value.asRecord?_of_untagged hrecord]
  simp [Value.Fields.required?, Value.Fields.lookup?, hnil]

/-- A document that the schema of a kind accepts is a record of that kind only, and if what the
schema leaves open fits. -/
theorem isSome_idOf?_iff {kind : RecordKind} {n : Node} (h : (Schema.ofKind kind).Accepts n)
    (own : RecordKind) :
    (own.idOf? n.toValue).isSome = true ↔ own = kind ∧ own.Fits n.toValue := by
  cases own with
  | part =>
    cases kind with
    | part =>
      rw [idOf?, Option.isSome_map, Part.isSome_ofValue?_iff h]
      exact (and_iff_right rfl).symm
    | rule =>
      rw [idOf?_part_of_rule h]
      exact iff_of_false nofun nofun
  | rule =>
    cases kind with
    | part =>
      rw [idOf?_rule_of_part h]
      exact iff_of_false nofun nofun
    | rule =>
      rw [idOf?, Option.isSome_map, Rule.isSome_ofValue?_iff h]
      exact (and_iff_right rfl).symm

end RecordKind

end PipingAssembly
