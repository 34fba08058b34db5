import PipingAssembly.Proofs.Schema.Readers
import PipingAssembly.Proofs.Store.Records

/-!
# Parts that the schema accepts and a store reads

The schema of parts does not say all that a store asks of one. It bounds no number by the width of
its field, takes a number for whole if it only has no fraction, and lets a tag choose the type of a
scalar where the field goes by the spelling. What is left to ask is told here, exactly.
-/

namespace PipingAssembly

open Value (Fields)
open Yaml (Node)

namespace Part

/-- What a store asks of a part beyond its schema. -/
structure Fits (v : Value) : Prop where
  dn : v.recordFields.Reads "dn" Value.asUInt32?
  pn : v.recordFields.Reads "pn" Value.asUInt32?
  metadata : v.recordFields.Reads "metadata" metadataOfValue?

private theorem isSome_ofValue?_of_untagged {v : Value} {fields : Fields}
    (hv : v.untagged = .object fields) :
    (ofValue? v).isSome = true ↔
      (fields.required? "part_id" Value.asText?).isSome = true ∧
      (fields.optional? "name" Value.asText?).isSome = true ∧
      (fields.withDefault? "family" .other Family.ofValue?).isSome = true ∧
      (fields.optional? "dn" Value.asUInt32?).isSome = true ∧
      (fields.optional? "pn" Value.asUInt32?).isSome = true ∧
      (fields.optional? "end_type" Value.asText?).isSome = true ∧
      (fields.optional? "face_type" Value.asText?).isSome = true ∧
      (fields.withDefault? "metadata" [] metadataOfValue?).isSome = true ∧
      (fields.optional? "model_path" Value.asText?).isSome = true := by
  simp only [Option.isSome_iff_exists]
  constructor
  · rintro ⟨p, hp⟩
    obtain ⟨hid, hname, hfamily, hdn, hpn, hend, hface, hmetadata, hmodel⟩ :=
      (ofValue?_eq_some_iff hv).mp hp
    exact ⟨⟨_, hid⟩, ⟨_, hname⟩, ⟨_, hfamily⟩, ⟨_, hdn⟩, ⟨_, hpn⟩, ⟨_, hend⟩, ⟨_, hface⟩,
      ⟨_, hmetadata⟩, ⟨_, hmodel⟩⟩
  · rintro ⟨⟨id, hid⟩, ⟨name, hname⟩, ⟨family, hfamily⟩, ⟨dn, hdn⟩, ⟨pn, hpn⟩, ⟨endType, hend⟩,
      ⟨faceType, hface⟩, ⟨metadata, hmetadata⟩, ⟨modelPath, hmodel⟩⟩
    exact ⟨⟨id, name, family, dn, pn, endType, faceType, metadata, modelPath⟩,
      (ofValue?_eq_some_iff hv).mpr ⟨hid, hname, hfamily, hdn, hpn, hend, hface, hmetadata, hmodel⟩⟩

/-- Of the parts that the schema accepts, a store reads those whose diameter and pressure fit their
fields and whose metadata are a map of texts. -/
theorem isSome_ofValue?_iff {n : Node} (h : Schema.part.Accepts n) :
    (ofValue? n.toValue).isSome = true ↔ Fits n.toValue := by
  obtain ⟨hrecord, hfield⟩ := h.fieldOf (Or.inr ⟨"part_id", by decide, by decide⟩)
  have hid := hfield "part_id" (by decide +kernel)
  have hname := hfield "name" (by decide +kernel)
  have hfamily := hfield "family" (by decide +kernel)
  have hdn := hfield "dn" (by decide +kernel)
  have hpn := hfield "pn" (by decide +kernel)
  have hend := hfield "end_type" (by decide +kernel)
  have hface := hfield "face_type" (by decide +kernel)
  have hmetadata := hfield "metadata" (by decide +kernel)
  have hmodel := hfield "model_path" (by decide +kernel)
  rw [isSome_ofValue?_of_untagged hrecord,
    hdn.isSome_optional? (s := .integer (some 1)) (by simp),
    hpn.isSome_optional? (s := .integer (some 1)) (by simp),
    hmetadata.isSome_withDefault? (s := .record [] [] (.each .text)) (by simp)]
  constructor
  · rintro ⟨-, -, -, hreadsDn, hreadsPn, -, -, hreadsMetadata, -⟩
    exact ⟨hreadsDn, hreadsPn, hreadsMetadata⟩
  · rintro ⟨hreadsDn, hreadsPn, hreadsMetadata⟩
    refine ⟨?_, ?_, ?_, hreadsDn, hreadsPn, ?_, ?_, hreadsMetadata, ?_⟩
    · exact hid.isSome_required?_text (s := .textOf 1 (some 128)) (by simp) rfl (by decide)
    · exact hname.isSome_optional?_text (s := .textOf 1 none) (by simp) rfl
    · exact hfamily.isSome_withDefault?_of (.tail _ (.tail _ (.head _)))
        (fun _ hn ↦ Option.isSome_map.trans (hn.isSome_asCase? rfl)) _
    · exact hend.isSome_optional?_text (s := .text) (by simp) rfl
    · exact hface.isSome_optional?_text (s := .text) (by simp) rfl
    · exact hmodel.isSome_optional?_text (s := .text) (by simp) rfl

end Part

end PipingAssembly
