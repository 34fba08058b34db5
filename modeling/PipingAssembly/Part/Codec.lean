import PipingAssembly.Part.Basic
import PipingAssembly.Value.Reading

/-!
# Parts in documents
-/

namespace PipingAssembly

open Value (optionalField)

/-- A number of a record. -/
def Value.ofUInt32 (n : UInt32) : Value := .int n.toNat

/-- Reads a family; an unknown name stands for `other`. -/
def Family.ofValue? (v : Value) : Option Family := v.asCase?.map Family.ofName

namespace Part

/-- Reads a map of texts. -/
def metadataOfValue? (v : Value) : Option (List (String × String)) :=
  v.asObject?.bind fun fields ↦
    (fields.mapM fun e : String × Value ↦ e.2.asText?.map (e.1, ·)).map sortEntries

/-- Reads a part. -/
def ofValue? (v : Value) : Option Part := do
  let fields ← v.asRecord?
    ["part_id", "name", "family", "dn", "pn", "end_type", "face_type", "metadata", "model_path"]
  let id ← fields.required? "part_id" Value.asText?
  let name ← fields.optional? "name" Value.asText?
  let family ← fields.withDefault? "family" .other Family.ofValue?
  let dn ← fields.optional? "dn" Value.asUInt32?
  let pn ← fields.optional? "pn" Value.asUInt32?
  let endType ← fields.optional? "end_type" Value.asText?
  let faceType ← fields.optional? "face_type" Value.asText?
  let metadata ← fields.withDefault? "metadata" [] metadataOfValue?
  let modelPath ← fields.optional? "model_path" Value.asText?
  some { id, name, family, dn, pn, endType, faceType, metadata, modelPath }

/-- The fields of a part; what is absent is left out. -/
def toFields (p : Part) : Value.Fields :=
  [("part_id", .text p.id)] ++ optionalField "name" .text p.name ++
  [("family", .text p.family.name)] ++ optionalField "dn" .ofUInt32 p.dn ++
  optionalField "pn" .ofUInt32 p.pn ++ optionalField "end_type" .text p.endType ++
  optionalField "face_type" .text p.faceType ++
  (if p.metadata = [] then [] else
    [("metadata", .object (p.metadata.map fun (key, s) ↦ (key, .text s)))]) ++
  optionalField "model_path" .text p.modelPath

/-- The value of a part. -/
def toValue (p : Part) : Value := .object p.toFields

end Part

end PipingAssembly
