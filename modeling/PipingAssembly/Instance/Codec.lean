import PipingAssembly.Instance.Basic
import PipingAssembly.Part.Codec
import PipingAssembly.Value.Vector

/-!
# Instances and placements in documents
-/

namespace PipingAssembly

open Value (optionalField)

/-- Reads a role. -/
def Role.ofValue? (v : Value) : Option Role :=
  match v.asCase? with
  | some "fastener" => some .fastener
  | some "seal" => some .sealing
  | _ => none

namespace Instance

/-- Reads an instance. -/
def ofValue? (v : Value) : Option Instance := do
  let fields ← v.asRecord?
    ["instance_id", "part_id", "name", "family", "dn", "position", "rotation", "z_direction",
      "x_direction", "role", "connection_id"]
  let id ← fields.required? "instance_id" Value.asText?
  let partId ← fields.required? "part_id" Value.asText?
  let name ← fields.required? "name" Value.asText?
  let family ← fields.withDefault? "family" .other Family.ofValue?
  let dn ← fields.optional? "dn" Value.asUInt32?
  let position ← fields.withDefault? "position" .zero Vec3.ofValue?
  let rotation ← fields.withDefault? "rotation" .zero Vec3.ofValue?
  let zDirection ← fields.optional? "z_direction" Vec3.ofValue?
  let xDirection ← fields.optional? "x_direction" Vec3.ofValue?
  let role ← fields.optional? "role" Role.ofValue?
  let connectionId ← fields.optional? "connection_id" Value.asText?
  some { id, partId, name, family, dn, pose := ⟨position, rotation⟩, zDirection, xDirection, role
         connectionId }

/-- The value of an instance. -/
def toValue (i : Instance) : Value :=
  .object <|
    [("instance_id", .text i.id), ("part_id", .text i.partId), ("name", .text i.name),
     ("family", .text i.family.name)] ++ optionalField "dn" .ofUInt32 i.dn ++
    [("position", i.pose.position.toValue), ("rotation", i.pose.rotation.toValue)] ++
    optionalField "z_direction" Vec3.toValue i.zDirection ++
    optionalField "x_direction" Vec3.toValue i.xDirection ++
    optionalField "role" (fun r ↦ .text r.name) i.role ++
    optionalField "connection_id" .text i.connectionId

end Instance

namespace PlacementSource

/-- Reads how a placement was found. -/
def ofValue? (v : Value) : Option PlacementSource := do
  let (kind, data) ← (← v.resolved?).asVariant? "kind"
  let fields := fun names ↦ data.asRecord? names
  match kind with
  | "base" => (fields []).map fun _ ↦ base
  | "constraint" => do
    let fields ← fields ["constraint_id", "from"]
    let constraintId ← fields.required? "constraint_id" Value.asText?
    let origin ← fields.required? "from" Value.asText?
    some (constraint constraintId origin)
  | "fallback" => do
    (← fields ["slot"]).required? "slot" fun v ↦ v.asUInt64?.map fallback
  | "synthesized" => do
    (← fields ["connection_id"]).required? "connection_id" fun v ↦ v.asText?.map synthesized
  | _ => none

/-- The value of the way in which a placement was found. -/
def toValue : PlacementSource → Value
  | base => .object [("kind", .text "base")]
  | constraint constraintId origin =>
    .object [("kind", .text "constraint"), ("constraint_id", .text constraintId),
      ("from", .text origin)]
  | fallback slot => .object [("kind", .text "fallback"), ("slot", .int slot.toNat)]
  | synthesized connectionId =>
    .object [("kind", .text "synthesized"), ("connection_id", .text connectionId)]

end PlacementSource

namespace Placement

/-- Reads a placement. -/
def ofValue? (v : Value) : Option Placement := do
  let fields ← v.asRecord? ["instance_id", "position", "rotation", "source"]
  let instanceId ← fields.required? "instance_id" Value.asText?
  let position ← fields.required? "position" Vec3.ofValue?
  let rotation ← fields.required? "rotation" Vec3.ofValue?
  let source ← fields.required? "source" PlacementSource.ofValue?
  some { instanceId, pose := ⟨position, rotation⟩, source }

/-- The value of a placement. -/
def toValue (p : Placement) : Value :=
  .object
    [("instance_id", .text p.instanceId), ("position", p.pose.position.toValue),
     ("rotation", p.pose.rotation.toValue), ("source", p.source.toValue)]

end Placement

end PipingAssembly
