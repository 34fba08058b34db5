import PipingAssembly.Constraint.Codec
import PipingAssembly.Rule.Basic

/-!
# Rules in documents
-/

namespace PipingAssembly

open Value (optionalField)

namespace AttributeTest

/-- Reads a test of an attribute. -/
def ofValue? (v : Value) : Option AttributeTest := do
  let fields ← v.asRecord? ["field", "value", "contains"]
  let field ← fields.required? "field" Value.asText?
  let value ← fields.optional? "value" Value.asText?
  let contains ← fields.optional? "contains" Value.asText?
  some { field, value, contains }

/-- The fields of a test. -/
def toFields (t : AttributeTest) : Value.Fields :=
  [("field", .text t.field)] ++ optionalField "value" .text t.value ++
    optionalField "contains" .text t.contains

end AttributeTest

namespace Condition

/-- Reads a condition. Its scalars have the types of their spellings, so that a number is not taken
for a text. -/
def ofValue? (v : Value) : Option Condition := do
  let (kind, data) ← (← v.resolved?).asVariant? "type"
  let fields := fun names ↦ data.asRecord? names
  match kind with
  | "both" => (AttributeTest.ofValue? data).map both
  | "name_contains" => do
    (← fields ["value"]).required? "value" fun v ↦ v.asText?.map nameContains
  | "thread_match" => (fields []).map fun _ ↦ threadMatch
  | "bolt_nut_pair" => (fields []).map fun _ ↦ boltNutPair
  | "distance_range" => do
    let fields ← fields ["min", "max"]
    let min ← fields.required? "min" Value.asFloat?
    let max ← fields.required? "max" Value.asFloat?
    some (distanceRange min max)
  | "mate_type" => do
    (← fields ["mate_type"]).required? "mate_type" fun v ↦ v.asText?.map mateType
  | _ => none

/-- The fields of a condition without its kind. -/
def dataFields : Condition → Value.Fields
  | both test => test.toFields
  | nameContains value => [("value", .text value)]
  | threadMatch => []
  | boltNutPair => []
  | distanceRange min max => [("min", .real min), ("max", .real max)]
  | mateType mate => [("mate_type", .text mate)]

/-- The value of a condition. -/
def toValue (c : Condition) : Value := .object (("type", .text c.kind) :: c.dataFields)

end Condition

namespace Action

/-- Reads the constraint that a rule asks for. -/
def ofValue? (v : Value) : Option Action := do
  let fields ← v.asRecord? ["type", "parameters"]
  let type ← fields.required? "type" ConstraintType.ofValue?
  let parameters ← fields.withDefault? "parameters" {} Parameters.ofValue?
  some { type, parameters }

/-- The fields of the constraint that a rule asks for. -/
def toFields (a : Action) : Value.Fields :=
  [("type", .text a.type.name), ("parameters", a.parameters.toValue)]

/-- The value of the constraint that a rule asks for. -/
def toValue (a : Action) : Value := .object a.toFields

end Action

namespace Rule

/-- Reads a rule. -/
def ofValue? (v : Value) : Option Rule := do
  let fields ← v.asRecord?
    ["rule_id", "name", "description", "priority", "condition", "action", "confidence_boost",
      "active"]
  let id ← fields.required? "rule_id" Value.asText?
  let name ← fields.required? "name" Value.asText?
  let description ← fields.optional? "description" Value.asText?
  let priority ← fields.withDefault? "priority" 0 Value.asInt32?
  let condition ← fields.required? "condition" Condition.ofValue?
  let action ← fields.required? "action" Action.ofValue?
  let confidenceBoost ← fields.withDefault? "confidence_boost" 0.0 Value.asFloat?
  let isActive ← fields.withDefault? "active" true Value.asBool?
  some { id, name, description, priority, condition, action, confidenceBoost, isActive }

/-- The fields of a rule. -/
def toFields (r : Rule) : Value.Fields :=
  [("rule_id", .text r.id), ("name", .text r.name)] ++
  optionalField "description" .text r.description ++
  [("priority", .int r.priority.toInt), ("condition", r.condition.toValue),
   ("action", r.action.toValue), ("confidence_boost", .real r.confidenceBoost),
   ("active", .bool r.isActive)]

/-- The value of a rule. -/
def toValue (r : Rule) : Value := .object r.toFields

end Rule

end PipingAssembly
