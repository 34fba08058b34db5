import PipingAssembly.Constraint.Basic

/-!
# Constraints in documents
-/

namespace PipingAssembly

open Value (optionalField)

namespace FastenerRequest

/-- Reads a request for fasteners. -/
def ofValue? (v : Value) : Option FastenerRequest := do
  let fields ← v.asRecord? ["bolt_count", "bolt_spec", "gasket"]
  let boltCount ← fields.optional? "bolt_count" Value.asUInt32?
  let boltSpec ← fields.optional? "bolt_spec" Value.asText?
  let gasket ← fields.optional? "gasket" Value.asText?
  some { boltCount, boltSpec, gasket }

/-- The fields of a request for fasteners. -/
def toFields (r : FastenerRequest) : Value.Fields :=
  optionalField "bolt_count" .ofUInt32 r.boltCount ++
    optionalField "bolt_spec" .text r.boltSpec ++ optionalField "gasket" .text r.gasket

/-- The value of a request for fasteners. -/
def toValue (r : FastenerRequest) : Value := .object r.toFields

end FastenerRequest

namespace Parameters

/-- Reads the numbers of a constraint. -/
def ofValue? (v : Value) : Option (Parameters Float) := do
  let fields ← v.asRecord? ["distance", "revolutions", "angle", "fasteners"]
  let distance ← fields.optional? "distance" Value.asFloat?
  let revolutions ← fields.optional? "revolutions" Value.asFloat?
  let angle ← fields.optional? "angle" Value.asFloat?
  let fasteners ← fields.optional? "fasteners" FastenerRequest.ofValue?
  some { distance, revolutions, angle, fasteners }

/-- The fields of the numbers of a constraint. -/
def toFields (p : Parameters Float) : Value.Fields :=
  optionalField "distance" .real p.distance ++ optionalField "revolutions" .real p.revolutions ++
  optionalField "angle" .real p.angle ++
  optionalField "fasteners" FastenerRequest.toValue p.fasteners

/-- The value of the numbers of a constraint. -/
def toValue (p : Parameters Float) : Value := .object p.toFields

end Parameters

namespace Constraint

/-- Reads a constraint. -/
def ofValue? (v : Value) : Option Constraint := do
  let fields ← v.asRecord?
    ["constraint_id", "entity_a", "entity_b", "constraint_type", "parameters", "rule_id",
      "rule_name", "confidence"]
  let id ← fields.required? "constraint_id" Value.asText?
  let entityA ← fields.required? "entity_a" Value.asText?
  let entityB ← fields.required? "entity_b" Value.asText?
  let type ← fields.required? "constraint_type" ConstraintType.ofValue?
  let parameters ← fields.withDefault? "parameters" {} Parameters.ofValue?
  let ruleId ← fields.required? "rule_id" Value.asText?
  let ruleName ← fields.required? "rule_name" Value.asText?
  let confidence ← fields.required? "confidence" Value.asFloat?
  some { id, entityA, entityB, type, parameters, ruleId, ruleName, confidence }

/-- The value of a constraint. -/
def toValue (c : Constraint) : Value :=
  .object
    [("constraint_id", .text c.id), ("entity_a", .text c.entityA), ("entity_b", .text c.entityB),
     ("constraint_type", .text c.type.name), ("parameters", c.parameters.toValue),
     ("rule_id", .text c.ruleId), ("rule_name", .text c.ruleName),
     ("confidence", .real c.confidence)]

end Constraint

end PipingAssembly
