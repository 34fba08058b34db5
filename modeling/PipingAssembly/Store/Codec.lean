import PipingAssembly.Store.Database

/-!
# Databases in documents

The tables of a database are kept in a file as one JSON text.
-/

namespace PipingAssembly

open Value (optionalField)

/-- The value of a row of parts. -/
def PartRow.toValue (r : PartRow) : Value :=
  .object [("part_id", .text r.id), ("family", .text r.family), ("record", .text r.record)]

/-- Reads a row of parts. -/
def PartRow.ofValue? (v : Value) : Option PartRow := do
  let fields ← v.asObject?
  let id ← fields.required? "part_id" Value.asText?
  let family ← fields.required? "family" Value.asText?
  let record ← fields.required? "record" Value.asText?
  some { id, family, record }

/-- The value of a row of rules. -/
def RuleRow.toValue (r : RuleRow) : Value :=
  .object
    [("rule_id", .text r.id), ("priority", .int r.priority.toInt), ("active", .bool r.isActive),
     ("record", .text r.record)]

/-- Reads a row of rules. -/
def RuleRow.ofValue? (v : Value) : Option RuleRow := do
  let fields ← v.asObject?
  let id ← fields.required? "rule_id" Value.asText?
  let priority ← fields.required? "priority" Value.asInt32?
  let isActive ← fields.required? "active" Value.asBool?
  let record ← fields.required? "record" Value.asText?
  some { id, priority, isActive, record }

namespace Database

/-- The value of the tables of a database. -/
def toValue (d : Database) : Value :=
  .object <|
    [("schema_version", .int d.version)] ++ optionalField "fingerprint" .text d.fingerprint ++
    optionalField "synced_at" .text d.syncedAt ++
    [("parts", .list (d.parts.map PartRow.toValue)),
     ("rules", .list (d.rules.map RuleRow.toValue))]

/-- Reads the tables of a database. -/
def ofValue? (v : Value) : Option Database := do
  let fields ← v.asObject?
  let version ← fields.required? "schema_version" Value.asInt32?
  let fingerprint ← fields.optional? "fingerprint" Value.asText?
  let syncedAt ← fields.optional? "synced_at" Value.asText?
  let parts ← fields.required? "parts" (Value.asListOf? PartRow.ofValue?)
  let rules ← fields.required? "rules" (Value.asListOf? RuleRow.ofValue?)
  some { version := version.toInt, fingerprint, syncedAt, parts, rules }

/-- The text of a file that holds a database. -/
def toText (d : Database) : String := Json.compact d.toValue

/-- The database that the text of a file holds. -/
def ofText? (s : String) : Option Database := (Json.read? s).bind ofValue?

end Database

end PipingAssembly
