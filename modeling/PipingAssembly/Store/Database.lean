import PipingAssembly.Catalog.Basic
import PipingAssembly.Digest.Sha256
import PipingAssembly.Json.Reader
import PipingAssembly.Json.Writer
import PipingAssembly.Part.Codec
import PipingAssembly.Rule.Codec
import PipingAssembly.Text.Utf8

/-!
# The catalog database

The database holds the records of the catalog files as texts, beside the columns it selects and
orders them by, and the fingerprint of the files they come from. It is derived from those files and
is rebuilt whenever their fingerprint is another one.
-/

namespace PipingAssembly

/-- A part in the database. -/
structure PartRow where
  id : String
  family : String
  /-- the part as JSON text -/
  record : String
  deriving DecidableEq, Repr, Inhabited

/-- A rule in the database. -/
structure RuleRow where
  id : String
  priority : Int32
  isActive : Bool
  /-- the rule as JSON text -/
  record : String
  deriving DecidableEq, Repr, Inhabited

/-- The tables of a database. -/
structure Database where
  version : Int := 1
  fingerprint : Option String := none
  /-- the time of the last rebuild -/
  syncedAt : Option String := none
  parts : List PartRow := []
  rules : List RuleRow := []
  deriving DecidableEq, Repr, Inhabited

/-- Why a database gives no records. -/
inductive StoreError where
  /-- there is no place for the database file -/
  | file
  /-- the file is no database, or not one that can be read -/
  | database
  /-- the record with an id is not one -/
  | record (id : String)
  deriving DecidableEq, Repr

/-- The text of the reason why a database gives no records. -/
def StoreError.message : StoreError → String
  | file => "catalog I/O error: the database file cannot be reached"
  | database => "catalog database error: the file is not a catalog database"
  | record id => "malformed record in catalog database (" ++ id ++ "): not a catalog record"

/-- A file of the catalog: its path and its bytes. -/
structure SourceFile where
  path : String
  content : List UInt8
  deriving DecidableEq, Repr, Inhabited

/-- The bytes that tell the files of a catalog from others: every path and every content, each with
a zero byte behind it. -/
def fingerprintInput (sources : List SourceFile) : List UInt8 :=
  sources.flatMap fun f ↦ Text.encode f.path ++ [0] ++ f.content ++ [0]

/-- The fingerprint of the files of a catalog. -/
def catalogFingerprint (sources : List SourceFile) : String :=
  Digest.Sha256.hex (fingerprintInput sources)

/-- The row of a part. -/
def PartRow.of (p : Part) : PartRow := ⟨p.id, p.family.name, Json.compact p.toValue⟩

/-- The row of a rule. -/
def RuleRow.of (r : Rule) : RuleRow := ⟨r.id, r.priority, r.isActive, Json.compact r.toValue⟩

/-- The part that a row holds. -/
def PartRow.part (row : PartRow) : Except StoreError Part :=
  match (Json.read? row.record).bind Part.ofValue? with
  | some p => .ok p
  | none => .error (.record row.id)

/-- The rule that a row holds. -/
def RuleRow.rule (row : RuleRow) : Except StoreError Rule :=
  match (Json.read? row.record).bind Rule.ofValue? with
  | some r => .ok r
  | none => .error (.record row.id)

/-- What a sync did: the files it saw, and the numbers of records in the database after it. -/
structure SyncStats where
  rebuilt : Bool
  filesScanned : Nat
  parts : Nat
  rules : Nat
  deriving DecidableEq, Repr

/-- What is told of a database. -/
structure StoreInfo where
  path : String
  schemaVersion : Int
  parts : Nat
  rules : Nat
  activeRules : Nat
  fingerprint : Option String
  syncedAt : Option String
  sizeBytes : Nat
  deriving DecidableEq, Repr

namespace Database

/-- The version of the tables that this library reads and writes. -/
def currentVersion : Int := 1

/-- The database as it is when opened: tables of another version are dropped. A version past 32 bits
cannot be read. -/
def opened (d : Database) : Except StoreError Database :=
  if d.version < -pow2 31 ∨ pow2 31 ≤ d.version then .error .database
  else if d.version = currentVersion then .ok d
  else .ok {}

/-- A table with a row put in; a row with the same id gives way to it. -/
def putRow {α : Type} (id : α → String) (rows : List α) (row : α) : List α :=
  rows.filter (id · != id row) ++ [row]

/-- The database after a sync with the files of a catalog and the records they hold. -/
def sync (d : Database) (sources : List SourceFile) (parts : List Part) (rules : List Rule)
    (now : String) : Database × SyncStats :=
  let current := catalogFingerprint sources
  if d.fingerprint = some current then
    (d, ⟨false, sources.length, d.parts.length, d.rules.length⟩)
  else
    ({ d with
        fingerprint := some current, syncedAt := some now
        parts := (parts.map .of).foldl (putRow (·.id)) []
        rules := (rules.map .of).foldl (putRow (·.id)) [] },
      ⟨true, sources.length, parts.length, rules.length⟩)

/-- The parts of a selection in the order of ids. Every row of the family is read, also where its
part is not selected. -/
def selectParts (d : Database) (f : PartFilter) : Except StoreError (List Part) := do
  let rows := d.parts.filter fun row ↦ f.family.all (row.family == ·.name)
  return f.select (← (rows.mergeSort fun a b ↦ a.id ≤ b.id).mapM PartRow.part)

/-- Whether one row stands before another: by falling priority, then by id. -/
def rowPrecedes (a b : RuleRow) : Bool :=
  b.priority < a.priority || (a.priority == b.priority && a.id ≤ b.id)

/-- The active rules in the order of stores. -/
def activeRules (d : Database) : Except StoreError (List Rule) := do
  let rows := (d.rules.filter (·.isActive)).mergeSort rowPrecedes
  return sortRules (← rows.mapM RuleRow.rule)

/-- The size of the texts in the tables. -/
def size (d : Database) : Nat :=
  total (d.parts.map (·.record.utf8ByteSize)) + total (d.rules.map (·.record.utf8ByteSize))

/-- What is told of the database at a path. -/
def info (d : Database) (path : String) : StoreInfo where
  path := path
  schemaVersion := d.version
  parts := d.parts.length
  rules := d.rules.length
  activeRules := d.rules.countP (·.isActive)
  fingerprint := d.fingerprint
  syncedAt := d.syncedAt
  sizeBytes := d.size

/-- The database with another text as the record of a part. -/
def replacePartRecord (d : Database) (id record : String) : Database :=
  { d with parts := d.parts.map fun row ↦ if row.id = id then { row with record } else row }

/-- The database with another text as the record of a rule. -/
def replaceRuleRecord (d : Database) (id record : String) : Database :=
  { d with rules := d.rules.map fun row ↦ if row.id = id then { row with record } else row }

end Database

/-- The value of what a sync did; it is over before a millisecond has passed. -/
def SyncStats.toValue (s : SyncStats) : Value :=
  .object
    [("rebuilt", .bool s.rebuilt), ("files_scanned", .int s.filesScanned), ("parts", .int s.parts),
     ("rules", .int s.rules), ("duration_ms", .int 0)]

/-- The value of what is told of a database. -/
def StoreInfo.toValue (i : StoreInfo) : Value :=
  let orNull : Option String → Value := fun s ↦ (s.map .text).getD .null
  .object
    [("path", .text i.path), ("schema_version", .int i.schemaVersion), ("parts", .int i.parts),
     ("rules", .int i.rules), ("active_rules", .int i.activeRules),
     ("fingerprint", orNull i.fingerprint), ("synced_at", orNull i.syncedAt),
     ("db_size_bytes", .int i.sizeBytes)]

end PipingAssembly
