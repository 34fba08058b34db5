import PipingAssembly.Policy.Codec
import PipingAssembly.Text.Blank
import PipingAssembly.Text.Search

/-!
# Configuration

A configuration may choose the store, the directory of meshes, the output format and the policy.
-/

namespace PipingAssembly

/-- What a catalog is read from. -/
inductive StoreBackend where
  /-- the files of the project -/
  | files
  /-- the database that mirrors them -/
  | sqlite
  deriving DecidableEq, Repr, Inhabited

namespace StoreBackend

/-- The name of a backend in documents. -/
def name : StoreBackend → String
  | files => "files"
  | sqlite => "sqlite"

/-- The backend with a name. -/
def ofName? (s : String) : Option StoreBackend := [files, sqlite].find? (·.name == s)

/-- The backend that a user names, in any letter case. -/
def parse? (s : String) : Option StoreBackend := ofName? (Text.lower s)

/-- What is said of a text that names no backend. -/
def invalidMessage (s : String) : String :=
  "Unknown store backend: " ++ s ++ ". Use files or sqlite"

end StoreBackend

/-- What a configuration chooses; the rest is left to others. -/
structure Config where
  store : Option StoreBackend := none
  meshDir : Option String := none
  defaultFormat : Option String := none
  policy : Option Policy := none
  deriving Inhabited

namespace Config

/-- Reads a configuration. -/
def ofValue? (v : Value) : Option Config := do
  let fields ← v.asObject?
  let store ← fields.optional? "store" fun v ↦ v.asCase?.bind StoreBackend.ofName?
  let meshDir ← fields.optional? "mesh_dir" Value.asText?
  let defaultFormat ← fields.optional? "default_format" Value.asText?
  let policy ← fields.optional? "policy" Policy.ofValue?
  some { store, meshDir, defaultFormat, policy }

/-- What a second configuration chooses goes before the first one's choices. -/
def merge (first second : Config) : Config where
  store := second.store.or first.store
  meshDir := second.meshDir.or first.meshDir
  defaultFormat := second.defaultFormat.or first.defaultFormat
  policy := second.policy.or first.policy

/-- The backend in effect. -/
def effectiveStore (c : Config) : StoreBackend := c.store.getD .files

/-- The policy in effect. -/
def effectivePolicy (c : Config) : Policy := c.policy.getD {}

end Config

/-- Whether a document has nothing but comments and marks of documents. -/
def isBlankDocument (content : String) : Bool :=
  (Text.lines content).all fun line ↦
    let line := Text.trim line
    line == "" || line.toList.head? == some '#' || line == "---" || line == "..."

end PipingAssembly
