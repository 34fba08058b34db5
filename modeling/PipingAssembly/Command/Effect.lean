import PipingAssembly.Command.Arguments
import PipingAssembly.Project.Check
import PipingAssembly.Scene.MeshFiles
import PipingAssembly.Schema.Display
import PipingAssembly.Store.Basic
import PipingAssembly.Table.Basic

/-!
# Effects of commands

A command works on a workspace, writes output and notes, and may fail; what it has done and written
before it fails stays.
-/

namespace PipingAssembly.Command

/-- Why a command fails. -/
inductive Failure where
  | project (e : ProjectError)
  | store (e : StoreError)
  | run (e : RunError)
  | importing (e : ImportError)
  | file (fault : FileFault)
  | filesFailed (count : Nat)
  /-- a file is not YAML, and the place of the fault cannot be shown -/
  | unplacedFault
  /-- the time allowed ends after all times that can be told -/
  | endlessTime
  deriving DecidableEq, Repr

namespace Failure

/-- Whether a command breaks off instead of telling why it fails. -/
def isAbort : Failure → Bool
  | unplacedFault => true
  | endlessTime => true
  | _ => false

/-- Whether a command fails because the operating system does not do what it was asked to do. -/
def isOfFiles : Failure → Bool
  | project (.file _) => true
  | store .file => true
  | importing (.file _) => true
  | file _ => true
  | _ => false

/-- The text of the reason why a command fails. -/
def message : Failure → String
  | project e => e.message
  | store e => e.message
  | run e => e.message
  | importing e => e.message
  | file (.unreachable path) => "cannot reach " ++ path
  | filesFailed 1 => "Validation failed: 1 file has errors"
  | filesFailed count => "Validation failed: " ++ Decimal.natText count ++ " files have errors"
  | unplacedFault => "the place of a fault is inside a character"
  | endlessTime => "the time allowed is too long"

end Failure

/-- A piece of output. -/
inductive Output where
  | text (s : String)
  /-- the violations of a schema by a document, shown in place -/
  | violations (content : String) (refusal : Refusal)
  deriving DecidableEq, Repr

/-- The text of a piece of output. -/
def Output.toText : Output → String
  | text s => s
  | violations content refusal => refusal.display content

/-- What a command works on and has written so far. -/
structure Session where
  workspace : Workspace
  output : List Output := []
  notes : List String := []
  deriving Inhabited

/-- The project of a call: that around the place it names, or around where the user stands. -/
def CommonOptions.discover (o : CommonOptions) (w : Workspace) : Except ProjectError Project :=
  match o.project with
  | some s => Project.discoverFrom w.files w.here s
  | none => Project.discoverFrom w.files [] w.here.text

/-- A step of a command. -/
abbrev Effect := ExceptT Failure (StateM Session)

namespace Effect

/-- The workspace as it is now. -/
def workspace : Effect Workspace := do return (← get).workspace

/-- Goes on with other files. -/
def setFiles (files : Files) : Effect Unit :=
  modify fun s ↦ { s with workspace := { s.workspace with files } }

/-- Writes a text. -/
def print (s : String) : Effect Unit :=
  modify fun session ↦ { session with output := session.output ++ [.text s] }

/-- Writes a line. -/
def printLine (s : String) : Effect Unit := print (s ++ "\n")

/-- Shows the violations of a document. -/
def printViolations (content : String) (refusal : Refusal) : Effect Unit :=
  modify fun session ↦ { session with output := session.output ++ [.violations content refusal] }

/-- Writes a line beside the output. -/
def note (s : String) : Effect Unit :=
  modify fun session ↦ { session with notes := session.notes ++ [s] }

/-- The result of a computation, or its failure. -/
def ofExcept {ε α : Type} (failure : ε → Failure) : Except ε α → Effect α
  | .ok a => pure a
  | .error e => throw (failure e)

/-- Writes a value in a format for programs. -/
def printValue (format : OutputFormat) (v : Value) : Effect Unit :=
  if format == .json then printLine (Json.pretty v) else print (Yaml.render v)

/-- Writes a table and, for people, how many rows of a kind there are. -/
def printTable (format : OutputFormat) (quiet : Bool) (noun : String) (t : Table) :
    Effect Unit := do
  print (t.render format)
  if format.isHuman && !quiet then
    printLine ""
    printLine (Decimal.natText t.rows.length ++ " " ++ noun ++ "(s) found")

/-- The project of a call. -/
def project (o : CommonOptions) : Effect Project := do
  ofExcept .project (o.discover (← workspace))

/-- The configuration of a project. -/
def configuration (p : Project) : Effect Config := do
  return Project.configuration (← workspace) (some p)

/-- The store that a configuration chooses. -/
def store (p : Project) (c : Config) : Effect CatalogStore := do
  let w ← workspace
  let (store, files) ← ofExcept .store (CatalogStore.ofBackend p w.files w.now c.effectiveStore)
  setFiles files
  return store

end Effect

/-- Whether a format is for programs and keeps all there is to tell. -/
def isStructured (f : OutputFormat) : Bool := f == .json || f == .yaml

/-- A vector in a table, with one place after the point. -/
def vectorText (v : Vec3 Float) : String :=
  "(" ++ ", ".intercalate (v.toList.map (Decimal.fixed 1)) ++ ")"

/-- A number in a table, or a dash. -/
def numberOrDash (n : Option UInt32) : String := (n.map fun n ↦ Decimal.natText n.toNat).getD "-"

end PipingAssembly.Command
