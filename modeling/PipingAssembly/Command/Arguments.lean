import PipingAssembly.Catalog.Basic
import PipingAssembly.Command.Grammar
import PipingAssembly.Decimal.Literal
import PipingAssembly.Import.Basic
import PipingAssembly.Table.Format

/-!
# The commands of the program

Every call names one task; the options for the format of the output, for less or more of it and for
the project may stand anywhere.
-/

namespace PipingAssembly.Command

/-- The options that every task takes. -/
structure CommonOptions where
  format : OutputFormat := .auto
  quiet : Bool := false
  verbose : Bool := false
  /-- the place from which the project is looked for -/
  project : Option String := none
  deriving DecidableEq, Repr, Inhabited

/-- What an assembly takes and gives. -/
structure SolveOptions where
  /-- the exchange file; without one the catalog is assembled -/
  file : Option String := none
  filter : PartFilter := {}
  /-- where the scene is written to -/
  scene : Option String := none
  meshDir : Option String := none
  /-- the seconds after which to give up -/
  timeout : Option Nat := none
  listConstraints : Bool := false
  deriving DecidableEq, Repr, Inhabited

/-- How catalog files are checked. -/
structure CheckOptions where
  /-- the files and directories to check; none stand for the whole catalog -/
  paths : List String := []
  keepGoing : Bool := false
  summaryOnly : Bool := false
  deriving DecidableEq, Repr, Inhabited

/-- A shell for which there are completions. -/
inductive Shell where
  | bash
  | elvish
  | fish
  | powershell
  | zsh
  deriving DecidableEq, Repr, Inhabited

namespace Shell

/-- The shells with their names. -/
def names : List (String × Shell) :=
  [("bash", bash), ("elvish", elvish), ("fish", fish), ("powershell", powershell), ("zsh", zsh)]

/-- The shell with a name. -/
def ofName? (s : String) : Option Shell := names.lookup s

end Shell

/-- What a call asks for. -/
inductive Task where
  /-- set a project up -/
  | setUp (path : String) (force : Bool)
  /-- list the instances of an exchange file -/
  | parse (file : String)
  /-- score a pair of parts -/
  | matchPair (a b : String) (all : Bool)
  /-- assemble parts -/
  | solve (options : SolveOptions)
  | listParts (filter : PartFilter)
  | importParts (file : String) (options : ImportOptions)
  | listRules (all : Bool)
  | syncStore
  | showStore
  /-- check catalog files -/
  | check (options : CheckOptions)
  | completions (shell : Shell)
  deriving DecidableEq, Repr, Inhabited

/-- Whether a text names a path. -/
private def isPath (s : String) : Bool := s != ""

/-- The whole number of an option, if it fits 64 bits. -/
private def wholeNumber? (s : String) : Option Nat :=
  (Decimal.readNat? s.toList).filter (· < pow2 64)

/-- The options that every command takes. -/
private def commonSpecs : List OptionSpec := [
  { name := "format", letter := some 'f'
    value := some fun s ↦ (OutputFormat.names.lookup s).isSome },
  { name := "quiet", letter := some 'q' },
  { name := "verbose", letter := some 'v' },
  { name := "project", value := some isPath }]

/-- The options that select parts. -/
private def selectionSpecs : List OptionSpec := [
  { name := "family", value := some fun s ↦ (Family.parse? s).isSome },
  { name := "search", value := some fun _ ↦ true }]

/-- A command that is not followed by others. -/
private def leaf (name : String) (options : List OptionSpec := [])
    (positional : PositionalSpec := { most := some 0 }) : Grammar :=
  .node name (commonSpecs ++ options) positional []

/-- A command that only leads to others. -/
private def group (name : String) (commands : List Grammar) : Grammar :=
  .node name commonSpecs { most := some 0 } commands

/-- One text that names a path. -/
private def onePath : PositionalSpec := { least := 1, most := some 1, accepts := isPath }

/-- The grammar of the program's command lines. -/
def grammar : Grammar := group "tasm" [
  leaf "init" [{ name := "force" }] { most := some 1, accepts := isPath },
  leaf "parse" [] onePath,
  leaf "match" [{ name := "all" }] { least := 2, most := some 2 },
  leaf "solve"
    (selectionSpecs ++ [
      { name := "parts", value := some fun _ ↦ true, repeats := true },
      { name := "scene", letter := some 's', value := some isPath },
      { name := "mesh-dir", value := some isPath },
      { name := "timeout", value := some fun s ↦ (wholeNumber? s).isSome },
      { name := "constraints" }])
    { most := some 1, accepts := isPath },
  group "parts" [
    leaf "list" selectionSpecs,
    leaf "import" [{ name := "dry-run" }, { name := "skip-errors" }, { name := "force" }] onePath],
  group "rules" [leaf "list" [{ name := "all" }]],
  group "store" [leaf "sync", leaf "info"],
  leaf "validate" [{ name := "keep-going" }, { name := "summary" }] { accepts := isPath },
  leaf "completions" []
    { least := 1, most := some 1, accepts := fun s ↦ (Shell.ofName? s).isSome }]

namespace Call

/-- Whether an option is given. -/
def has (c : Call) (name : String) : Bool := c.options.any (·.1 == name)

/-- The value of an option. -/
def value? (c : Call) (name : String) : Option String := c.options.lookup name

/-- The values of an option that may be given more than once, each of them a list. -/
def valuesIn (c : Call) (name : String) : List String :=
  (c.options.filter (·.1 == name)).flatMap fun o ↦
    (Text.splitWhere (· == ',') o.2.toList).map String.ofList

/-- The options of a call that every task takes. -/
def common (c : Call) : CommonOptions where
  format := ((c.value? "format").bind fun s ↦ OutputFormat.names.lookup s).getD .auto
  quiet := c.has "quiet"
  verbose := c.has "verbose"
  project := c.value? "project"

/-- The selection of parts of a call. -/
def filter (c : Call) : PartFilter where
  ids := c.valuesIn "parts"
  family := (c.value? "family").bind Family.parse?
  search := c.value? "search"

/-- The task of a call. -/
def task? (c : Call) : Option Task :=
  match c.commands.tail, c.texts with
  | ["init"], texts => some (.setUp (texts.headD ".") (c.has "force"))
  | ["parse"], [file] => some (.parse file)
  | ["match"], [a, b] => some (.matchPair a b (c.has "all"))
  | ["solve"], texts =>
    some (.solve {
      file := texts.head?
      filter := c.filter
      scene := c.value? "scene"
      meshDir := c.value? "mesh-dir"
      timeout := (c.value? "timeout").bind wholeNumber?
      listConstraints := c.has "constraints" })
  | ["parts", "list"], _ => some (.listParts c.filter)
  | ["parts", "import"], [file] =>
    some (.importParts file {
      dryRun := c.has "dry-run", skipErrors := c.has "skip-errors", force := c.has "force" })
  | ["rules", "list"], _ => some (.listRules (c.has "all"))
  | ["store", "sync"], _ => some .syncStore
  | ["store", "info"], _ => some .showStore
  | ["validate"], paths =>
    some (.check { paths, keepGoing := c.has "keep-going", summaryOnly := c.has "summary" })
  | ["completions"], [shell] => (Shell.ofName? shell).map .completions
  | _, _ => none

end Call

/-- Reads the arguments of the program. -/
def readTask (arguments : List String) : Except Stop (CommonOptions × Task) :=
  match grammar.read arguments with
  | .error stop => .error stop
  | .ok call =>
    match call.task? with
    | some task => .ok (call.common, task)
    | none => .error .misuse

end PipingAssembly.Command
