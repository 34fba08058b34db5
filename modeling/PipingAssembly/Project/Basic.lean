import PipingAssembly.Catalog.Seed
import PipingAssembly.Workspace.Basic
import PipingAssembly.Yaml.Writer

/-!
# Projects

A project is a directory with a directory of settings. It is found by walking up from where a user
stands, and begins with a catalog of seed records.
-/

namespace PipingAssembly

/-- A project, named by its root directory. -/
structure Project where
  root : Path
  deriving DecidableEq, Repr, Inhabited

/-- Why there is no project to work with. -/
inductive ProjectError where
  | notFound (searchedFrom : String)
  | alreadyExists (root : Path)
  | file (fault : FileFault)
  deriving DecidableEq, Repr

/-- The text of the reason why there is no project. -/
def ProjectError.message : ProjectError → String
  | notFound searchedFrom =>
    "not a tasm project (searched from " ++ PathText.quote searchedFrom ++
      "). Run 'tasm init' to create one."
  | alreadyExists root => "tasm project already exists at " ++ PathText.quote root.text
  | file (.unreachable path) => "cannot reach " ++ path

namespace Project

/-- The directory of settings. -/
def settingsDir (p : Project) : Path := p.root ++ [".tasm"]

/-- The file of settings. -/
def configPath (p : Project) : Path := p.settingsDir ++ ["config.yaml"]

/-- The database. -/
def databasePath (p : Project) : Path := p.settingsDir ++ ["catalog.db"]

/-- The directory of parts. -/
def partsDir (p : Project) : Path := p.root ++ ["catalog", "parts"]

/-- The directory of rules. -/
def rulesDir (p : Project) : Path := p.root ++ ["catalog", "rules"]

/-- The file of the part with an id. -/
def partPath (p : Project) (id : String) : Path := p.partsDir ++ [fileStem id ++ ".yaml"]

/-- The file in which a new project keeps the rule with an id. -/
def rulePath (p : Project) (id : String) : Path := p.rulesDir ++ [id ++ ".yaml"]

/-- The project whose directory is the innermost one around a place. -/
def enclosing? (files : Files) (place : Path) : Option Project :=
  (((List.range (place.length + 1)).reverse.map fun n ↦ Project.mk (place.take n)).find?
    fun p ↦ files.isDirectory p.settingsDir)

/-- The project around the place that a text names. -/
def discoverFrom (files : Files) (here : Path) (s : String) : Except ProjectError Project :=
  match files.existing? here s with
  | none => .error (.file (.unreachable s))
  | some place =>
    match enclosing? files place with
    | some p => .ok p
    | none => .error (.notFound s)

/-- The settings of a new project, all of them in comments. -/
def initialConfig : String := "\n".intercalate [
  "# tasm project configuration",
  "",
  "# Catalog store backend (files, sqlite)",
  "# store: files",
  "",
  "# Directory holding <part_id>.mesh.json geometry files",
  "# mesh_dir: meshes",
  "",
  "# Default output format (auto, json, yaml, tsv, md)",
  "# default_format: auto",
  "",
  "# Numeric policy overrides; unset values keep their defaults",
  "# policy:",
  "#   solver:",
  "#     default_distance: 100",
  "#     grid_spacing: 200",
  "#   fasteners:",
  "#     default_bolt_count: 4",
  "#     default_bolt_spec: M16",
  ""]

/-- A step of the setup of a project. -/
inductive SetupStep where
  | directory (p : Path)
  | file (p : Path) (content : String)
  deriving DecidableEq, Repr

/-- The steps of the setup of a project. -/
def setupSteps (p : Project) : List SetupStep :=
  [.directory p.settingsDir, .file p.configPath initialConfig, .directory p.partsDir,
    .directory p.rulesDir] ++
  seedRules.map (fun r ↦ .file (p.rulePath r.id) (Yaml.render r.toValue)) ++
  seedParts.map fun q ↦ .file (p.partPath q.id) (Yaml.render q.toValue)

/-- Takes one step of a setup. -/
def SetupStep.apply (files : Files) : SetupStep → Except FileFault Files
  | directory p => files.createDirectories p
  | file p content => files.write p (.text content)

/-- Takes the steps of a setup up to the first one that fails. -/
def setup (files : Files) : List SetupStep → Files × Option FileFault
  | [] => (files, none)
  | step :: steps =>
    match step.apply files with
    | .ok files => setup files steps
    | .error fault => (files, some fault)

/-- Sets a project up at the place that a text names, which is made if there is nothing yet. A
project that is already there is set up again only when forced. -/
def init (files : Files) (here : Path) (s : String) (force : Bool) :
    Files × Except ProjectError Project :=
  match files.createAt here s with
  | .error fault => (files, .error (.file fault))
  | .ok made =>
    match made.locate? here s with
    | none => (files, .error (.file (.unreachable s)))
    | some root =>
      let p : Project := ⟨root⟩
      if made.contains p.settingsDir && !force then (files, .error (.alreadyExists root))
      else
        match setup made p.setupSteps with
        | (files, none) => (files, .ok p)
        | (files, some fault) => (files, .error (.file fault))

end Project

end PipingAssembly
