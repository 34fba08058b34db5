import PipingAssembly.Project.Basic
import PipingAssembly.Run.Basic

/-!
# Stores

The catalog of a project is read from its files, or from the database that is derived from them.
-/

namespace PipingAssembly

/-- The records of the YAML files at a place and below it, and the files that hold none. -/
def loadAll {α : Type} (read : Value → Option α) (files : Files) (place : Path) :
    List α × List Path :=
  let loaded := (files.yamlFiles place).map fun p ↦
    (p, (((files.content? p).bind (·.text?)).bind Yaml.readRecord?).bind read)
  (loaded.filterMap (·.2), (loaded.filter (·.2.isNone)).map (·.1))

namespace Project

/-- The record files of a project, parts first. -/
def sourceFiles (p : Project) (files : Files) : List Path :=
  files.yamlFiles p.partsDir ++ files.yamlFiles p.rulesDir

/-- The record files of a project with their bytes. -/
def sources (p : Project) (files : Files) : List SourceFile :=
  (p.sourceFiles files).map fun path ↦
    ⟨path.text, ((files.content? path).map (·.toBytes)).getD []⟩

/-- The parts of a project in the order of ids. Of parts with one id the first file counts. -/
def allParts (p : Project) (files : Files) : List Part :=
  sortParts (firstOfEach (·.id) (loadAll Part.ofValue? files p.partsDir).1)

/-- The rules of a project, also inactive ones, in the order of stores. Of rules with one id the
first file counts. -/
def allRules (p : Project) (files : Files) : List Rule :=
  sortRules (firstOfEach (·.id) (loadAll Rule.ofValue? files p.rulesDir).1)

/-- The configuration in effect, in a project if there is one. -/
def configuration (w : Workspace) (p : Option Project) : Config :=
  let content := p.bind fun p ↦ (w.files.content? p.configPath).map (·.toBytes)
  Config.layered w.settings content

/-- The directory of meshes that a configuration names, from the root of the project on. -/
def meshDir? (p : Project) (c : Config) : Option String := c.meshDir.map (PathText.join p.root.text)

/-- The database in its place among files. A file that does not exist or is empty becomes a new
database. -/
def storedDatabase (p : Project) (files : Files) : Except StoreError Database :=
  match files.entry? p.databasePath with
  | none => .ok {}
  | some (.file (.bytes [])) => .ok {}
  | some (.file (.database d)) => d.opened
  | some _ => .error .database

/-- The database of a project and the files with it. -/
def openDatabase (p : Project) (files : Files) : Except StoreError (Database × Files) := do
  let files ← (files.createDirectories p.settingsDir).mapError fun _ ↦ .file
  let d ← p.storedDatabase files
  return (d, files.insert p.databasePath (.file (.database d)))

/-- Brings the database of a project up to date with its files. -/
def syncDatabase (p : Project) (files : Files) (now : String) :
    Except StoreError (Database × SyncStats × Files) := do
  let (d, files) ← p.openDatabase files
  let (d, stats) := d.sync (p.sources files) (p.allParts files) (p.allRules files) now
  return (d, stats, files.insert p.databasePath (.file (.database d)))

end Project

/-- What the parts and the rules of a catalog are read from. -/
inductive CatalogStore where
  | files (parts : List Part) (rules : List Rule)
  | database (d : Database)
  deriving Inhabited

namespace CatalogStore

/-- The parts of a selection in the order of ids. -/
def parts (f : PartFilter) : CatalogStore → Except StoreError (List Part)
  | files parts _ => .ok (f.select parts)
  | database d => d.selectParts f

/-- The active rules in the order of stores. -/
def activeRules : CatalogStore → Except StoreError (List Rule)
  | files _ rules => .ok (rules.filter (·.isActive))
  | database d => d.activeRules

/-- The store over the files of a project. -/
def ofFiles (p : Project) (files : Files) : CatalogStore :=
  .files (p.allParts files) (p.allRules files)

/-- The store of a backend, a database having been synced, and the files with it. -/
def ofBackend (p : Project) (files : Files) (now : String) :
    StoreBackend → Except StoreError (CatalogStore × Files)
  | .files => .ok (ofFiles p files, files)
  | .sqlite => do
    let (d, _, files) ← p.syncDatabase files now
    return (.database d, files)

end CatalogStore

/-- The context of a run over a selection of a store. -/
def RunContext.load (store : CatalogStore) (f : PartFilter) (policy : Policy) :
    Except StoreError RunContext := do
  let parts ← store.parts f
  let rules ← store.activeRules
  return { parts, rules, policy }

end PipingAssembly
