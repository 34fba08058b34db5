import PipingAssembly.Constraint.Codec
import PipingAssembly.Exchange.Occurrence
import PipingAssembly.Matching.Generation
import PipingAssembly.Run.Report
import PipingAssembly.Scene.Export

/-!
# Runs

A run takes the parts of a catalog, or the instances of an exchange file, to constraints,
placements, fasteners and a report.
-/

namespace PipingAssembly

/-- How the constraints of a run were generated. -/
inductive Mode where
  /-- from every pair of the catalog -/
  | catalog
  /-- from the neighbouring instances of an exchange file -/
  | exchange
  deriving DecidableEq, Repr, Inhabited

/-- The name of a mode. -/
def Mode.name : Mode → String
  | catalog => "catalog"
  | exchange => "exchange"

/-- The stages of a run before which a deadline is looked at. -/
inductive Stage where
  | parse
  | generate
  | solve
  | fasteners
  deriving DecidableEq, Repr

/-- The name of a stage. -/
def Stage.name : Stage → String
  | parse => "parse"
  | generate => "generate"
  | solve => "solve"
  | fasteners => "fasteners"

/-- Why a run has no result. -/
inductive RunError where
  | noPartData
  | cancelled (stage : Stage)
  | placementIncomplete (e : Incomplete)
  deriving DecidableEq, Repr

/-- The text of the reason why a run has no result. -/
def RunError.message : RunError → String
  | noPartData =>
    "no part data: the catalog selection is empty and the exchange file has no products"
  | cancelled stage => "run cancelled: deadline passed before " ++ stage.name
  | placementIncomplete e =>
    "placement incomplete: " ++ Decimal.natText e.missing ++
      " instance(s) without a placement, " ++ Decimal.natText e.duplicated ++ " with more than one"

/-- The counts of a run. -/
structure Statistics where
  catalogParts : Nat
  rules : Nat
  instances : Nat
  synthesized : Nat
  constraints : Nat
  placedByConstraint : Nat
  fallback : Nat
  passes : Nat
  warnings : Nat
  deriving DecidableEq, Repr, Inhabited

/-- The result of a run. -/
structure Run where
  name : String
  mode : Mode
  instances : List Instance
  constraints : List Constraint
  placements : List Placement
  report : Report
  warnings : List Warning
  statistics : Statistics
  deriving Inhabited

/-- What a run works with. -/
structure RunContext where
  parts : List Part
  rules : List Rule
  policy : Policy := {}
  /-- whether the deadline has passed before a stage -/
  isPast : Stage → Bool := fun _ ↦ false

namespace RunContext

/-- Goes on unless the deadline has passed before a stage. -/
def checkpoint (c : RunContext) (stage : Stage) : Except RunError Unit :=
  if c.isPast stage then .error (.cancelled stage) else .ok ()

/-- Solves a run, adds the fasteners and reports on all of it. -/
def finish (c : RunContext) (name : String) (mode : Mode) (instances : List Instance)
    (constraints : List Constraint) (warnings : List Warning) : Except RunError Run := do
  c.checkpoint .solve
  let solution ← (solve instances constraints c.policy.solver).mapError .placementIncomplete
  let warnings := warnings ++ solution.warnings ++ dnMismatches instances constraints
  c.checkpoint .fasteners
  let added := synthesize instances constraints solution.placements c.policy.fasteners
  let instances := instances ++ added.map (·.1)
  let placements := solution.placements ++ added.map (·.2)
  let report := Report.build solution.base solution.passes instances constraints placements
  return {
    name, mode, instances, constraints, placements, report, warnings
    statistics := {
      catalogParts := c.parts.length
      rules := c.rules.length
      instances := instances.length
      synthesized := added.length
      constraints := constraints.length
      placedByConstraint := report.entries.countP fun e ↦ e.placedBy.isSome && e.role.isNone
      fallback := report.fallbackCount
      passes := report.passes
      warnings := warnings.length } }

/-- Assembles the parts of the catalog under a name, with warnings given before. -/
def assembleCatalog (c : RunContext) (name : String) (warnings : List Warning) :
    Except RunError Run := do
  if c.parts.isEmpty then .error .noPartData
  c.checkpoint .generate
  let constraints := generateCatalog c.parts c.rules c.policy.matching
  c.finish name .catalog (c.parts.map .ofPart) constraints warnings

/-- Assembles the parts of the catalog. -/
def runCatalog (c : RunContext) : Except RunError Run := c.assembleCatalog "catalog" []

/-- An instance with the family and the nominal diameter of its catalog entry, if it has one. -/
def withCatalogEntry (c : RunContext) (i : Instance) : Instance :=
  match findPart? c.parts i.partId with
  | some p => { i with family := p.family, dn := p.dn.or i.dn }
  | none => i

/-- Assembles the instances of an exchange file. A file without instances gives way to the catalog.
-/
def runExchange (c : RunContext) (text name : String) : Except RunError Run := do
  c.checkpoint .parse
  let instances := (Exchange.Assembly.read text).instances
  if instances.isEmpty then
    if c.parts.isEmpty then .error .noPartData
    else c.assembleCatalog name [.emptyExchangeFile name]
  else
    let instances := instances.map c.withCatalogEntry
    c.checkpoint .generate
    let constraints := generateSequential instances c.parts c.rules c.policy.matching
    c.finish name .exchange instances constraints []

end RunContext

namespace Run

/-- The placement of an instance. -/
def placement? (r : Run) (instanceId : String) : Option Placement :=
  r.placements.find? (·.instanceId == instanceId)

/-- The scene of a run, and the run after it has been written: every placed instance is exported
and the warnings of meshes are added. -/
def exportScene (r : Run) (meshes : Option MeshSource) : Scene × Run :=
  let (scene, added) := PipingAssembly.exportScene r.name r.instances r.placements meshes
  let warnings := r.warnings ++ added
  (scene,
    { r with
      warnings
      statistics := { r.statistics with warnings := warnings.length }
      report := r.report.markExported })

end Run

/-- The value of the counts of a run. -/
def Statistics.toValue (s : Statistics) : Value :=
  .object
    [("catalog_parts", .int s.catalogParts), ("rules", .int s.rules),
     ("instances", .int s.instances), ("synthesized", .int s.synthesized),
     ("constraints", .int s.constraints), ("placed_by_constraint", .int s.placedByConstraint),
     ("fallback", .int s.fallback), ("passes", .int s.passes), ("warnings", .int s.warnings)]

/-- The value of a run. -/
def Run.toValue (r : Run) : Value :=
  .object
    [("name", .text r.name), ("mode", .text r.mode.name),
     ("instances", .list (r.instances.map Instance.toValue)),
     ("constraints", .list (r.constraints.map Constraint.toValue)),
     ("placements", .list (r.placements.map Placement.toValue)), ("report", r.report.toValue),
     ("warnings", .list (r.warnings.map Warning.toValue)), ("statistics", r.statistics.toValue)]

end PipingAssembly
