import PipingAssembly.Command.Listing
import PipingAssembly.Scene.Codec

/-!
# The command that assembles parts

It runs over a selection of the catalog or over an exchange file, may write the scene to a file, and
lists the placements.
-/

namespace PipingAssembly.Command

open Effect

/-- The placement of an instance as tables tell its source. -/
def sourceText : PlacementSource → String
  | .base => "base"
  | .constraint constraintId origin => constraintId ++ " from " ++ origin
  | .fallback slot => "fallback slot " ++ Decimal.natText slot.toNat
  | .synthesized connectionId => "synthesized for " ++ connectionId

/-- The constraints of a run as a table. -/
def constraintTable (r : Run) : Table where
  headers := ["ID", "A", "B", "TYPE", "RULE", "CONFIDENCE"]
  rows := r.constraints.map fun c ↦
    [c.id, c.entityA, c.entityB, c.type.name, c.ruleId, Decimal.fixed 2 c.confidence]

/-- The placements of a run as a table, in the order of instances. -/
def placementTable (r : Run) : Table where
  headers := ["INSTANCE", "PART", "POSITION", "ROTATION", "SOURCE"]
  rows := r.instances.filterMap fun i ↦ (r.placement? i.id).map fun p ↦
    [i.id, i.partId, vectorText p.pose.position, vectorText p.pose.rotation, sourceText p.source]

/-- The line that sums a run up. -/
def runSummary (r : Run) : String :=
  let n := Decimal.natText
  "→ " ++ r.mode.name ++ " mode: " ++ n r.statistics.constraints ++ " constraint(s), " ++
    n r.statistics.placedByConstraint ++ " placed by constraint, " ++ n r.statistics.fallback ++
    " fallback, " ++ n r.statistics.synthesized ++ " synthesized"

/-- Lists the placements of a run and, when asked for, the constraints. -/
private def printRun (o : CommonOptions) (listConstraints : Bool) (r : Run) : Effect Unit := do
  if listConstraints then
    printTable o.format o.quiet "constraint" (constraintTable r)
    if o.format.isHuman then printLine ""
  printTable o.format o.quiet "placement" (placementTable r)
  if o.format.isHuman && !o.quiet then printLine (runSummary r)
  if !o.quiet then r.warnings.forM fun warning ↦ note ("! " ++ warning.message)

/-- Writes a scene to a file. -/
private def writeScene (quiet : Bool) (s : Scene) (path : String) : Effect Unit := do
  let w ← workspace
  let text := Json.pretty (s.toValue Decimal.ofSingle)
  setFiles (← ofExcept .file (w.files.writeAt w.here path (.text text)))
  if !quiet then
    note ("✓ Wrote scene with " ++ Decimal.natText s.objects.length ++ " object(s) to " ++ path)

/-- The longest time in seconds that may be allowed; the end of a longer one cannot be told. -/
private def longestTimeout : Nat := pow2 63 - 2

/-- Assembles the catalog or an exchange file. -/
def solveParts (o : CommonOptions) (options : SolveOptions) : Effect Unit := do
  let p ← project o
  let config ← configuration p
  let store ← store p config
  let context ← ofExcept .store (RunContext.load store options.filter config.effectivePolicy)
  if options.timeout.any (longestTimeout < ·) then throw .endlessTime
  let context := { context with isPast := fun _ ↦ options.timeout == some 0 }
  let w ← workspace
  let r ← ofExcept .run <|
    match options.file with
    | some path =>
      context.runExchange (exchangeText w path) ((PathText.fileName? path).getD path)
    | none => context.runCatalog
  let meshes := (options.meshDir.or (p.meshDir? config)).map (meshFiles w)
  let (scene, r) := r.exportScene meshes
  if let some path := options.scene then writeScene o.quiet scene path
  if isStructured o.format then printValue o.format r.toValue
  else printRun o options.listConstraints r

end PipingAssembly.Command
