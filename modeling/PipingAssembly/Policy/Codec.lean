import PipingAssembly.Part.Codec
import PipingAssembly.Policy.Basic

/-!
# Policy in documents

Every number may be left out and then has its default. A given table of dimensions replaces the
whole default table.
-/

namespace PipingAssembly

/-- Reads a nominal size. -/
def Dimensions.ofValue? (v : Value) : Option (Dimensions Float) := do
  let fields ← v.asRecord? ["length", "diameter"]
  let length ← fields.required? "length" Value.asFloat?
  let diameter ← fields.required? "diameter" Value.asFloat?
  some { length, diameter }

/-- Puts a size into a table in the order of families; the size of the family is replaced. -/
def insertDimensions (f : Family) (d : Dimensions Float) :
    List (Family × Dimensions Float) → List (Family × Dimensions Float)
  | [] => [(f, d)]
  | (g, e) :: rest =>
    if f = g then (f, d) :: rest
    else if f.rank < g.rank then (f, d) :: (g, e) :: rest
    else (g, e) :: insertDimensions f d rest

/-- Reads a table of nominal sizes; of several sizes for a family the last one holds. -/
def Dimensions.tableOfValue? (v : Value) : Option (List (Family × Dimensions Float)) := do
  let entries ← (← v.asObject?).mapM fun e : String × Value ↦
    (Dimensions.ofValue? e.2).map fun d ↦ (Family.ofName e.1, d)
  some (entries.foldl (fun table e ↦ insertDimensions e.1 e.2 table) [])

/-- Reads the solver's numbers. -/
def SolverPolicy.ofValue? (v : Value) : Option (SolverPolicy Float) := do
  let fields ← v.asRecord?
    ["default_distance", "screw_lateral_offset", "thread_pitch", "default_revolutions",
      "passes_per_part", "grid_columns", "grid_spacing", "default_extent", "dimensions"]
  let d := SolverPolicy.default
  let defaultDistance ← fields.withDefault? "default_distance" d.defaultDistance Value.asFloat?
  let screwLateralOffset ←
    fields.withDefault? "screw_lateral_offset" d.screwLateralOffset Value.asFloat?
  let threadPitch ← fields.withDefault? "thread_pitch" d.threadPitch Value.asFloat?
  let defaultRevolutions ←
    fields.withDefault? "default_revolutions" d.defaultRevolutions Value.asFloat?
  let passesPerPart ← fields.withDefault? "passes_per_part" d.passesPerPart Value.asUInt64?
  let gridColumns ← fields.withDefault? "grid_columns" d.gridColumns Value.asUInt64?
  let gridSpacing ← fields.withDefault? "grid_spacing" d.gridSpacing Value.asFloat?
  let defaultExtent ← fields.withDefault? "default_extent" d.defaultExtent Value.asFloat?
  let dimensions ← fields.withDefault? "dimensions" d.dimensions Dimensions.tableOfValue?
  some { defaultDistance, screwLateralOffset, threadPitch, defaultRevolutions, passesPerPart
         gridColumns, gridSpacing, defaultExtent, dimensions }

/-- Reads the numbers for fasteners. -/
def FastenerPolicy.ofValue? (v : Value) : Option (FastenerPolicy Float) := do
  let fields ← v.asRecord?
    ["bolt_circle_factor", "default_bolt_count", "default_bolt_spec", "default_dn", "bolt_standoff",
      "gasket_offset"]
  let d := FastenerPolicy.default
  let boltCircleFactor ← fields.withDefault? "bolt_circle_factor" d.boltCircleFactor Value.asFloat?
  let defaultBoltCount ←
    fields.withDefault? "default_bolt_count" d.defaultBoltCount Value.asUInt32?
  let defaultBoltSpec ← fields.withDefault? "default_bolt_spec" d.defaultBoltSpec Value.asText?
  let defaultDn ← fields.withDefault? "default_dn" d.defaultDn Value.asUInt32?
  let boltStandoff ← fields.withDefault? "bolt_standoff" d.boltStandoff Value.asFloat?
  let gasketOffset ← fields.withDefault? "gasket_offset" d.gasketOffset Value.asFloat?
  some { boltCircleFactor, defaultBoltCount, defaultBoltSpec, defaultDn, boltStandoff
         gasketOffset }

/-- Reads the numbers for matching. -/
def MatchPolicy.ofValue? (v : Value) : Option (MatchPolicy Float) := do
  let fields ← v.asRecord? ["base_confidence", "sequential_confidence"]
  let d := MatchPolicy.default
  let baseConfidence ← fields.withDefault? "base_confidence" d.baseConfidence Value.asFloat?
  let sequentialConfidence ←
    fields.withDefault? "sequential_confidence" d.sequentialConfidence Value.asFloat?
  some { baseConfidence, sequentialConfidence }

/-- Reads all numbers of a run. -/
def Policy.ofValue? (v : Value) : Option Policy := do
  let fields ← v.asRecord? ["solver", "fasteners", "matching"]
  let solver ← fields.withDefault? "solver" .default SolverPolicy.ofValue?
  let fasteners ← fields.withDefault? "fasteners" .default FastenerPolicy.ofValue?
  let matching ← fields.withDefault? "matching" .default MatchPolicy.ofValue?
  some { solver, fasteners, matching }

/-- The value of the solver's numbers. -/
def SolverPolicy.toValue (p : SolverPolicy Float) : Value :=
  .object
    [("default_distance", .real p.defaultDistance),
     ("screw_lateral_offset", .real p.screwLateralOffset), ("thread_pitch", .real p.threadPitch),
     ("default_revolutions", .real p.defaultRevolutions),
     ("passes_per_part", .int p.passesPerPart.toNat), ("grid_columns", .int p.gridColumns.toNat),
     ("grid_spacing", .real p.gridSpacing), ("default_extent", .real p.defaultExtent),
     ("dimensions", .object (p.dimensions.map fun (f, d) ↦
       (f.name, .object [("length", .real d.length), ("diameter", .real d.diameter)])))]

/-- The value of the numbers for fasteners. -/
def FastenerPolicy.toValue (p : FastenerPolicy Float) : Value :=
  .object
    [("bolt_circle_factor", .real p.boltCircleFactor),
     ("default_bolt_count", .ofUInt32 p.defaultBoltCount),
     ("default_bolt_spec", .text p.defaultBoltSpec), ("default_dn", .ofUInt32 p.defaultDn),
     ("bolt_standoff", .real p.boltStandoff), ("gasket_offset", .real p.gasketOffset)]

/-- The value of the numbers for matching. -/
def MatchPolicy.toValue (p : MatchPolicy Float) : Value :=
  .object
    [("base_confidence", .real p.baseConfidence),
     ("sequential_confidence", .real p.sequentialConfidence)]

/-- The value of all numbers of a run. -/
def Policy.toValue (p : Policy) : Value :=
  .object [("solver", p.solver.toValue), ("fasteners", p.fasteners.toValue),
    ("matching", p.matching.toValue)]

end PipingAssembly
