import PipingAssembly.Constraint.Basic
import PipingAssembly.Fasteners.Basic
import PipingAssembly.Solver.Basic

/-!
# Reports

A report tells for every instance of a run how it was placed.
-/

namespace PipingAssembly

open Value (optionalField)

/-- What a report tells of an instance. -/
structure ReportEntry where
  instanceId : String
  partId : String
  pose : Pose Float
  /-- the constraint or the connection that placed the instance -/
  placedBy : Option String
  /-- the ids of all constraints that name the instance -/
  constraints : List String
  fallback : Bool
  role : Option Role
  state : PlacementState
  deriving Inhabited

/-- How the instances of a run were placed. -/
structure Report where
  base : Option String
  passes : Nat
  entries : List ReportEntry
  deriving Inhabited

/-- The constraint or the connection of a placement. -/
def PlacementSource.placedBy? : PlacementSource → Option String
  | constraint constraintId _ => some constraintId
  | synthesized connectionId => some connectionId
  | base => none
  | fallback _ => none

/-- The entry of an instance. -/
def ReportEntry.of (constraints : List Constraint) (placements : List Placement) (i : Instance) :
    ReportEntry :=
  let placement := findPlacement? placements i.id
  { instanceId := i.id, partId := i.partId
    pose := (placement.map (·.pose)).getD .origin
    placedBy := placement.bind (·.source.placedBy?)
    constraints := (constraints.filter (·.touches i.id)).map (·.id)
    fallback := placement.any (·.isFallback)
    role := i.role
    state := if placement.isSome then .placed else .unplaced }

namespace Report

/-- The report on instances and their placements. -/
def build (base : Option String) (passes : Nat) (instances : List Instance)
    (constraints : List Constraint) (placements : List Placement) : Report :=
  ⟨base, passes, instances.map (ReportEntry.of constraints placements)⟩

/-- The entry of an instance id. -/
def entry? (r : Report) (instanceId : String) : Option ReportEntry :=
  r.entries.find? (·.instanceId == instanceId)

/-- How many instances are on the grid. -/
def fallbackCount (r : Report) : Nat := r.entries.countP (·.fallback)

/-- The report after its scene has been written. -/
def markExported (r : Report) : Report :=
  { r with entries := r.entries.map fun e ↦
      if e.state = .placed then { e with state := .exported } else e }

end Report

/-- The warnings about constraints between different nominal diameters. -/
def dnMismatches (instances : List Instance) (constraints : List Constraint) : List Warning :=
  constraints.filterMap fun c ↦ do
    let dnA ← (← findInstance? instances c.entityA).dn
    let dnB ← (← findInstance? instances c.entityB).dn
    if dnA = dnB then none else some (.dnMismatch c.id c.entityA dnA c.entityB dnB)

/-- The value of an entry. -/
def ReportEntry.toValue (e : ReportEntry) : Value :=
  .object <|
    [("instance_id", .text e.instanceId), ("part_id", .text e.partId),
     ("position", e.pose.position.toValue), ("rotation", e.pose.rotation.toValue)] ++
    optionalField "placed_by" .text e.placedBy ++
    [("constraints", .list (e.constraints.map .text)), ("fallback", .bool e.fallback)] ++
    optionalField "role" (fun r ↦ .text r.name) e.role ++ [("state", .text e.state.name)]

/-- The value of a report. -/
def Report.toValue (r : Report) : Value :=
  .object <|
    optionalField "base" .text r.base ++
    [("passes", .int r.passes), ("entries", .list (r.entries.map ReportEntry.toValue))]

end PipingAssembly
