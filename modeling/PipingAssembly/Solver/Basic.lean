import PipingAssembly.Run.Warning
import PipingAssembly.Solver.Propagation

/-!
# Solving placements

Placements spread from a base instance through the constraints. Each pass goes over the constraints
in order; one with exactly one placed side places the other. Passes end when all instances are
placed, when one makes no progress, or at a bound. Instances that are left are laid out on a grid.
-/

namespace PipingAssembly

/-- How far an instance has got in a run. -/
inductive PlacementState where
  | unplaced
  | placed
  /-- written to a scene -/
  | exported
  deriving DecidableEq, Repr, Inhabited

/-- The name of a state in documents. -/
def PlacementState.name : PlacementState → String
  | unplaced => "unplaced"
  | placed => "placed"
  | exported => "exported"

/-- Instances that do not have exactly one placement. -/
structure Incomplete where
  /-- how many have no placement -/
  missing : Nat
  /-- how many have several placements -/
  duplicated : Nat
  deriving DecidableEq, Repr, Inhabited

/-- The placements of each instance id, as they are counted one after the other. -/
structure Tally where
  counts : List (String × Nat)
  /-- how many ids have been met a second time -/
  duplicated : Nat
  deriving DecidableEq, Repr

/-- The tally of no placements: every instance id has none. -/
def Tally.start (instanceIds : List String) : Tally := ⟨instanceIds.eraseDups.map (·, 0), 0⟩

/-- Counts one placement; one of an unknown instance is passed over. -/
def Tally.add (t : Tally) (id : String) : Tally :=
  match t.counts.lookup id with
  | none => t
  | some n =>
    { counts := t.counts.map fun e ↦ if e.1 = id then (id, n + 1) else e
      duplicated := if n + 1 = 2 then t.duplicated + 1 else t.duplicated }

/-- Which instances do not have exactly one placement, if there are any. -/
def incomplete? (instanceIds placementIds : List String) : Option Incomplete :=
  let t := placementIds.foldl Tally.add (.start instanceIds)
  let missing := t.counts.countP (·.2 == 0)
  if missing = 0 ∧ t.duplicated = 0 then none else some ⟨missing, t.duplicated⟩

/-- A constraint between two different instances that both exist, with their indices. -/
structure Link where
  constraint : Constraint
  a : Nat
  b : Nat

/-- The index of the instance with an id, of the last one if there are several. -/
def instanceIndex? (instances : List Instance) (id : String) : Option Nat :=
  (instances.zipIdx.filter (·.1.id == id)).getLast?.map (·.2)

/-- The links that constraints make, in order. -/
def links (instances : List Instance) (constraints : List Constraint) : List Link :=
  constraints.filterMap fun c ↦
    match instanceIndex? instances c.entityA, instanceIndex? instances c.entityB with
    | some a, some b => if a = b then none else some ⟨c, a, b⟩
    | _, _ => none

/-- The sides of constraints that name no instance, each once for a constraint id. -/
def unknownEndpoints (instances : List Instance) (constraints : List Constraint) :
    List (String × String) :=
  (constraints.flatMap fun c ↦
    [(c.id, c.entityA), (c.id, c.entityB)].filter fun e ↦
      (instanceIndex? instances e.2).isNone).eraseDups

/-- The index of the base: of the first instance that is a source and no target, else of the first
that is no target, else of the first. -/
def baseIndex (count : Nat) (ls : List Link) : Option Nat :=
  let isSource := fun i ↦ ls.any (·.a == i)
  let isTarget := fun i ↦ ls.any (·.b == i)
  let order := List.range count
  match order.find? (fun i ↦ isSource i && !isTarget i) with
  | some i => some i
  | none =>
    match order.find? (fun i ↦ !isTarget i) with
    | some i => some i
    | none => order.head?

/-- The placements found so far, in the order of the instances. -/
abbrev Slots := List (Option Placement)

/-- The placement of one side of a link by the other side, which has been placed. -/
def Link.place (l : Link) (direction : Direction) (origin : Placement) (sourceFamily : Family)
    (policy : SolverPolicy Float) : Placement where
  instanceId := match direction with
    | .forward => l.constraint.entityB
    | .backward => l.constraint.entityA
  pose := origin.pose.propagate direction l.constraint.type l.constraint.parameters policy
    sourceFamily
  source := .constraint l.constraint.id origin.instanceId

/-- The family of the instance with an index. -/
def familyAt (instances : List Instance) (i : Nat) : Family :=
  (instances[i]?.map (·.family)).getD .other

/-- The effect of one link: with exactly one side placed it places the other. -/
def Slots.step (instances : List Instance) (policy : SolverPolicy Float) (slots : Slots)
    (l : Link) : Slots :=
  let family := familyAt instances l.a
  match slots[l.a]?.join, slots[l.b]?.join with
  | some origin, none => slots.set l.b (some (l.place .forward origin family policy))
  | none, some origin => slots.set l.a (some (l.place .backward origin family policy))
  | _, _ => slots

/-- The effect of one pass over the links. -/
def Slots.pass (instances : List Instance) (policy : SolverPolicy Float) (ls : List Link)
    (slots : Slots) : Slots :=
  ls.foldl (Slots.step instances policy) slots

/-- How many instances have a placement. -/
def Slots.placedCount (slots : Slots) : Nat := slots.countP (·.isSome)

/-- Runs at most `bound` passes; the answer has the number of passes that were run, counted from
`done`. -/
def Slots.run (instances : List Instance) (policy : SolverPolicy Float) (ls : List Link) :
    Nat → Nat → Slots → Nat × Slots
  | 0, done, slots => (done, slots)
  | bound + 1, done, slots =>
    if slots.all (·.isSome) then (done, slots)
    else
      let next := Slots.pass instances policy ls slots
      if next.placedCount = slots.placedCount then (done + 1, next)
      else Slots.run instances policy ls bound (done + 1) next

/-- The position of a slot of the grid. -/
def gridPosition (policy : SolverPolicy Float) (slot : Nat) : Vec3 Float :=
  let columns := max policy.gridColumns.toNat 1
  ⟨Float.ofNat (slot % columns) * policy.gridSpacing,
    Float.ofNat (slot / columns) * policy.gridSpacing, 0⟩

/-- Gives the instances without a placement the slots of the grid from `slot` on. -/
def fillGrid (policy : SolverPolicy Float) : Nat → List Instance → Slots → List Placement
  | slot, i :: is, s :: slots =>
    match s with
    | some p => p :: fillGrid policy slot is slots
    | none =>
      ⟨i.id, ⟨gridPosition policy slot, .zero⟩, .fallback (UInt64.ofNat slot)⟩ ::
        fillGrid policy (slot + 1) is slots
  | _, _, _ => []

/-- The warnings about the instances without a placement, with the slots they get from `slot` on. -/
def gridWarnings (policy : SolverPolicy Float) : Nat → List Instance → Slots → List Warning
  | slot, i :: is, s :: slots =>
    match s with
    | some _ => gridWarnings policy slot is slots
    | none =>
      .fallbackPlacement i.id (UInt64.ofNat slot) (gridPosition policy slot) ::
        gridWarnings policy (slot + 1) is slots
  | _, _, _ => []

/-- The result of solving. -/
structure Solution where
  /-- one placement for each instance, in order -/
  placements : List Placement
  base : Option String
  /-- how many passes were run -/
  passes : Nat
  warnings : List Warning

/-- The greatest number of passes; the product is that of 64-bit words. -/
def passBound (policy : SolverPolicy Float) (count : Nat) : Nat :=
  (policy.passesPerPart * UInt64.ofNat count).toNat

/-- The placements before the first pass: that of the base alone. -/
def initialSlots (instances : List Instance) (base : Option Nat) : Slots :=
  instances.mapIdx fun i inst ↦
    if base = some i then some ⟨inst.id, .origin, .base⟩ else none

/-- Places all instances. This fails only if an instance id occurs twice. -/
def solve (instances : List Instance) (constraints : List Constraint)
    (policy : SolverPolicy Float) : Except Incomplete Solution :=
  let ls := links instances constraints
  let base := baseIndex instances.length ls
  let (passes, slots) := Slots.run instances policy ls (passBound policy instances.length) 0
    (initialSlots instances base)
  let placements := fillGrid policy 0 instances slots
  let unknown := (unknownEndpoints instances constraints).map fun (c, i) ↦ .unknownEndpoint c i
  match incomplete? (instances.map (·.id)) (placements.map (·.instanceId)) with
  | some e => .error e
  | none => .ok {
      placements
      base := base.bind fun b ↦ instances[b]?.map (·.id)
      passes
      warnings := unknown ++ gridWarnings policy 0 instances slots }

end PipingAssembly
