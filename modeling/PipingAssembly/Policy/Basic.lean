import PipingAssembly.Part.Family

/-!
# Policy

The numbers that the solver, the layout of fasteners and the matching of rules work with. They are
kept in a type of numbers of one's choice; a run uses floating point.
-/

namespace PipingAssembly

/-- The nominal size of a family. -/
structure Dimensions (α : Type) where
  /-- the extent along the axis -/
  length : α
  diameter : α
  deriving DecidableEq, Repr, Inhabited

/-- The numbers of the solver. -/
structure SolverPolicy (α : Type) where
  /-- the offset of concentric and coincident constraints without a distance -/
  defaultDistance : α
  /-- the offset of a screw along the first axis -/
  screwLateralOffset : α
  /-- the advance of a screw along the third axis with a revolution -/
  threadPitch : α
  defaultRevolutions : α
  /-- how many passes over the constraints there may be for each part -/
  passesPerPart : UInt64
  gridColumns : UInt64
  gridSpacing : α
  /-- the extent of families that the table of dimensions does not have -/
  defaultExtent : α
  /-- nominal sizes in the order of families -/
  dimensions : List (Family × Dimensions α)
  deriving Inhabited

/-- The nominal extent of a family along the axis. -/
def SolverPolicy.axialExtent {α : Type} (p : SolverPolicy α) (f : Family) : α :=
  match p.dimensions.lookup f with
  | some d => d.length
  | none => p.defaultExtent

/-- The numbers of the layout of fasteners. -/
structure FastenerPolicy (α : Type) where
  /-- the radius of a bolt circle as a multiple of the nominal diameter -/
  boltCircleFactor : α
  defaultBoltCount : UInt32
  defaultBoltSpec : String
  /-- the nominal diameter where neither side has one -/
  defaultDn : UInt32
  /-- the distance of the bolts from the face along the axis -/
  boltStandoff : α
  /-- the offset of the gasket from the face along the axis -/
  gasketOffset : α
  deriving Inhabited

/-- The numbers of the matching of rules. -/
structure MatchPolicy (α : Type) where
  baseConfidence : α
  /-- the confidence of neighbours in an exchange file -/
  sequentialConfidence : α
  deriving Inhabited

/-- The nominal sizes that are used unless others are given. -/
def Dimensions.defaults : List (Family × Dimensions Float) :=
  [(.pipe, ⟨200, 50⟩), (.flange, ⟨20, 150⟩), (.valve, ⟨150, 50⟩), (.bolt, ⟨60, 16⟩),
   (.nut, ⟨10, 24⟩), (.gasket, ⟨3, 100⟩)]

/-- The solver's numbers that are used unless others are given. -/
def SolverPolicy.default : SolverPolicy Float where
  defaultDistance := 100
  screwLateralOffset := 50
  threadPitch := 2
  defaultRevolutions := 5
  passesPerPart := 2
  gridColumns := 5
  gridSpacing := 200
  defaultExtent := 100
  dimensions := Dimensions.defaults

/-- The numbers for fasteners that are used unless others are given. -/
def FastenerPolicy.default : FastenerPolicy Float where
  boltCircleFactor := 1.8
  defaultBoltCount := 4
  defaultBoltSpec := "M16"
  defaultDn := 50
  boltStandoff := 5
  gasketOffset := -2

/-- The numbers for matching that are used unless others are given. -/
def MatchPolicy.default : MatchPolicy Float where
  baseConfidence := 0.7
  sequentialConfidence := 0.8

/-- All numbers of a run. -/
structure Policy where
  solver : SolverPolicy Float := SolverPolicy.default
  fasteners : FastenerPolicy Float := FastenerPolicy.default
  matching : MatchPolicy Float := MatchPolicy.default
  deriving Inhabited

end PipingAssembly
