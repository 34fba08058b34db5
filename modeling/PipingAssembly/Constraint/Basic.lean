import PipingAssembly.Decimal.Fixed
import PipingAssembly.Part.Codec

/-!
# Constraints between instances
-/

namespace PipingAssembly

/-- The kind of a constraint. -/
inductive ConstraintType where
  /-- a shared axis, with an offset along it -/
  | concentric
  /-- touching faces -/
  | coincident
  /-- an engaged thread -/
  | screw
  /-- a fixed separation -/
  | distance
  /-- any kind without handling of its own -/
  | other
  deriving DecidableEq, Repr, Inhabited

namespace ConstraintType

/-- The kinds of constraints. -/
def all : List ConstraintType := [concentric, coincident, screw, distance, other]

/-- The name of a kind in documents and tables. -/
def name : ConstraintType → String
  | concentric => "CONCENTRIC"
  | coincident => "COINCIDENT"
  | screw => "SCREW"
  | distance => "DISTANCE"
  | other => "OTHER"

/-- The kind that a document names; any unknown name stands for `other`. -/
def ofName (s : String) : ConstraintType := (all.find? (·.name == s)).getD other

/-- Reads a kind of constraint. -/
def ofValue? (v : Value) : Option ConstraintType := v.asCase?.map ofName

end ConstraintType

/-- What a connection asks for in fasteners. -/
structure FastenerRequest where
  boltCount : Option UInt32 := none
  /-- the part id of the bolts -/
  boltSpec : Option String := none
  /-- the part id of the gasket; if it is given there is a gasket in any case -/
  gasket : Option String := none
  deriving DecidableEq, Repr, Inhabited

/-- The numbers of a constraint. -/
structure Parameters (α : Type) where
  distance : Option α := none
  revolutions : Option α := none
  /-- a rotation about the second axis, in degrees -/
  angle : Option α := none
  fasteners : Option FastenerRequest := none
  deriving DecidableEq, BEq, Repr, Inhabited

/-- A constraint between two instances, with the rule that asked for it. -/
structure Constraint where
  id : String
  /-- the source side -/
  entityA : String
  /-- the target side -/
  entityB : String
  type : ConstraintType
  parameters : Parameters Float := {}
  ruleId : String
  ruleName : String
  /-- a number from 0 to 1 -/
  confidence : Float
  deriving Inhabited

namespace Constraint

/-- The id of the constraint with an index: `C` and the number from 1, of at least three digits. -/
def idFor (index : Nat) : String := "C" ++ Decimal.padStart 3 '0' (Decimal.natText (index + 1))

/-- A constraint that no rule asked for. -/
def manual (index : Nat) (a b : String) (type : ConstraintType) (parameters : Parameters Float) :
    Constraint :=
  { id := idFor index, entityA := a, entityB := b, type, parameters
    ruleId := "manual", ruleName := "Manual", confidence := 1.0 }

/-- Whether a constraint names an instance. -/
def touches (c : Constraint) (instanceId : String) : Bool :=
  c.entityA == instanceId || c.entityB == instanceId

end Constraint

end PipingAssembly
