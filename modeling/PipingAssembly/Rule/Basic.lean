import PipingAssembly.Constraint.Basic

/-!
# Rules

A rule says under which condition a pair of parts is joined by which constraint.
-/

namespace PipingAssembly

/-- A test of one attribute of a part. -/
structure AttributeTest where
  field : String
  /-- the value that the attribute has to have, up to the case of ASCII letters -/
  value : Option String := none
  /-- a text that the attribute has to contain; it goes before `value` -/
  contains : Option String := none
  deriving DecidableEq, Repr, Inhabited

/-- The condition under which a rule applies to a pair. -/
inductive Condition where
  /-- both parts pass the same test -/
  | both (test : AttributeTest)
  /-- the name or the id of one of the parts contains a text, in any letter case -/
  | nameContains (value : String)
  /-- both parts have the same thread -/
  | threadMatch
  /-- a bolt and a nut with the same thread -/
  | boltNutPair
  /-- the distance of two instances lies in a closed band -/
  | distanceRange (min max : Float)
  /-- any two neighbouring instances -/
  | mateType (mateType : String)
  deriving Inhabited

namespace Condition

/-- Whether a condition depends on the positions of instances. -/
def isSpatial : Condition → Bool
  | distanceRange .. => true
  | mateType _ => true
  | _ => false

/-- The name of a condition's kind in documents and tables. -/
def kind : Condition → String
  | both _ => "both"
  | nameContains _ => "name_contains"
  | threadMatch => "thread_match"
  | boltNutPair => "bolt_nut_pair"
  | distanceRange .. => "distance_range"
  | mateType _ => "mate_type"

end Condition

/-- The constraint that a rule asks for. -/
structure Action where
  type : ConstraintType
  parameters : Parameters Float := {}
  deriving Inhabited

/-- A rule that turns pairs of parts into constraints. -/
structure Rule where
  id : String
  name : String
  description : Option String := none
  /-- a greater number earns more confidence -/
  priority : Int32 := 0
  condition : Condition
  action : Action
  /-- what is added to the confidence of neighbours in an exchange file -/
  confidenceBoost : Float := 0.0
  isActive : Bool := true
  deriving Inhabited

end PipingAssembly
