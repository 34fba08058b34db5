import PipingAssembly.Instance.Basic
import PipingAssembly.Matching.Match

/-!
# Generating constraints

From a catalog every pair of parts gets a constraint by its best rule. From an exchange file every
pair of neighbouring instances gets one by its best rule and one for each spatial rule that applies.
-/

namespace PipingAssembly

/-- The pairs of elements of a list, the earlier one first. -/
def orderedPairs {α : Type} : List α → List (α × α)
  | [] => []
  | a :: as => as.map (a, ·) ++ orderedPairs as

/-- The pairs of neighbouring elements of a list. -/
def neighbours {α : Type} (as : List α) : List (α × α) := as.zip as.tail

/-- A constraint that has no id yet. -/
structure Proposal where
  entityA : String
  entityB : String
  rule : Rule
  confidence : Float

/-- The constraint of a proposal with an index. -/
def Proposal.toConstraint (index : Nat) (p : Proposal) : Constraint :=
  { id := Constraint.idFor index, entityA := p.entityA, entityB := p.entityB
    type := p.rule.action.type, parameters := p.rule.action.parameters
    ruleId := p.rule.id, ruleName := p.rule.name, confidence := p.confidence }

/-- The constraints between the parts of a catalog: one by the best rule of each pair. -/
def generateCatalog (parts : List Part) (rules : List Rule) (policy : MatchPolicy Float) :
    List Constraint :=
  let proposals := (orderedPairs parts).filterMap fun (a, b) ↦
    (bestMatch? (matchingRules a b rules policy)).map fun m ↦
      (⟨a.id, b.id, m.rule, m.confidence⟩ : Proposal)
  proposals.mapIdx Proposal.toConstraint

/-- The catalog entry with an id, the last one if there are several. -/
def findPart? (catalog : List Part) (id : String) : Option Part :=
  (catalog.filter (·.id == id)).getLast?

/-- The distance of two points. -/
def Vec3.distance (u v : Vec3 Float) : Float := ((u - v).dot (u - v)).sqrt

/-- Whether a spatial rule applies to two neighbouring instances. -/
def Rule.appliesBetween (r : Rule) (a b : Instance) : Bool :=
  match r.condition with
  | .distanceRange min max =>
    let d := a.pose.position.distance b.pose.position
    min ≤ d && d ≤ max
  | .mateType _ => true
  | _ => false

/-- The catalog entry of an instance, or one read out of its name. -/
def Instance.part (catalog : List Part) (i : Instance) : Part :=
  (findPart? catalog i.partId).getD (.ofProduct i.name)

/-- The rules that join two neighbouring instances: the best one for their parts, then the spatial
ones. -/
def neighbourRules (catalog : List Part) (rules : List Rule) (policy : MatchPolicy Float)
    (a b : Instance) : List Rule :=
  let best := bestMatch? (matchingRules (a.part catalog) (b.part catalog) rules policy)
  (best.map (·.rule)).toList ++ rules.filter (·.appliesBetween a b)

/-- The confidence of a rule for neighbours. -/
def Rule.sequentialConfidence (r : Rule) (policy : MatchPolicy Float) : Float :=
  clampUnit (policy.sequentialConfidence + r.confidenceBoost)

/-- The constraints between the neighbouring instances of an exchange file. -/
def generateSequential (instances : List Instance) (catalog : List Part) (rules : List Rule)
    (policy : MatchPolicy Float) : List Constraint :=
  let proposals := (neighbours instances).flatMap fun (a, b) ↦
    (neighbourRules catalog rules policy a b).map fun r ↦
      (⟨a.id, b.id, r, r.sequentialConfidence policy⟩ : Proposal)
  proposals.mapIdx Proposal.toConstraint

end PipingAssembly
