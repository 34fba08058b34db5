import PipingAssembly.Constraint.Basic
import PipingAssembly.Instance.Basic
import PipingAssembly.Policy.Basic

/-!
# Fasteners

Flanged joints get bolts on a circle about the axis of the target's face and, where two sealing
faces meet, a gasket. Each connected pair gets them once.
-/

namespace PipingAssembly

/-- Whether a constraint asks for fasteners. -/
def Constraint.asks (c : Constraint) : Bool := c.parameters.fasteners.isSome

/-- Whether a constraint between two instances gets fasteners: if it asks for them, or if both are
flanges. -/
def Constraint.needsFasteners (c : Constraint) (a b : Instance) : Bool :=
  c.asks || (a.family == .flange && b.family == .flange)

/-- Whether a family seals against a flange. -/
def Family.sealsFlange (f : Family) : Bool := f == .flange || f == .pipe || f == .valve

/-- Whether two families form a sealing interface. -/
def isSealingInterface (a b : Family) : Bool :=
  (a == .flange && b.sealsFlange) || (b == .flange && a.sealsFlange)

/-- The places of bolts in a circle of the second and third axes, relative to a face. -/
def boltCircle {α : Type} [Mul α] [Div α] [NatCast α] [Trigonometry α] (count : Nat)
    (radius standoff : α) : List (Vec3 α) :=
  (List.range count).map fun i : Nat ↦
    let angle := Trigonometry.turn * (i : α) / (count : α)
    ⟨standoff, radius * Trigonometry.cos angle, radius * Trigonometry.sin angle⟩

/-- The places of the bolts on a face with a pose and a nominal diameter: the circle lies across the
axis of the face. -/
def FastenerPolicy.boltPlaces {α : Type} [Add α] [Mul α] [Div α] [Neg α] [OfNat α 0] [OfNat α 1]
    [NatCast α] [Trigonometry α] (policy : FastenerPolicy α) (face : Pose α) (dn : α)
    (count : Nat) : List (Vec3 α) :=
  (boltCircle count (policy.boltCircleFactor * dn) policy.boltStandoff).map face.apply

/-- A constraint that may get fasteners, with its sides and the placement of its target. -/
structure Joint where
  constraint : Constraint
  a : Instance
  b : Instance
  face : Placement

/-- The instance with an id, the last one if there are several. -/
def findInstance? (instances : List Instance) (id : String) : Option Instance :=
  (instances.filter (·.id == id)).getLast?

/-- The placement of an instance, the last one if there are several. -/
def findPlacement? (placements : List Placement) (id : String) : Option Placement :=
  (placements.filter (·.instanceId == id)).getLast?

/-- The joint of a constraint that qualifies for fasteners: both sides exist, the target is placed
and fasteners are needed. -/
def joint? (instances : List Instance) (placements : List Placement) (c : Constraint) :
    Option Joint := do
  let a ← findInstance? instances c.entityA
  let b ← findInstance? instances c.entityB
  let face ← findPlacement? placements c.entityB
  if c.needsFasteners a b then some ⟨c, a, b, face⟩ else none

/-- The joints of the constraints that qualify for fasteners. -/
def qualifyingJoints (instances : List Instance) (constraints : List Constraint)
    (placements : List Placement) : List Joint :=
  constraints.filterMap (joint? instances placements)

/-- The two sides of a constraint without their direction: the lesser id comes first. -/
def Constraint.pair (c : Constraint) : String × String :=
  if c.entityA ≤ c.entityB then (c.entityA, c.entityB) else (c.entityB, c.entityA)

/-- Enters a constraint among those chosen so far, of which there is one for each pair. It takes the
place of the one of its pair only if it asks for fasteners and that one does not. -/
def enterChoice (c : Constraint) : List Constraint → List Constraint
  | [] => [c]
  | d :: ds =>
    if d.pair = c.pair then (if !d.asks && c.asks then c else d) :: ds else d :: enterChoice c ds

/-- The constraints chosen for the pairs that some constraints join. -/
def choices (cs : List Constraint) : List Constraint := cs.foldl (fun ds c ↦ enterChoice c ds) []

/-- The constraint chosen for the pair of a constraint. -/
def findChoice? (chosen : List Constraint) (c : Constraint) : Option Constraint :=
  chosen.find? (·.pair == c.pair)

namespace Joint

/-- What the constraint of a joint asks for, nothing in particular if it asks for nothing. -/
def request (j : Joint) : FastenerRequest := j.constraint.parameters.fasteners.getD {}

/-- The nominal diameter of a joint, that of the first side that has one. -/
def dn (j : Joint) (policy : FastenerPolicy Float) : UInt32 :=
  (j.a.dn.or j.b.dn).getD policy.defaultDn

/-- The number of bolts of a joint. -/
def boltCount (j : Joint) (policy : FastenerPolicy Float) : UInt32 :=
  j.request.boltCount.getD policy.defaultBoltCount

/-- The id of the bolt of a joint with an index. -/
def boltId (j : Joint) (i : Nat) : String :=
  j.constraint.id ++ "-BOLT-" ++ Decimal.natText (i + 1)

/-- The id of the gasket of a joint. -/
def gasketId (j : Joint) : String := j.constraint.id ++ "-GASKET"

/-- Whether a joint has a gasket: if it asks for one or if its sides seal. -/
def hasGasket (j : Joint) : Bool :=
  j.request.gasket.isSome || isSealingInterface j.a.family j.b.family

/-- A fastener of a joint at a place, turned like the face, with its placement. -/
def fastenerAt (j : Joint) (id partId : String) (family : Family) (role : Role)
    (dn : Option UInt32) (place : Vec3 Float) : Instance × Placement :=
  let pose : Pose Float := ⟨place, j.face.pose.rotation⟩
  ({ id, partId, name := partId, family, dn, pose, role := some role
     connectionId := some j.constraint.id },
    ⟨id, pose, .synthesized j.constraint.id⟩)

/-- The bolts of a joint. -/
def bolts (j : Joint) (policy : FastenerPolicy Float) : List (Instance × Placement) :=
  let dn := Float.ofNat (j.dn policy).toNat
  (policy.boltPlaces j.face.pose dn (j.boltCount policy).toNat).mapIdx fun i place ↦
    j.fastenerAt (j.boltId i) (j.request.boltSpec.getD policy.defaultBoltSpec) .bolt .fastener none
      place

/-- The gasket of a joint, if it has one. -/
def gasket (j : Joint) (policy : FastenerPolicy Float) : List (Instance × Placement) :=
  if j.hasGasket then
    let dn := j.dn policy
    let partId := j.request.gasket.getD ("DN" ++ Decimal.natText dn.toNat ++ "-RF")
    let place := j.face.pose.apply ⟨policy.gasketOffset, 0, 0⟩
    [j.fastenerAt j.gasketId partId .gasket .sealing (some dn) place]
  else []

/-- The bolts and the gasket of a joint. -/
def fasteners (j : Joint) (policy : FastenerPolicy Float) : List (Instance × Placement) :=
  j.bolts policy ++ j.gasket policy

end Joint

/-- The joints that get fasteners: of those of a pair the one whose constraint has been chosen. -/
def connections (joints : List Joint) : List Joint :=
  let chosen := choices (joints.map (·.constraint))
  joints.filter fun j ↦ (findChoice? chosen j.constraint).any (·.id == j.constraint.id)

/-- The fasteners of all connected pairs, in the order of the constraints. -/
def synthesize (instances : List Instance) (constraints : List Constraint)
    (placements : List Placement) (policy : FastenerPolicy Float) : List (Instance × Placement) :=
  (connections (qualifyingJoints instances constraints placements)).flatMap (·.fasteners policy)

end PipingAssembly
