import PipingAssembly.Geometry.Rotation
import PipingAssembly.Part.Basic

/-!
# Instances and placements

An instance is an occurrence of a part in one assembly. A placement is its final pose, with the way
in which the pose was found.
-/

namespace PipingAssembly

/-- What an instance is for that was added to an assembly. -/
inductive Role where
  | fastener
  | sealing
  deriving DecidableEq, Repr, Inhabited

/-- The name of a role in documents. -/
def Role.name : Role → String
  | fastener => "fastener"
  | sealing => "seal"

/-- An occurrence of a part. -/
structure Instance where
  id : String
  partId : String
  name : String
  family : Family := .other
  dn : Option UInt32 := none
  /-- the pose as it was read -/
  pose : Pose Float := .origin
  zDirection : Option (Vec3 Float) := none
  xDirection : Option (Vec3 Float) := none
  /-- given for fasteners and seals that were added -/
  role : Option Role := none
  /-- the connection that an added instance belongs to -/
  connectionId : Option String := none
  deriving Inhabited

namespace Instance

/-- The occurrence of a catalog entry under its own id. -/
def ofPart (p : Part) : Instance :=
  { id := p.id, partId := p.id, name := p.displayName, family := p.family, dn := p.dn }

/-- Whether an instance was added as a fastener or a seal. -/
def isSynthesized (i : Instance) : Bool := i.role.isSome

end Instance

/-- How a placement was found. -/
inductive PlacementSource where
  /-- the anchor of the assembly -/
  | base
  /-- through a constraint from an instance that was placed before -/
  | constraint (constraintId origin : String)
  /-- on a grid, since no chain of constraints led there -/
  | fallback (slot : UInt64)
  /-- with the connection that the instance was added for -/
  | synthesized (connectionId : String)
  deriving DecidableEq, Repr, Inhabited

/-- The final pose of an instance. -/
structure Placement where
  instanceId : String
  pose : Pose Float
  source : PlacementSource
  deriving Inhabited

namespace Placement

/-- Whether a placement is on the grid. -/
def isFallback (p : Placement) : Bool :=
  match p.source with
  | .fallback _ => true
  | _ => false

/-- The rigid motion of a placement. -/
def transform (p : Placement) : List Float := p.pose.transform

end Placement

end PipingAssembly
