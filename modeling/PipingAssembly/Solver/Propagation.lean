import PipingAssembly.Constraint.Basic
import PipingAssembly.Geometry.Rotation
import PipingAssembly.Policy.Basic

/-!
# Placing one instance by another

A constraint puts its target at an offset from its source, along the axes of the instance that has
been placed, and turns it about the second axis. Read backward it puts the source at the negated
offset.
-/

namespace PipingAssembly

variable {α : Type} [Add α] [Sub α] [Mul α] [Neg α] [OfNat α 0] [OfNat α 1] [Trigonometry α]

/-- The offset between the two sides of a constraint, along the axes of a frame. -/
def ConstraintType.offset (type : ConstraintType) (parameters : Parameters α)
    (policy : SolverPolicy α) (sourceFamily : Family) (frame : Mat3 α) : Vec3 α :=
  let primary := frame.apply .unitX
  let axial := frame.apply .unitZ
  match type with
  | .concentric => primary.scale (parameters.distance.getD policy.defaultDistance)
  | .coincident => primary.scale (parameters.distance.getD policy.defaultDistance)
  | .screw =>
    let revolutions := parameters.revolutions.getD policy.defaultRevolutions
    primary.scale policy.screwLateralOffset + axial.scale (revolutions * policy.threadPitch)
  | .distance => primary.scale (parameters.distance.getD (policy.axialExtent sourceFamily))
  | .other => primary.scale (policy.axialExtent sourceFamily)

/-- The side of a constraint that has been placed. -/
inductive Direction where
  /-- the source has been placed -/
  | forward
  /-- the target has been placed -/
  | backward
  deriving DecidableEq, Repr

/-- The pose of one side of a constraint, given that of the other side. -/
def Pose.propagate (p : Pose α) (direction : Direction) (type : ConstraintType)
    (parameters : Parameters α) (policy : SolverPolicy α) (sourceFamily : Family) : Pose α :=
  let offset := type.offset parameters policy sourceFamily p.frame
  let angle : Vec3 α := ⟨0, parameters.angle.getD 0, 0⟩
  match direction with
  | .forward => ⟨p.position + offset, p.rotation + angle⟩
  | .backward => ⟨p.position - offset, p.rotation - angle⟩

end PipingAssembly
