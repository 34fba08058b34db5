import PipingAssembly.Geometry.Vector

/-!
# Rotations and poses

A rotation is given by three angles in degrees, applied about the first, the second and then the
third axis. A pose is a position and a rotation.
-/

namespace PipingAssembly

/-- What a type of numbers offers for angles. -/
class Trigonometry (α : Type) where
  sin : α → α
  cos : α → α
  /-- the radians of an angle in degrees -/
  radians : α → α
  /-- the radians of a full turn -/
  turn : α

/-- The ratio of a circle's circumference to its diameter. -/
def pi : Float := 3.141592653589793

instance natCastFloat : NatCast Float := ⟨Float.ofNat⟩

instance : Trigonometry Float where
  sin := Float.sin
  cos := Float.cos
  radians := fun x ↦ x * (pi / 180)
  turn := 2 * pi

section Rotation

variable {α : Type} [Add α] [Mul α] [Neg α] [OfNat α 0] [OfNat α 1] [Trigonometry α]

/-- The rotation about the first axis by an angle in radians. -/
def rotationX (a : α) : Mat3 α :=
  let s := Trigonometry.sin a
  let c := Trigonometry.cos a
  ⟨.unitX, ⟨0, c, s⟩, ⟨0, -s, c⟩⟩

/-- The rotation about the second axis by an angle in radians. -/
def rotationY (a : α) : Mat3 α :=
  let s := Trigonometry.sin a
  let c := Trigonometry.cos a
  ⟨⟨c, 0, -s⟩, .unitY, ⟨s, 0, c⟩⟩

/-- The rotation about the third axis by an angle in radians. -/
def rotationZ (a : α) : Mat3 α :=
  let s := Trigonometry.sin a
  let c := Trigonometry.cos a
  ⟨⟨c, s, 0⟩, ⟨-s, c, 0⟩, .unitZ⟩

/-- The rotation about the three axes, the first one first, by angles in degrees. -/
def rotationMatrix (degrees : Vec3 α) : Mat3 α :=
  ((rotationZ (Trigonometry.radians degrees.z)).compose
    (rotationY (Trigonometry.radians degrees.y))).compose
      (rotationX (Trigonometry.radians degrees.x))

/-- A position and a rotation by angles in degrees. -/
structure Pose (α : Type) where
  position : Vec3 α
  rotation : Vec3 α
  deriving DecidableEq, BEq, Repr, Inhabited

/-- The pose at the origin without rotation. -/
def Pose.origin : Pose α := ⟨.zero, .zero⟩

/-- The rotated axes of a pose. -/
def Pose.frame (p : Pose α) : Mat3 α := rotationMatrix p.rotation

/-- The place of a point that is given relative to a pose. -/
def Pose.apply (p : Pose α) (v : Vec3 α) : Vec3 α := p.position + p.frame.apply v

/-- The rigid motion of a pose as the sixteen entries of a matrix, in column order. -/
def Pose.transform (p : Pose α) : List α :=
  let m := p.frame
  m.x.toList ++ [0] ++ m.y.toList ++ [0] ++ m.z.toList ++ [0] ++ p.position.toList ++ [1]

end Rotation

end PipingAssembly
