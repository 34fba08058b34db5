/-!
# Vectors and matrices

Vectors of three components and three-by-three matrices, kept as columns. The arithmetic is that of
the component type, so the same definitions run in floating point and are reasoned about in exact
arithmetic.
-/

namespace PipingAssembly

/-- A vector with three components. -/
structure Vec3 (α : Type) where
  x : α
  y : α
  z : α
  deriving DecidableEq, BEq, Repr, Inhabited

namespace Vec3

variable {α : Type}

instance [Add α] : Add (Vec3 α) := ⟨fun u v ↦ ⟨u.x + v.x, u.y + v.y, u.z + v.z⟩⟩

instance [Sub α] : Sub (Vec3 α) := ⟨fun u v ↦ ⟨u.x - v.x, u.y - v.y, u.z - v.z⟩⟩

/-- The vector with every component multiplied by a number. -/
def scale [Mul α] (k : α) (v : Vec3 α) : Vec3 α := ⟨v.x * k, v.y * k, v.z * k⟩

/-- The scalar product. -/
def dot [Add α] [Mul α] (u v : Vec3 α) : α := u.x * v.x + u.y * v.y + u.z * v.z

/-- The vector product. -/
def cross [Sub α] [Mul α] (u v : Vec3 α) : Vec3 α :=
  ⟨u.y * v.z - v.y * u.z, u.z * v.x - v.z * u.x, u.x * v.y - v.x * u.y⟩

/-- The vector whose components are all zero. -/
def zero [OfNat α 0] : Vec3 α := ⟨0, 0, 0⟩

/-- The first unit vector. -/
def unitX [OfNat α 0] [OfNat α 1] : Vec3 α := ⟨1, 0, 0⟩

/-- The second unit vector. -/
def unitY [OfNat α 0] [OfNat α 1] : Vec3 α := ⟨0, 1, 0⟩

/-- The third unit vector. -/
def unitZ [OfNat α 0] [OfNat α 1] : Vec3 α := ⟨0, 0, 1⟩

/-- The components in order. -/
def toList (v : Vec3 α) : List α := [v.x, v.y, v.z]

end Vec3

/-- A matrix of three columns. -/
structure Mat3 (α : Type) where
  x : Vec3 α
  y : Vec3 α
  z : Vec3 α
  deriving DecidableEq, BEq, Repr, Inhabited

namespace Mat3

variable {α : Type}

/-- The image of a vector. -/
def apply [Add α] [Mul α] (m : Mat3 α) (v : Vec3 α) : Vec3 α :=
  m.x.scale v.x + m.y.scale v.y + m.z.scale v.z

/-- The product of two matrices: the right one acts first. -/
def compose [Add α] [Mul α] (m n : Mat3 α) : Mat3 α := ⟨m.apply n.x, m.apply n.y, m.apply n.z⟩

/-- The entries in column order. -/
def toList (m : Mat3 α) : List α := m.x.toList ++ m.y.toList ++ m.z.toList

end Mat3

end PipingAssembly
