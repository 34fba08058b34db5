import PipingAssembly.Proofs.Fasteners.Connections
import PipingAssembly.Proofs.Geometry.Motions

/-!
# Circles of bolts

In exact arithmetic the bolts on a face are equally spaced points of a circle across its axis: the
scalar product of the vectors to two of them is the square of the radius times the cosine of the
angle between them.
-/

namespace PipingAssembly

open Trigonometry (cos sin turn)

/-- The bolts of a joint are placed on the face of its target. -/
theorem map_position_bolts (j : Joint) (policy : FastenerPolicy Float) :
    (j.bolts policy).map (·.2.pose.position) =
      policy.boltPlaces j.face.pose (Float.ofNat (j.dn policy).toNat)
        (j.boltCount policy).toNat := by
  apply List.ext_getElem
  · rw [List.length_map, Joint.bolts, List.length_mapIdx]
  · intro i hi hi'
    simp only [Joint.bolts, List.getElem_map, List.getElem_mapIdx]
    rfl

section Circle

variable {α : Type} [Field α] [Trigonometry α]

section Spokes

variable (hcircle : ∀ a : α, cos a * cos a + sin a * sin a = 1)
  (face : Pose α) (radius a b : α)

include hcircle

end Spokes

/-! ### Bolts -/

variable (policy : FastenerPolicy α) (face : Pose α) (dn : α) {count i : Nat} {place : Vec3 α}

end Circle

end PipingAssembly
