import PipingAssembly.Proofs.Geometry.Frames
import PipingAssembly.Solver.Propagation

/-!
# Reading a constraint backward

A constraint that places its source negates offset and angle. It takes the offset along the axes of
the target, which have the angle already, while a source that places its target takes it along its
own axes, which have not. Forward after backward therefore gives back the rotation of the target in
any case, and its position exactly if the offset is the same in both frames. That is a matter of the
turn about the second axis alone: the angle is a number of whole turns, or the offset has no part
across that axis.
-/

namespace PipingAssembly

open Trigonometry (cos sin radians)

section Reversal

variable {α : Type} [CommRing α] (type : ConstraintType)
  (parameters : Parameters α) (policy : SolverPolicy α) (sourceFamily : Family)

/-- The offset between the two sides of a constraint, in the coordinates of the placed one. -/
def ConstraintType.localOffset : Vec3 α :=
  match type with
  | .concentric => ⟨parameters.distance.getD policy.defaultDistance, 0, 0⟩
  | .coincident => ⟨parameters.distance.getD policy.defaultDistance, 0, 0⟩
  | .screw => ⟨policy.screwLateralOffset, 0,
      parameters.revolutions.getD policy.defaultRevolutions * policy.threadPitch⟩
  | .distance => ⟨parameters.distance.getD (policy.axialExtent sourceFamily), 0, 0⟩
  | .other => ⟨policy.axialExtent sourceFamily, 0, 0⟩

@[simp] theorem ConstraintType.localOffset_y :
    (type.localOffset parameters policy sourceFamily).y = 0 := by
  cases type <;> rfl

/-- Only the frame decides how the offset lies in space. -/
theorem ConstraintType.offset_eq_apply (frame : Mat3 α) :
    type.offset parameters policy sourceFamily frame =
      frame.apply (type.localOffset parameters policy sourceFamily) := by
  cases type <;> ext <;> simp only [offset, localOffset, Mat3.apply, Vec3.unitX, Vec3.unitZ,
    Vec3.add_x, Vec3.add_y, Vec3.add_z, Vec3.scale_x, Vec3.scale_y, Vec3.scale_z] <;> ring

variable [Trigonometry α]

/-- Whether the target of a constraint stands where its source puts it. -/
def Pose.Satisfies (source target : Pose α) : Prop :=
  source.propagate .forward type parameters policy sourceFamily = target

/-- The source and the target of a constraint that places one of them from the other. -/
def Pose.sides (placed : Pose α) (direction : Direction) : Pose α × Pose α :=
  let other := placed.propagate direction type parameters policy sourceFamily
  match direction with
  | .forward => (placed, other)
  | .backward => (other, placed)

/-- The target that the source puts, after the target has put the source. -/
theorem Pose.propagate_backward_forward (p : Pose α) :
    (p.propagate .backward type parameters policy sourceFamily).propagate .forward type parameters
        policy sourceFamily =
      ⟨p.position - p.frame.apply (type.localOffset parameters policy sourceFamily) +
          (rotationMatrix (p.rotation - ⟨0, parameters.angle.getD 0, 0⟩)).apply
            (type.localOffset parameters policy sourceFamily), p.rotation⟩ := by
  simp only [propagate, ConstraintType.offset_eq_apply, frame]
  congr 1
  exact Vec3.sub_add_eq_self_iff.mpr rfl

variable [LinearOrder α] [IsStrictOrderedRing α]

/-- Forward undoes backward exactly if the angle does not turn the offset. -/
theorem Pose.propagate_backward_forward_eq_self_iff
    (hcircle : ∀ a : α, cos a * cos a + sin a * sin a = 1) (p : Pose α) :
    (p.propagate .backward type parameters policy sourceFamily).propagate .forward type parameters
        policy sourceFamily = p ↔
      (cos (radians (p.rotation.y - parameters.angle.getD 0)) = cos (radians p.rotation.y) ∧
        sin (radians (p.rotation.y - parameters.angle.getD 0)) = sin (radians p.rotation.y)) ∨
      ((type.localOffset parameters policy sourceFamily).x = 0 ∧
        cos (radians p.rotation.x) * (type.localOffset parameters policy sourceFamily).z = 0) := by
  have hposition (v : Vec3 α) : (⟨v, p.rotation⟩ : Pose α) = p ↔ v = p.position := by
    rw [Pose.ext_iff]
    exact and_iff_left rfl
  rw [propagate_backward_forward, hposition, Vec3.sub_add_eq_self_iff, frame,
    rotationMatrix_apply_eq_iff hcircle (sub_zero _) (sub_zero _), ConstraintType.localOffset_y,
    mul_zero, zero_add]
  rfl

end Reversal

/-! ### Real numbers -/

section Real

variable (type : ConstraintType) (parameters : Parameters ℝ) (policy : SolverPolicy ℝ)
  (sourceFamily : Family)

/-- Whether a constraint has the same offset before and after its angle, for an instance with a
rotation: the angle is a number of whole turns, or the offset lies along the second axis once it has
been turned about the first. -/
def ConstraintType.KeepsOffset (rotation : Vec3 ℝ) : Prop :=
  (∃ turns : ℤ, parameters.angle.getD 0 = 360 * turns) ∨
    ((type.localOffset parameters policy sourceFamily).x = 0 ∧
      (cos (radians rotation.x) = 0 ∨ (type.localOffset parameters policy sourceFamily).z = 0))

theorem Pose.propagate_backward_forward_eq_self_iff_keepsOffset (p : Pose ℝ) :
    (p.propagate .backward type parameters policy sourceFamily).propagate .forward type parameters
        policy sourceFamily = p ↔
      type.KeepsOffset parameters policy sourceFamily p.rotation := by
  rw [propagate_backward_forward_eq_self_iff _ _ _ _ circle_real, cos_sin_radians_eq_iff,
    sub_sub_cancel, mul_eq_zero, ConstraintType.KeepsOffset]

/-- A target that has put its source gets back its rotation if the source puts it, and its position
exactly if the offset is the same before and after the angle. So the two sides satisfy a constraint
that has put the target, and one that has put the source exactly in that case. -/
theorem Pose.satisfies_sides_iff (p : Pose ℝ) :
    let source := p.propagate .backward type parameters policy sourceFamily
    let target := source.propagate .forward type parameters policy sourceFamily
    target.rotation = p.rotation ∧
      (target.position = p.position ↔
        type.KeepsOffset parameters policy sourceFamily p.rotation) ∧
      ∀ direction : Direction,
        let sides := p.sides type parameters policy sourceFamily direction
        sides.1.Satisfies type parameters policy sourceFamily sides.2 ↔
          direction = .forward ∨ type.KeepsOffset parameters policy sourceFamily p.rotation := by
  have hrotation : ((p.propagate .backward type parameters policy sourceFamily).propagate .forward
      type parameters policy sourceFamily).rotation = p.rotation := by
    rw [propagate_backward_forward]
  have hiff := p.propagate_backward_forward_eq_self_iff_keepsOffset type parameters policy
    sourceFamily
  refine ⟨hrotation, ?_, fun direction ↦ ?_⟩
  · rw [← hiff]
    exact ⟨fun h ↦ Pose.ext h hrotation, congrArg Pose.position⟩
  · cases direction with
    | forward => exact iff_of_true rfl (Or.inl rfl)
    | backward => exact hiff.trans (or_iff_right nofun).symm

/-- A target on the first axis puts its source 30 before it and a quarter turn behind; the source
then puts the target 30 along the third axis. -/
theorem Pose.propagate_backward_forward_quarterTurn :
    let policy : SolverPolicy ℝ := ⟨100, 50, 2, 5, 2, 5, 200, 100, []⟩
    let quarterTurn : Parameters ℝ := { distance := some 30, angle := some 90 }
    let target : Pose ℝ := ⟨⟨100, 0, 0⟩, ⟨0, 0, 0⟩⟩
    let source := target.propagate .backward .coincident quarterTurn policy .pipe
    source = ⟨⟨70, 0, 0⟩, ⟨0, -90, 0⟩⟩ ∧
      source.propagate .forward .coincident quarterTurn policy .pipe = ⟨⟨70, 0, 30⟩, ⟨0, 0, 0⟩⟩ ∧
      source.propagate .forward .coincident quarterTurn policy .pipe ≠ target := by
  intro policy quarterTurn target source
  have hangle : radians (-90 : ℝ) = -(Real.pi / 2) := by
    rw [radians_real]
    ring
  have hsource : source = ⟨⟨70, 0, 0⟩, ⟨0, -90, 0⟩⟩ := by
    simp only [source, target, quarterTurn, propagate, ConstraintType.offset_eq_apply,
      ConstraintType.localOffset, frame, rotationMatrix_turn_apply, Option.getD_some]
    ext <;> norm_num
  have htarget : source.propagate .forward .coincident quarterTurn policy .pipe =
      ⟨⟨70, 0, 30⟩, ⟨0, 0, 0⟩⟩ := by
    simp only [hsource, quarterTurn, propagate, ConstraintType.offset_eq_apply,
      ConstraintType.localOffset, frame, rotationMatrix_turn_apply, Option.getD_some, hangle]
    ext <;> norm_num
  refine ⟨hsource, htarget, fun h ↦ ?_⟩
  have hz : (30 : ℝ) = 0 := congrArg (fun p : Pose ℝ ↦ p.position.z) (htarget.symm.trans h)
  norm_num at hz

end Real

end PipingAssembly
