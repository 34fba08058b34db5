import Mathlib.Analysis.SpecialFunctions.Trigonometric.Angle
import Mathlib.Tactic.LinearCombination
import PipingAssembly.Geometry.Rotation

/-!
# Frames in exact arithmetic

In an ordered ring a rotation is applied as three turns about single axes, one after the other. The
last one is injective wherever sine and cosine are the coordinates of a point of the unit circle.
The one about the second axis moves exactly the vectors that do not lie along that axis, unless both
turns have the same sine and cosine: over the real numbers, unless they differ by whole turns.
-/

namespace PipingAssembly

open Trigonometry (cos sin radians)

/-! ### Components -/

namespace Vec3

variable {α : Type}

@[ext] theorem ext {u v : Vec3 α} (hx : u.x = v.x) (hy : u.y = v.y) (hz : u.z = v.z) : u = v := by
  cases u
  cases v
  cases hx
  cases hy
  cases hz
  rfl

@[simp] theorem add_x [Add α] (u v : Vec3 α) : (u + v).x = u.x + v.x := rfl
@[simp] theorem add_y [Add α] (u v : Vec3 α) : (u + v).y = u.y + v.y := rfl
@[simp] theorem add_z [Add α] (u v : Vec3 α) : (u + v).z = u.z + v.z := rfl
@[simp] theorem sub_x [Sub α] (u v : Vec3 α) : (u - v).x = u.x - v.x := rfl
@[simp] theorem sub_y [Sub α] (u v : Vec3 α) : (u - v).y = u.y - v.y := rfl
@[simp] theorem sub_z [Sub α] (u v : Vec3 α) : (u - v).z = u.z - v.z := rfl
@[simp] theorem scale_x [Mul α] (k : α) (v : Vec3 α) : (v.scale k).x = v.x * k := rfl
@[simp] theorem scale_y [Mul α] (k : α) (v : Vec3 α) : (v.scale k).y = v.y * k := rfl
@[simp] theorem scale_z [Mul α] (k : α) (v : Vec3 α) : (v.scale k).z = v.z * k := rfl

/-- What is taken away and added again makes no difference exactly if both are the same. -/
theorem sub_add_eq_self_iff [CommRing α] {u v w : Vec3 α} : u - v + w = u ↔ w = v := by
  constructor
  · intro h
    simp only [Vec3.ext_iff, add_x, add_y, add_z, sub_x, sub_y, sub_z] at h
    obtain ⟨hx, hy, hz⟩ := h
    ext
    · linear_combination hx
    · linear_combination hy
    · linear_combination hz
  · intro h
    rw [h]
    ext
    · exact sub_add_cancel u.x v.x
    · exact sub_add_cancel u.y v.y
    · exact sub_add_cancel u.z v.z

end Vec3

@[ext] theorem Pose.ext {α : Type} {p q : Pose α} (hposition : p.position = q.position)
    (hrotation : p.rotation = q.rotation) : p = q := by
  cases p
  cases q
  cases hposition
  cases hrotation
  rfl

/-! ### Turns one after the other -/

section Turns

variable {α : Type} [CommRing α]

/-- A product of matrices is applied one matrix after the other. -/
theorem Mat3.compose_apply (m n : Mat3 α) (v : Vec3 α) :
    (m.compose n).apply v = m.apply (n.apply v) := by
  ext <;> simp only [Mat3.compose, Mat3.apply, Vec3.add_x, Vec3.add_y, Vec3.add_z, Vec3.scale_x,
    Vec3.scale_y, Vec3.scale_z] <;> ring

variable [Trigonometry α]

theorem rotationMatrix_apply (r v : Vec3 α) :
    (rotationMatrix r).apply v = (rotationZ (radians r.z)).apply
      ((rotationY (radians r.y)).apply ((rotationX (radians r.x)).apply v)) := by
  rw [rotationMatrix, Mat3.compose_apply, Mat3.compose_apply]

theorem rotationX_apply (a : α) (v : Vec3 α) :
    (rotationX a).apply v = ⟨v.x, cos a * v.y - sin a * v.z, sin a * v.y + cos a * v.z⟩ := by
  ext <;> simp only [rotationX, Mat3.apply, Vec3.unitX, Vec3.add_x, Vec3.add_y, Vec3.add_z,
    Vec3.scale_x, Vec3.scale_y, Vec3.scale_z] <;> ring

theorem rotationY_apply (a : α) (v : Vec3 α) :
    (rotationY a).apply v = ⟨cos a * v.x + sin a * v.z, v.y, cos a * v.z - sin a * v.x⟩ := by
  ext <;> simp only [rotationY, Mat3.apply, Vec3.unitY, Vec3.add_x, Vec3.add_y, Vec3.add_z,
    Vec3.scale_x, Vec3.scale_y, Vec3.scale_z] <;> ring

theorem rotationZ_apply (a : α) (v : Vec3 α) :
    (rotationZ a).apply v = ⟨cos a * v.x - sin a * v.y, sin a * v.x + cos a * v.y, v.z⟩ := by
  ext <;> simp only [rotationZ, Mat3.apply, Vec3.unitZ, Vec3.add_x, Vec3.add_y, Vec3.add_z,
    Vec3.scale_x, Vec3.scale_y, Vec3.scale_z] <;> ring

/-- A turn about the third axis moves different vectors to different places. -/
theorem rotationZ_apply_inj {a : α} (hcircle : cos a * cos a + sin a * sin a = 1) {u v : Vec3 α} :
    (rotationZ a).apply u = (rotationZ a).apply v ↔ u = v := by
  refine ⟨fun h ↦ ?_, fun h ↦ by rw [h]⟩
  rw [rotationZ_apply, rotationZ_apply, Vec3.mk.injEq] at h
  obtain ⟨hx, hy, hz⟩ := h
  ext
  · linear_combination cos a * hx + sin a * hy - (u.x - v.x) * hcircle
  · linear_combination cos a * hy - sin a * hx - (u.y - v.y) * hcircle
  · exact hz

variable [LinearOrder α] [IsStrictOrderedRing α]

/-- Turns about the second axis move a vector to the same place exactly if they have the same sine
and cosine, or if the vector lies along that axis. -/
theorem rotationY_apply_eq_iff {a b : α} {v : Vec3 α} :
    (rotationY a).apply v = (rotationY b).apply v ↔
      (cos a = cos b ∧ sin a = sin b) ∨ (v.x = 0 ∧ v.z = 0) := by
  rw [rotationY_apply, rotationY_apply, Vec3.mk.injEq]
  constructor
  · rintro ⟨hx, -, hz⟩
    have hproduct : ((cos a - cos b) * (cos a - cos b) + (sin a - sin b) * (sin a - sin b)) *
        (v.x * v.x + v.z * v.z) = 0 := by
      have hx' : (cos a - cos b) * v.x + (sin a - sin b) * v.z = 0 := by linear_combination hx
      have hz' : (cos a - cos b) * v.z - (sin a - sin b) * v.x = 0 := by linear_combination hz
      linear_combination ((cos a - cos b) * v.x + (sin a - sin b) * v.z) * hx' +
        ((cos a - cos b) * v.z - (sin a - sin b) * v.x) * hz'
    rcases mul_eq_zero.mp hproduct with hturn | hvector
    · rw [mul_self_add_mul_self_eq_zero, sub_eq_zero, sub_eq_zero] at hturn
      exact Or.inl hturn
    · exact Or.inr (mul_self_add_mul_self_eq_zero.mp hvector)
  · rintro (⟨hcos, hsin⟩ | ⟨hx, hz⟩)
    · rw [hcos, hsin]
      exact ⟨rfl, rfl, rfl⟩
    · simp [hx, hz]

/-- Rotations that differ in the turn about the second axis only move a vector to the same place
exactly if these turns do so after the one about the first axis. -/
theorem rotationMatrix_apply_eq_iff (hcircle : ∀ a : α, cos a * cos a + sin a * sin a = 1)
    {r s v : Vec3 α} (hx : s.x = r.x) (hz : s.z = r.z) :
    (rotationMatrix s).apply v = (rotationMatrix r).apply v ↔
      (cos (radians s.y) = cos (radians r.y) ∧ sin (radians s.y) = sin (radians r.y)) ∨
        (v.x = 0 ∧ sin (radians r.x) * v.y + cos (radians r.x) * v.z = 0) := by
  rw [rotationMatrix_apply, rotationMatrix_apply, hx, hz, rotationZ_apply_inj (hcircle _),
    rotationY_apply_eq_iff, rotationX_apply]

end Turns

/-! ### Real numbers -/

noncomputable instance trigonometryReal : Trigonometry ℝ where
  sin := Real.sin
  cos := Real.cos
  radians x := x * (Real.pi / 180)
  turn := 2 * Real.pi

@[simp] theorem sin_real (a : ℝ) : sin a = Real.sin a := rfl
@[simp] theorem cos_real (a : ℝ) : cos a = Real.cos a := rfl
@[simp] theorem radians_real (x : ℝ) : radians x = x * (Real.pi / 180) := rfl

theorem circle_real (a : ℝ) : cos a * cos a + sin a * sin a = 1 := by
  rw [cos_real, sin_real, ← sq, ← sq]
  exact Real.cos_sq_add_sin_sq a

/-- A rotation about the second axis only. -/
theorem rotationMatrix_turn_apply (angle : ℝ) (v : Vec3 ℝ) :
    (rotationMatrix ⟨0, angle, 0⟩).apply v =
      ⟨Real.cos (radians angle) * v.x + Real.sin (radians angle) * v.z, v.y,
        Real.cos (radians angle) * v.z - Real.sin (radians angle) * v.x⟩ := by
  simp only [rotationMatrix_apply, rotationX_apply, rotationY_apply, rotationZ_apply,
    radians_real, cos_real, sin_real, zero_mul, Real.cos_zero, Real.sin_zero, one_mul, sub_zero,
    zero_add]

/-- Angles have the same sine and cosine exactly if they differ by whole turns. -/
theorem cos_sin_radians_eq_iff {x y : ℝ} :
    (cos (radians x) = cos (radians y) ∧ sin (radians x) = sin (radians y)) ↔
      ∃ turns : ℤ, y - x = 360 * turns := by
  have hangle (a b : ℝ) : (Real.cos a = Real.cos b ∧ Real.sin a = Real.sin b) ↔
      (a : Real.Angle) = (b : Real.Angle) := by
    refine ⟨fun h ↦ Real.Angle.cos_sin_inj h.1 h.2, fun h ↦ ⟨?_, ?_⟩⟩
    · exact congrArg Real.Angle.cos h
    · exact congrArg Real.Angle.sin h
  simp only [cos_real, sin_real, radians_real, hangle]
  rw [eq_comm, Real.Angle.angle_eq_iff_two_pi_dvd_sub]
  refine exists_congr fun k ↦ ⟨fun h ↦ ?_, fun h ↦ ?_⟩
  · apply mul_right_cancel₀ Real.pi_ne_zero
    linear_combination 180 * h
  · linear_combination Real.pi / 180 * h

end PipingAssembly
