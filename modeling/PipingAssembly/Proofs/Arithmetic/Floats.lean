import Mathlib

/-!
# Comparing floating point numbers

Numbers are compared by their class, then by their exponent and their mantissa, so any two of them
are comparable. What is not a number is not even comparable to itself. A finite number that is added
makes nothing a number and takes nothing from the numbers.
-/

namespace PipingAssembly

open Float.Model (Format UnpackedFloat)
open Float.Model.UnpackedFloat (Sign packComponents unpack unpackExponent_packComponents
  unpackMantissa_packComponents)

/-! ### The order of numbers -/

/-- Where a number stands among all numbers. -/
def floatRank : UnpackedFloat → ℤ ×ₗ ℤ ×ₗ ℤ
  | .infinity .negative => toLex (-2, toLex (0, 0))
  | .finite .negative m e _ => toLex (-1, toLex (-e, -m))
  | .zero _ | .notANumber => toLex (0, toLex (0, 0))
  | .finite .positive m e _ => toLex (1, toLex (e, m))
  | .infinity .positive => toLex (2, toLex (0, 0))

private theorem isLE_then_compare {e f : Int} {m n : Nat} :
    ((compare e f).then (compare m n)).isLE = true ↔ e < f ∨ e = f ∧ m ≤ n := by
  rw [Ordering.isLE_then_iff_or, Int.compare_eq_lt, Int.compare_eq_eq, Nat.isLE_compare]

private theorem isGE_then_compare {e f : Int} {m n : Nat} :
    ((compare e f).then (compare m n)).isGE = true ↔ f < e ∨ e = f ∧ n ≤ m := by
  rw [← Ordering.isLE_swap, Ordering.swap_then, ← Std.OrientedOrd.eq_swap,
    ← Std.OrientedOrd.eq_swap, isLE_then_compare, eq_comm]

private theorem unpackedFloat_le_iff (x y : UnpackedFloat) :
    x.le y = true ↔ x.isNaN = false ∧ y.isNaN = false ∧ floatRank x ≤ floatRank y := by
  -- the classes decide, unless both numbers are finite and have the same sign
  rcases x with (_ | _) | _ | _ | ⟨_ | _, m, e, hm⟩ <;>
    rcases y with (_ | _) | _ | _ | ⟨_ | _, n, f, hn⟩ <;>
    simp +decide [UnpackedFloat.le, UnpackedFloat.compare, UnpackedFloat.isNaN, floatRank,
      Prod.Lex.le_iff, isLE_then_compare, isGE_then_compare]

section Order

variable {x y z : Float}

/-- The order of numbers is that of their ranks. -/
theorem float_le_iff :
    x ≤ y ↔ x.isNaN = false ∧ y.isNaN = false ∧
      floatRank x.toModel.unpack ≤ floatRank y.toModel.unpack :=
  decide_eq_true_iff.trans (unpackedFloat_le_iff x.toModel.unpack y.toModel.unpack)

theorem float_le_trans (hxy : x ≤ y) (hyz : y ≤ z) : x ≤ z := by
  obtain ⟨hx, -, hxy⟩ := float_le_iff.mp hxy
  obtain ⟨-, hz, hyz⟩ := float_le_iff.mp hyz
  exact float_le_iff.mpr ⟨hx, hz, hxy.trans hyz⟩

theorem float_le_total (hx : x.isNaN = false) (hy : y.isNaN = false) : x ≤ y ∨ y ≤ x := by
  obtain hxy | hyx := le_total (floatRank x.toModel.unpack) (floatRank y.toModel.unpack)
  · exact Or.inl (float_le_iff.mpr ⟨hx, hy, hxy⟩)
  · exact Or.inr (float_le_iff.mpr ⟨hy, hx, hyx⟩)

/-- What is smaller than something is a number, and so is what is greater. -/
theorem isNaN_eq_false_of_lt (h : x < y) : x.isNaN = false ∧ y.isNaN = false := by
  have hlt : x.toModel.unpack.lt y.toModel.unpack = true := of_decide_eq_true h
  change x.toModel.unpack.isNaN = false ∧ y.toModel.unpack.isNaN = false
  revert hlt
  cases x.toModel.unpack <;> cases y.toModel.unpack <;> intro hlt <;>
    first | exact ⟨rfl, rfl⟩ | cases hlt

end Order

/-! ### Sums -/

/-- Bits are not those of a number exactly if their exponent is the greatest one and their mantissa
is not zero. -/
private theorem isNaN_unpack_packComponents {spec : Format} {s : Sign}
    {exponent : BitVec spec.exponentBits} {mantissa : BitVec spec.mantissaBitsWithoutImplicit} :
    (unpack spec (packComponents spec s exponent mantissa)).isNaN = true ↔
      exponent = -1#_ ∧ mantissa ≠ 0#_ := by
  rw [unpack]
  simp only [unpackExponent_packComponents, unpackMantissa_packComponents]
  by_cases hexponent : exponent = -1#_
  · by_cases hmantissa : mantissa = 0#_ <;> simp [hexponent, hmantissa, UnpackedFloat.isNaN]
  · simp only [hexponent, if_false, false_and, iff_false]
    split <;> [split; skip] <;> simp [UnpackedFloat.isNaN]

/-- Only what is not a number is packed as such, as a number that is too great becomes infinite. -/
private theorem isNaN_unpack_pack (x : UnpackedFloat) :
    (Float.Model.pack x).unpack.isNaN = x.isNaN := by
  cases x with
  | notANumber => decide
  | infinity s => cases s <;> decide
  | zero s => cases s <;> decide
  | finite s m e hm =>
    refine Bool.eq_false_iff.mpr fun hnan ↦ ?_
    change (unpack .binary64 (UnpackedFloat.pack .binary64 (.finite s m e hm))).isNaN = true at hnan
    rw [UnpackedFloat.pack] at hnan
    split at hnan
    · exact (isNaN_unpack_packComponents.mp hnan).2 rfl
    · next hsmall =>
      split at hnan
      · have hgreatest := congrArg BitVec.toNat (isNaN_unpack_packComponents.mp hnan).1
        simp at hgreatest hsmall
        omega
      · exact absurd (isNaN_unpack_packComponents.mp hnan).1 (by decide)

private theorem isNaN_normalize (spec : Format) (mantissa exponent : Int) (zeroSign : Sign) :
    (UnpackedFloat.normalize spec mantissa exponent zeroSign).isNaN = false := by
  have hround : ∀ s m e a, (UnpackedFloat.roundWithAccuracy spec s m e a).isNaN = false := by
    intro s m e a
    simp only [UnpackedFloat.roundWithAccuracy]
    split <;> rfl
  rw [UnpackedFloat.normalize]
  split
  · exact hround ..
  · rfl
  · exact hround ..

private theorem isNaN_unpackedFloat_add (spec : Format) (x : UnpackedFloat) {y : UnpackedFloat}
    (hy : y.isFinite = true) : (UnpackedFloat.add spec x y).isNaN = x.isNaN := by
  cases y with
  | notANumber | infinity => cases hy
  | zero t =>
    cases x with
    | zero s =>
      rw [UnpackedFloat.add]
      split <;> rfl
    | notANumber | infinity | finite => rfl
  | finite t n f hn =>
    cases x with
    | finite s m e hm => exact isNaN_normalize ..
    | notANumber | infinity | zero => rfl

/-- With a finite number added, a number stays one. -/
theorem isNaN_add_of_isFinite (x : Float) {y : Float} (hy : y.isFinite = true) :
    (x + y).isNaN = x.isNaN :=
  (isNaN_unpack_pack _).trans (isNaN_unpackedFloat_add .binary64 x.toModel.unpack hy)

end PipingAssembly
