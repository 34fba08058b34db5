import PipingAssembly.Decimal.FloatValue

/-!
# Remainders of floating-point numbers
-/

namespace PipingAssembly.Decimal

/-- The exact remainder of a division whose quotient is rounded toward zero; it has the sign of the
dividend. -/
def remainder (x y : Float) : Float :=
  match FloatValue.ofFloat x, FloatValue.ofFloat y with
  | .finite negative m e, .finite _ n f =>
    if n = 0 then 0.0 / 0.0
    else
      let unit := min e f
      let r := (m * pow2 (e - unit).toNat) % (n * pow2 (f - unit).toNat)
      let z :=
        if 0 ≤ unit then nearest (r * pow2 unit.toNat) 1 else nearest r (pow2 (-unit).toNat)
      if negative then -z else z
  | .finite .., .infinite _ => x
  | _, _ => 0.0 / 0.0

end PipingAssembly.Decimal
