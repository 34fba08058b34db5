import PipingAssembly.Decimal.Shortest

/-!
# Numbers in single precision
-/

namespace PipingAssembly.Decimal

/-- The 64-bit number nearest to the shortest digits of a 32-bit number. Its shortest digits are
the same. -/
def ofSingle (x : Float32) : Float :=
  let n := x.toBits.toNat
  let negative := n / pow2 31 == 1
  let field : Nat := n / pow2 23 % 256
  let fraction : Nat := n % pow2 23
  let read := fun (mantissa : Nat) (exponent : Int) ↦
    if mantissa = 0 then (if negative then -0.0 else 0.0)
    else
      let d := shortestIn .single mantissa exponent
      nearestDecimal negative d.digits d.exponent
  if field = 255 then x.toFloat
  else if field = 0 then read fraction (-149)
  else read (pow2 23 + fraction) ((field : Int) - 150)

end PipingAssembly.Decimal
