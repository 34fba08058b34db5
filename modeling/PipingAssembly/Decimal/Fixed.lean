import PipingAssembly.Decimal.FloatValue

/-!
# Decimal text with a fixed number of places

A number is rounded on its exact value to a given number of places after the point, a half to the
even neighbour.
-/

namespace PipingAssembly.Decimal

/-- The digits of a whole number. -/
def natText (n : Nat) : String := String.ofList (Nat.toDigits 10 n)

/-- A text with blanks or zeros put before it up to a width. -/
def padStart (width : Nat) (fill : Char) (s : String) : String :=
  String.ofList (List.replicate (width - s.length) fill) ++ s

/-- The text of `n / 10 ^ places` with `places` digits after the point. -/
def pointText (n places : Nat) : String :=
  if places = 0 then natText n
  else natText (n / pow10 places) ++ "." ++ padStart places '0' (natText (n % pow10 places))

/-- The multiple of `10 ^ -places` nearest to `mantissa * 2 ^ exponent`, counted in that unit. -/
def roundPlaces (places mantissa : Nat) (exponent : Int) : Nat :=
  if 0 ≤ exponent then mantissa * pow10 places * pow2 exponent.toNat
  else roundDiv (mantissa * pow10 places) (pow2 (-exponent).toNat)

/-- The text of a number with `places` digits after the point; the sign of zero is kept. -/
def fixed (places : Nat) (x : Float) : String :=
  match FloatValue.ofFloat x with
  | .notANumber => "NaN"
  | .infinite negative => if negative then "-inf" else "inf"
  | .finite negative m e =>
    (if negative then "-" else "") ++ pointText (roundPlaces places m e) places

end PipingAssembly.Decimal
