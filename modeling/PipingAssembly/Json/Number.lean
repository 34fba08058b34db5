import PipingAssembly.Decimal.Literal
import PipingAssembly.Value.Basic

/-!
# Numbers of a JSON text

A number without point and exponent is whole as long as it fits 64 bits. Any other number is a
64-bit significand, the digits past it left away, that is multiplied or divided by a power of ten in
floating-point arithmetic.
-/

namespace PipingAssembly.Json

/-- The least number that an unsigned 64-bit word cannot hold. -/
def wordLimit : Nat := pow2 64

/-- The digits of a significand: its value, and what follows once a digit would not fit. -/
def readSignificand : Nat → List Char → Nat × Nat × List Char
  | n, [] => (n, 0, [])
  | n, c :: cs =>
    if c.isDigit then
      let next := 10 * n + (c.toNat - '0'.toNat)
      if next < wordLimit then
        let (m, k, rest) := readSignificand next cs
        (m, k + 1, rest)
      else (n, 0, c :: cs)
    else (n, 0, c :: cs)

/-- A power of ten as a floating-point number. -/
def powerOfTen (k : Nat) : Float := Decimal.nearest (pow10 k) 1

/-- Scales a number by `10 ^ e`, at most 308 places at a time; overflow has no answer. -/
def scale? : Nat → Float → Int → Option Float
  | 0, x, _ => some x
  | steps + 1, x, e =>
    if e.natAbs ≤ 308 then
      if 0 ≤ e then
        let y := x * powerOfTen e.natAbs
        if y.isInf then none else some y
      else some (x / powerOfTen e.natAbs)
    else if x == 0.0 then some x
    else if 0 ≤ e then none
    else scale? steps (x / powerOfTen 308) (e + 308)

/-- The number of a significand and an exponent. -/
def real? (negative : Bool) (significand : Nat) (e : Int) : Option Value :=
  (scale? 5 (Decimal.nearest significand 1) e).map fun x ↦ .real (if negative then -x else x)

/-- The exponent part after its letter, for a significand with the exponent `start`. -/
def readExponent? (negative : Bool) (significand : Nat) (start : Int) (cs : List Char) :
    Option (Value × List Char) :=
  let (down, cs) := Decimal.splitSign cs
  let (ds, rest) := Decimal.splitDigits cs
  if ds = [] then none
  else
    let e := Decimal.digitsValue ds
    if pow2 31 ≤ e then
      if significand ≠ 0 ∧ ¬ down then none else some (.real (if negative then -0.0 else 0.0), rest)
    else
      (real? negative significand (start + (if down then -(e : Int) else e))).map (·, rest)

/-- What follows the digits of a significand: an exponent, or nothing of the number. -/
def readTail? (negative : Bool) (significand : Nat) (e : Int) :
    List Char → Option (Value × List Char)
  | 'e' :: cs => readExponent? negative significand e cs
  | 'E' :: cs => readExponent? negative significand e cs
  | cs => (real? negative significand e).map (·, cs)

/-- The digits after the point; those that do not fit the significand count for nothing. -/
def readFraction? (negative : Bool) (significand : Nat) (e : Int) (cs : List Char) :
    Option (Value × List Char) :=
  match cs with
  | [] => none
  | c :: _ =>
    if c.isDigit then
      let (m, k, rest) := readSignificand significand cs
      readTail? negative m (e - k) (rest.dropWhile Char.isDigit)
    else none

/-- The value of a significand that has neither point nor exponent. -/
def whole (negative : Bool) (n : Nat) : Value :=
  if ¬ negative then .int n
  else if n = 0 ∨ pow2 63 < n then .real (-(Decimal.nearest n 1))
  else .int (-(n : Int))

/-- What follows the digits before the point: a fraction, an exponent, or nothing of the number.
`more` are the digits that do not fit the significand. -/
def readAfterDigits? (negative : Bool) (significand : Nat) (more : List Char) :
    List Char → Option (Value × List Char)
  | '.' :: cs => readFraction? negative significand more.length cs
  | 'e' :: cs => readExponent? negative significand more.length cs
  | 'E' :: cs => readExponent? negative significand more.length cs
  | cs =>
    if more = [] then some (whole negative significand, cs)
    else (real? negative significand more.length).map (·, cs)

/-- Reads a number whose sign has been read. -/
def readUnsigned? (negative : Bool) (cs : List Char) : Option (Value × List Char) :=
  match cs with
  | [] => none
  | c :: tail =>
    if ¬ c.isDigit then none
    else if c = '0' ∧ tail.head?.any Char.isDigit then none
    else
      let (n, _, rest) := readSignificand 0 cs
      readAfterDigits? negative n (rest.takeWhile Char.isDigit) (rest.dropWhile Char.isDigit)

/-- Reads a number at the start of a text. -/
def readNumber? : List Char → Option (Value × List Char)
  | '-' :: cs => readUnsigned? true cs
  | cs => readUnsigned? false cs

end PipingAssembly.Json
