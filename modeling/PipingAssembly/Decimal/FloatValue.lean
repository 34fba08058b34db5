import PipingAssembly.Arithmetic.Power

/-!
# Floating-point numbers as exact values

A finite 64-bit floating-point number is a sign, a whole mantissa and a power of two. This module
takes a number apart into these and finds the number nearest to a quotient of whole numbers.
-/

namespace PipingAssembly.Decimal

/-- The exact value of a floating-point number: a finite one is `± mantissa * 2 ^ exponent`. -/
inductive FloatValue where
  | notANumber
  | infinite (negative : Bool)
  | finite (negative : Bool) (mantissa : Nat) (exponent : Int)
  deriving DecidableEq, Repr

/-- The exact value that 64 bits stand for. -/
def FloatValue.ofBits (bits : UInt64) : FloatValue :=
  let n := bits.toNat
  let negative := n / pow2 63 == 1
  let field : Nat := n / pow2 52 % 2048
  let fraction : Nat := n % pow2 52
  if field = 2047 then
    if fraction = 0 then .infinite negative else .notANumber
  else if field = 0 then .finite negative fraction (-1074)
  else .finite negative (pow2 52 + fraction) ((field : Int) - 1075)

/-- The exact value of a floating-point number. -/
def FloatValue.ofFloat (x : Float) : FloatValue := .ofBits x.toBits

/-- The whole number nearest to `num / den`; a half goes to the even neighbour. -/
def roundDiv (num den : Nat) : Nat :=
  let q := num / den
  let r := num % den
  if 2 * r < den then q
  else if den < 2 * r then q + 1
  else if q % 2 = 0 then q else q + 1

/-- The quotient `num / (den * 2 ^ e)` as a numerator and a denominator. -/
def scaleDown (num den : Nat) (e : Int) : Nat × Nat :=
  if 0 ≤ e then (num, den * pow2 e.toNat) else (num * pow2 (-e).toNat, den)

/-- The exponent that leaves 53 bits before the point of `num / den`, or the least one there is. -/
def unitExponent (num den : Nat) : Int :=
  let estimate : Int := (num.log2 : Int) - (den.log2 : Int) - 53
  let (n, d) := scaleDown num den estimate
  max (-1074) (if n / d < pow2 53 then estimate else estimate + 1)

/-- The bits of the non-negative floating-point number nearest to `num / den`, ties to even;
a quotient past the largest number gives infinity. -/
def nearestBits (num den : Nat) : UInt64 :=
  if num = 0 then 0
  else
    let e := unitExponent num den
    let (n, d) := scaleDown num den e
    let m := roundDiv n d
    let bits := if m < pow2 52 then m else (e + 1075).toNat * pow2 52 + (m - pow2 52)
    UInt64.ofNat (min bits (2047 * pow2 52))

/-- The non-negative floating-point number nearest to `num / den`, ties to even. -/
def nearest (num den : Nat) : Float := .ofBits (nearestBits num den)

/-- The floating-point number nearest to `± digits * 10 ^ exponent`. -/
def nearestDecimal (negative : Bool) (digits : Nat) (exponent : Int) : Float :=
  let size : Int := (Nat.toDigits 10 digits).length + exponent
  let x :=
    if digits = 0 ∨ size < -400 then nearest 0 1
    else if 400 < size then nearest (pow10 400) 1
    else if 0 ≤ exponent then nearest (digits * pow10 exponent.toNat) 1
    else nearest digits (pow10 (-exponent).toNat)
  if negative then -x else x

/-- Whether a number is neither infinite nor undefined. -/
def isFinite (x : Float) : Bool :=
  match FloatValue.ofFloat x with
  | .finite .. => true
  | _ => false

end PipingAssembly.Decimal
