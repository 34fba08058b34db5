import PipingAssembly.Decimal.Fixed

/-!
# The fewest digits that read back

Every finite number has an interval of reals that round to it. The shortest text of the number
takes the coarsest decimal grid with a point in that interval and, of two such points, the nearer.
-/

namespace PipingAssembly.Decimal

/-- A positive decimal number `digits * 10 ^ exponent`. -/
structure Digits where
  digits : Nat
  exponent : Int
  deriving DecidableEq, Repr

/-- The reals that round to `mantissa * 2 ^ exponent`, in units of `2 ^ (exponent - 2)`: the two
ends, and whether they belong to it. -/
structure RoundingInterval where
  low : Nat
  value : Nat
  high : Nat
  closed : Bool
  exponent : Int

/-- The precision of a floating-point format: the least mantissa of a number that is not close to
zero, and the least exponent. -/
structure Precision where
  leastMantissa : Nat
  leastExponent : Int

/-- The precision of 64-bit numbers. -/
def Precision.double : Precision := ⟨pow2 52, -1074⟩

/-- The precision of 32-bit numbers. -/
def Precision.single : Precision := ⟨pow2 23, -149⟩

/-- The rounding interval of a positive finite number; below a power of two it is half as wide. -/
def RoundingInterval.of (p : Precision) (mantissa : Nat) (exponent : Int) : RoundingInterval where
  low :=
    if mantissa = p.leastMantissa ∧ p.leastExponent < exponent then 4 * mantissa - 1
    else 4 * mantissa - 2
  value := 4 * mantissa
  high := 4 * mantissa + 2
  closed := mantissa % 2 == 0
  exponent := exponent - 2

/-- The factors `(u, g)` with `2 ^ e / 10 ^ k = u / g`. -/
def gridFactors (e k : Int) : Nat × Nat :=
  (pow2 e.toNat * pow10 (-k).toNat, pow2 (-e).toNat * pow10 k.toNat)

/-- The point of the grid of step `10 ^ k` that lies in the interval, the nearer one of two. -/
def RoundingInterval.gridPoint? (i : RoundingInterval) (k : Int) : Option Nat :=
  let (u, g) := gridFactors i.exponent k
  let holds := fun n : Nat ↦
    if i.closed then decide (i.low * u ≤ n * g) && decide (n * g ≤ i.high * u)
    else decide (i.low * u < n * g) && decide (n * g < i.high * u)
  let down := i.value * u / g
  let up := down + 1
  match down != 0 && holds down, holds up with
  | false, false => none
  | true, false => some down
  | false, true => some up
  | true, true => some (if up * g - i.value * u ≤ i.value * u - down * g then up else down)

/-- The decimal exponent of the first digit of `mantissa * 2 ^ exponent`. -/
def leadingExponent (mantissa : Nat) (exponent : Int) : Int :=
  let (n, d) := (mantissa * pow2 exponent.toNat, pow2 (-exponent).toNat)
  if d ≤ n then ((Nat.toDigits 10 (n / d)).length : Int) - 1
  else
    let k := (Nat.toDigits 10 (d / n)).length
    if d ≤ n * pow10 (k - 1) then -((k : Int) - 1) else -(k : Int)

/-- The first grid with a point in the interval, from step `10 ^ k` on to finer ones. -/
def firstGrid (i : RoundingInterval) : Nat → Int → Digits
  | 0, k => ⟨i.value, k⟩
  | steps + 1, k =>
    match i.gridPoint? k with
    | some n => ⟨n, k⟩
    | none => firstGrid i steps (k - 1)

/-- Moves trailing zeros of the digits to the exponent. -/
def dropZeros : Nat → Digits → Digits
  | 0, d => d
  | steps + 1, d =>
    if d.digits ≠ 0 ∧ d.digits % 10 = 0 then dropZeros steps ⟨d.digits / 10, d.exponent + 1⟩ else d

/-- The shortest digits of `mantissa * 2 ^ exponent`, which is not zero, in a format. -/
def shortestIn (p : Precision) (mantissa : Nat) (exponent : Int) : Digits :=
  dropZeros 20 (firstGrid (.of p mantissa exponent) 20 (leadingExponent mantissa exponent + 1))

/-- The shortest digits of a 64-bit number `mantissa * 2 ^ exponent`, which is not zero. -/
def shortest (mantissa : Nat) (exponent : Int) : Digits := shortestIn .double mantissa exponent

/-- Digits written without an exponent. -/
def Digits.positional (d : Digits) : String :=
  if 0 ≤ d.exponent then natText (d.digits * pow10 d.exponent.toNat)
  else pointText d.digits (-d.exponent).toNat

/-- The shortest digits of a number, never with an exponent and without a needless point. -/
def plainText (x : Float) : String :=
  match FloatValue.ofFloat x with
  | .notANumber => "NaN"
  | .infinite negative => if negative then "-inf" else "inf"
  | .finite negative m e =>
    (if negative then "-" else "") ++ (if m = 0 then "0" else (shortest m e).positional)

/-- Digits with a point: positional from `1e-5` up to sixteen digits before the point, else with an
exponent. -/
def Digits.pointed (d : Digits) : String :=
  let ds := natText d.digits
  let point : Int := ds.length + d.exponent
  if 0 ≤ d.exponent ∧ point ≤ 16 then d.positional ++ ".0"
  else if -5 < point ∧ point ≤ 16 then d.positional
  else
    let mantissa := if ds.length = 1 then ds else pointText d.digits (ds.length - 1)
    let e := point - 1
    mantissa ++ "e" ++ (if e < 0 then "-" else "") ++ natText e.natAbs

/-- The text of a finite number in a document: it always has a point or an exponent. -/
def pointedText (negative : Bool) (mantissa : Nat) (exponent : Int) : String :=
  (if negative then "-" else "") ++
    (if mantissa = 0 then "0.0" else (shortest mantissa exponent).pointed)

end PipingAssembly.Decimal
