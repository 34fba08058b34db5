import PipingAssembly.Decimal.FloatValue

/-!
# Reading decimal literals

A literal is an optional sign, digits with at most one point among or beside them, and an optional
exponent. It reads as the floating-point number nearest to its exact value.
-/

namespace PipingAssembly.Decimal

/-- The number that a run of decimal digits stands for. -/
def digitsValue (ds : List Char) : Nat :=
  ds.foldl (fun n d ↦ 10 * n + (d.toNat - '0'.toNat)) 0

/-- A sign, if there is one, and what follows it. -/
def splitSign : List Char → Bool × List Char
  | '+' :: cs => (false, cs)
  | '-' :: cs => (true, cs)
  | cs => (false, cs)

/-- The leading digits and what follows them. -/
def splitDigits (cs : List Char) : List Char × List Char :=
  (cs.takeWhile Char.isDigit, cs.dropWhile Char.isDigit)

/-- The exponent part of a literal, which takes all that is left; nothing stands for zero. -/
def readExponent? : List Char → Option Int
  | [] => some 0
  | c :: cs =>
    if c = 'e' ∨ c = 'E' then
      let (negative, cs) := splitSign cs
      let (ds, rest) := splitDigits cs
      if ds = [] ∨ rest ≠ [] then none
      else some (if negative then -(digitsValue ds : Int) else digitsValue ds)
    else none

/-- The words for numbers that have no digits, in any letter case. -/
def readWord? (cs : List Char) : Option Float :=
  let word := String.ofList (cs.map Char.toLower)
  if word = "inf" ∨ word = "infinity" then some (1.0 / 0.0)
  else if word = "nan" then some (0.0 / 0.0)
  else none

/-- Reads a whole text as a decimal literal or as a word for infinity or an undefined number. -/
def readFloat? (cs : List Char) : Option Float :=
  let (negative, cs) := splitSign cs
  match readWord? cs with
  | some x => some (if negative then -x else x)
  | none =>
    let (whole, rest) := splitDigits cs
    let (fraction, rest) :=
      match rest with
      | '.' :: r => splitDigits r
      | r => ([], r)
    if whole = [] ∧ fraction = [] then none
    else
      (readExponent? rest).map fun e ↦
        nearestDecimal negative (digitsValue (whole ++ fraction)) (e - fraction.length)

/-- Reads a whole text as an unsigned number in decimal digits, with an optional plus sign. -/
def readNat? (cs : List Char) : Option Nat :=
  let cs := match cs with
    | '+' :: r => r
    | r => r
  if cs ≠ [] ∧ cs.all Char.isDigit then some (digitsValue cs) else none

end PipingAssembly.Decimal
