import PipingAssembly.Decimal.Literal
import PipingAssembly.Text.Hex
import PipingAssembly.Value.Basic

/-!
# Types of unquoted scalars

An unquoted scalar is null, a truth value, a whole number, a floating-point number or a text,
whichever its spelling fits first. Whole numbers may have a sign and a mark for base 16, 8 or 2; a
number with needless leading zeros is a text.
-/

namespace PipingAssembly.Plain

/-- Whether a spelling stands for null; an empty scalar does so only where a type is chosen. -/
def isNull (s : String) : Bool := s == "null" || s == "Null" || s == "NULL" || s == "~"

/-- The truth value of a spelling. -/
def bool? (s : String) : Option Bool :=
  if s = "true" ∨ s = "True" ∨ s = "TRUE" then some true
  else if s = "false" ∨ s = "False" ∨ s = "FALSE" then some false
  else none

/-- The value of a digit in a base of at most 16. -/
def digit? (base : Nat) (c : Char) : Option Nat :=
  (Text.hexDigit? c).filter (· < base)

/-- The number that digits in a base stand for. -/
def digits? (base : Nat) (cs : List Char) : Option Nat :=
  if cs = [] then none
  else (cs.mapM (digit? base)).map fun ds ↦ ds.foldl (fun n d ↦ base * n + d) 0

/-- Whether a spelling is a row of digits that begins with a needless zero. -/
def hasLeadingZero (cs : List Char) : Bool :=
  let cs := (Decimal.splitSign cs).2
  1 < cs.length && cs.head? == some '0' && cs.all Char.isDigit

/-- The number of a spelling without sign, in any base, as long as it is below `limit`. -/
def magnitude? (limit : Nat) (cs : List Char) : Option Nat :=
  let marked := match cs with
    | '0' :: 'x' :: r => digits? 16 r
    | '0' :: 'o' :: r => digits? 8 r
    | '0' :: 'b' :: r => digits? 2 r
    | _ => none
  match marked.filter (· < limit) with
  | some n => some n
  | none => if hasLeadingZero cs then none else (digits? 10 cs).filter (· < limit)

/-- The whole number of a spelling without minus sign that is below `limit`. -/
def unsigned? (limit : Nat) (s : String) : Option Nat :=
  match s.toList with
  | '+' :: cs => magnitude? limit cs
  | cs => magnitude? limit cs

/-- The whole number of a spelling with a minus sign that is at least `-limit`. -/
def negative? (limit : Nat) (s : String) : Option Int :=
  match s.toList with
  | '-' :: cs => (magnitude? (limit + 1) cs).map fun n ↦ -(n : Int)
  | _ => none

/-- The floating-point number of a spelling; infinity has a spelling of its own. -/
def float? (s : String) : Option Float :=
  let cs := s.toList
  let unsigned := if cs.head? = some '+' then cs.tail else cs
  if cs.head? = some '+' ∧ (unsigned.head? = some '+' ∨ unsigned.head? = some '-') then none
  else
    let word := String.ofList unsigned
    if word = ".inf" ∨ word = ".Inf" ∨ word = ".INF" then some (1.0 / 0.0)
    else if s = "-.inf" ∨ s = "-.Inf" ∨ s = "-.INF" then some (-1.0 / 0.0)
    else if s = ".nan" ∨ s = ".NaN" ∨ s = ".NAN" then some (0.0 / 0.0)
    else (Decimal.readFloat? unsigned).filter Decimal.isFinite

/-- The whole number of a spelling; one past 64 bits has no reading. -/
def int? (s : String) : Option (Option Value) :=
  match unsigned? (pow2 64) s, negative? (pow2 63) s with
  | some n, _ => some (some (.int n))
  | none, some n => some (some (.int n))
  | none, none =>
    if (unsigned? (pow2 128) s).isSome ∨ (negative? (pow2 127) s).isSome then none else some none

/-- The value of a spelling whose type is left to it. -/
def resolve? (s : String) : Option Value :=
  if s = "" ∨ isNull s then some .null
  else
    match bool? s with
    | some b => some (.bool b)
    | none =>
      match int? s with
      | none => none
      | some (some v) => some v
      | some none =>
        if hasLeadingZero s.toList then some (.text s)
        else some (((float? s).map .real).getD (.text s))

/-- The tag of truth values, whole numbers, floating-point numbers and null. -/
def boolTag : String := "tag:yaml.org,2002:bool"
@[inherit_doc boolTag] def intTag : String := "tag:yaml.org,2002:int"
@[inherit_doc boolTag] def floatTag : String := "tag:yaml.org,2002:float"
@[inherit_doc boolTag] def nullTag : String := "tag:yaml.org,2002:null"

/-- The value of a scalar with a tag that is not an application's own. -/
def resolveTagged? (tag s : String) : Option Value :=
  if tag = boolTag then (bool? s).map .bool
  else if tag = intTag then (int? s).join
  else if tag = floatTag then (float? s).map .real
  else if tag = nullTag then if isNull s then some .null else none
  else some (.text s)

end PipingAssembly.Plain
