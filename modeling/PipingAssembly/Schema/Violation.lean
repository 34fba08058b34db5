import PipingAssembly.Decimal.Fixed
import PipingAssembly.Json.Writer
import PipingAssembly.Schema.Basic

/-!
# Violations of schemas

The ways in which a value can fail a schema, each with the place in the document, and what users are
told of them.
-/

namespace PipingAssembly

/-- What is wrong with a value. -/
inductive Fault where
  | missing (field : String)
  | wrongType (expected : ValueType)
  | noOption (options : List String)
  | tooSmall (minimum : Int)
  | tooLarge (maximum : Int)
  | unknownFields (fields : List String)
  | tooShort (text : String) (least : Nat)
  | tooLong (text : String) (most : Nat)
  deriving DecidableEq, Repr

/-- A fault of the value at the end of a path of keys. -/
structure Violation where
  path : List String
  fault : Fault
  deriving DecidableEq, Repr

/-- A key as a step of a path in messages. -/
def escapeStep (key : String) : String :=
  String.ofList (key.toList.flatMap fun c ↦
    if c == '~' then ['~', '0'] else if c == '/' then ['~', '1'] else [c])

/-- The text of a path. -/
def pathText (path : List String) : String :=
  String.join (path.map fun key ↦ "/" ++ escapeStep key)

/-- A path as messages name it. -/
def placeText (path : List String) : String :=
  if path = [] then "document root" else "'" ++ pathText path ++ "'"

/-- A number of characters. -/
private def charactersText (n : Nat) : String :=
  Decimal.natText n ++ (if n = 1 then " character" else " characters")

/-- The text of a violation. -/
def Violation.message (v : Violation) : String :=
  let place := placeText v.path
  match v.fault with
  | .missing field => "Missing required field: " ++ field ++ " at " ++ place
  | .wrongType expected => "Wrong type at " ++ place ++ ": expected Single(" ++ expected.name ++ ")"
  | .noOption options =>
    "Invalid value at " ++ place ++ ": must be one of: " ++ ", ".intercalate options
  | .tooSmall minimum => "Value at " ++ place ++ " is too small: minimum " ++ toString minimum
  | .tooLarge maximum => "Value at " ++ place ++ " is too large: maximum " ++ toString maximum
  | .unknownFields fields => "Unknown field(s) at " ++ place ++ ": " ++ ", ".intercalate fields
  | .tooShort text least =>
    "Validation error at " ++ place ++ ": " ++ Json.quote text ++ " is shorter than " ++
      charactersText least
  | .tooLong text most =>
    "Validation error at " ++ place ++ ": " ++ Json.quote text ++ " is longer than " ++
      charactersText most

/-- The mark that a violation puts beside the document. -/
def Violation.hint (v : Violation) : String :=
  match v.fault with
  | .missing _ => "required field missing"
  | .wrongType _ => "wrong type"
  | .noOption _ => "invalid value"
  | .tooSmall _ | .tooLarge _ => "out of range"
  | .unknownFields _ => "unknown field"
  | .tooShort .. | .tooLong .. => "validation error"

/-- How a violation can be mended, where there is something to say. -/
def Violation.help? (v : Violation) : Option String :=
  match v.fault with
  | .missing field => some ("Add the '" ++ field ++ "' field to your file")
  | .noOption options => some ("Valid values: " ++ ", ".intercalate options)
  | .unknownFields [field] => some ("Remove the '" ++ field ++ "' field or check spelling")
  | .unknownFields _ => some "Remove unknown fields or check spelling"
  | _ => none

end PipingAssembly
