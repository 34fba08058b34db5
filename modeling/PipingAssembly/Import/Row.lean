import PipingAssembly.Decimal.Fixed
import PipingAssembly.Delimited.Reader
import PipingAssembly.Part.Basic

/-!
# Parts in comma separated values

The first record names the columns, in any letter case; every further record is a part. Columns
nobody asks for are passed over, and an empty field says nothing.
-/

namespace PipingAssembly

/-- Where the columns with given names are. -/
abbrev Columns := List (String × Nat)

namespace Columns

/-- The columns that a header names; of columns with one name the last counts. -/
def ofHeader (header : List String) : Columns :=
  (header.mapIdx fun i name ↦ (Text.trim (Text.lower name), i)).reverse

/-- The field of a record in a column, unless it is empty. -/
def field? (columns : Columns) (fields : List String) (name : String) : Option String :=
  (((columns.lookup name).bind (fields[·]?)).map Text.trim).filter (· != "")

end Columns

/-- The text of a place where bytes are no text. -/
def Delimited.NotText.message (e : Delimited.NotText) : String :=
  let n := Decimal.natText
  "CSV parse error: record " ++ n e.record.index ++ " (line " ++ n e.record.line ++ ", field: " ++
    n e.field ++ ", byte: " ++ n e.record.byte ++ "): invalid utf-8: invalid UTF-8 in field " ++
    n e.field ++ " near byte index " ++ n e.index

/-- Why a record is no part. -/
inductive RowFault where
  | notText (e : Delimited.NotText)
  | missingId
  | unknownFamily (text : String)
  | notWhole (column text : String)
  deriving DecidableEq, Repr

/-- The text of the reason why a record is no part. -/
def RowFault.message : RowFault → String
  | notText e => "CSV parse error: " ++ e.message
  | missingId => "missing required field 'part_id'"
  | unknownFamily text => Family.invalidMessage text
  | notWhole column text => column ++ " '" ++ text ++ "' is not a whole number"

/-- Reads the number in a column. -/
def numberIn (columns : Columns) (fields : List String) (name : String) :
    Except RowFault (Option UInt32) :=
  match columns.field? fields name with
  | none => .ok none
  | some s =>
    match Decimal.readNat? s.toList with
    | some n => if n < pow2 32 then .ok (some (UInt32.ofNat n)) else .error (.notWhole name s)
    | none => .error (.notWhole name s)

/-- Reads the family in a column, or infers it from the name of the product. -/
def familyIn (columns : Columns) (fields : List String) (product : String) :
    Except RowFault Family :=
  match columns.field? fields "family" with
  | none => .ok (Family.infer product)
  | some s =>
    match Family.parse? s with
    | some family => .ok family
    | none => .error (.unknownFamily s)

/-- Reads the fields of a record as a part. -/
def partOfFields (columns : Columns) (fields : List String) : Except RowFault Part := do
  let field := columns.field? fields
  match field "part_id" with
  | none => .error .missingId
  | some id =>
    let name := field "name"
    let family ← familyIn columns fields (name.getD id)
    let dn ← numberIn columns fields "dn"
    let pn ← numberIn columns fields "pn"
    return {
      id, name, family, dn, pn
      endType := field "end_type"
      faceType := field "face_type"
      metadata := ((field "thread").map fun thread ↦ ("thread", thread)).toList }

/-- Reads a record as a part. -/
def partOfRecord (columns : Columns) (r : Delimited.Record) : Except RowFault Part := do
  partOfFields columns (← r.texts.mapError .notText)

end PipingAssembly
