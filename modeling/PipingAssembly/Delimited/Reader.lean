import PipingAssembly.Text.Blank
import PipingAssembly.Text.Utf8

/-!
# Comma separated values

A text of records, each in a line or, where a field stands between quotes, in several. Between
quotes a comma and a line break mean themselves, and a quote is written twice; quotes that are not
closed end with the text. Empty lines are no records, and records may differ in the number of
fields.
-/

namespace PipingAssembly.Delimited

/-- A comma, which separates fields. -/
def comma : UInt8 := 0x2C

/-- A double quote. -/
def quoteMark : UInt8 := 0x22

/-- Whether a byte ends a line. -/
def isLineEnd (b : UInt8) : Bool := b == 0x0A || b == 0x0D

/-- How far a field has been read. -/
inductive FieldState where
  | start
  | unquoted
  | quoted
  /-- behind a quote that closes the field unless another one follows -/
  | closing
  deriving DecidableEq, Repr

/-- Puts a byte before the first of some fields. -/
def pushFirst (b : UInt8) : List (List UInt8) → List (List UInt8)
  | [] => [[b]]
  | f :: fs => (b :: f) :: fs

/-- The fields of a record from a point within its first field on, and what follows the record. -/
def readFields : FieldState → List UInt8 → List (List UInt8) × List UInt8
  | _, [] => ([[]], [])
  | state, b :: bs =>
    if state == .quoted then
      if b == quoteMark then readFields .closing bs
      else
        let (fields, rest) := readFields .quoted bs
        (pushFirst b fields, rest)
    else if state == .start && b == quoteMark then readFields .quoted bs
    else if state == .closing && b == quoteMark then
      let (fields, rest) := readFields .quoted bs
      (pushFirst b fields, rest)
    else if b == comma then
      let (fields, rest) := readFields .start bs
      ([] :: fields, rest)
    else if isLineEnd b then ([[]], bs)
    else
      let (fields, rest) := readFields .unquoted bs
      (pushFirst b fields, rest)

/-- The records of some bytes, each with the number of bytes that were left before it was looked
for. -/
def readRecords : Nat → List UInt8 → List (Nat × List (List UInt8))
  | 0, _ => []
  | fuel + 1, bs =>
    match bs.dropWhile isLineEnd with
    | [] => []
    | start =>
      let (fields, rest) := readFields .start start
      (bs.length, fields) :: readRecords fuel rest

/-- Bytes without a byte order mark at the beginning. -/
def dropMark : List UInt8 → List UInt8
  | 0xEF :: 0xBB :: 0xBF :: bs => bs
  | bs => bs

/-- The fields of a record and the place where it was looked for. -/
structure Record where
  fields : List (List UInt8)
  index : Nat
  line : Nat
  byte : Nat
  deriving DecidableEq, Repr, Inhabited

/-- The records of some bytes. -/
def read (bs : List UInt8) : List Record :=
  (readRecords bs.length (dropMark bs)).mapIdx fun index (left, fields) ↦
    let byte := if index = 0 then 0 else bs.length - left
    { fields, index, byte, line := (bs.take byte).count 0x0A + 1 }

/-- Whether a byte is white space of ASCII. -/
private def isAsciiBlank (b : UInt8) : Bool :=
  b == 0x20 || b == 0x09 || b == 0x0A || b == 0x0C || b == 0x0D

/-- A field without white space of ASCII at its ends. -/
def trimField (bs : List UInt8) : List UInt8 :=
  ((bs.dropWhile isAsciiBlank).reverse.dropWhile isAsciiBlank).reverse

/-- A field of a record is no text. -/
structure NotText where
  record : Record
  field : Nat
  index : Nat
  deriving DecidableEq, Repr

/-- The first field that is no text, and where it ceases to be text. -/
private def firstInvalid? : Nat → List (List UInt8) → Option (Nat × Nat)
  | _, [] => none
  | field, bs :: rest =>
    match Text.invalidIndex? bs with
    | some index => some (field, index)
    | none => firstInvalid? (field + 1) rest

/-- The texts of fields, without white space at their ends. -/
private def textsOf (fields : List (List UInt8)) : List String :=
  fields.map fun bs ↦ Text.trim (Text.decodeLossy bs)

namespace Record

/-- The fields of a header as texts. -/
def header (r : Record) : Except NotText (List String) :=
  match firstInvalid? 0 r.fields with
  | some (field, index) => .error ⟨r, field, index⟩
  | none => .ok (textsOf r.fields)

/-- The fields of a record as texts. -/
def texts (r : Record) : Except NotText (List String) :=
  let fields := r.fields.map trimField
  match firstInvalid? 0 fields with
  | some (field, index) => .error ⟨r, field, index⟩
  | none => .ok (textsOf fields)

end Record

end PipingAssembly.Delimited
