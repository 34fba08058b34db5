import PipingAssembly.Value.Plain

/-!
# Reading values as fields of records

A reader takes a value to a typed one or refuses it. Fields of a record may be required, optional or
have a default; a field that is given twice is refused, and fields nobody asks for are passed over.
In a document of typed values the fields may also stand in a list, in their order and without names.
-/

namespace PipingAssembly.Value

/-- The fields of a record. -/
abbrev Fields := List (String × Value)

/-- A value without its tag. -/
def untagged : Value → Value
  | tagged _ v => v
  | v => v

/-- The text of a value; an unquoted scalar is the text it is spelled with. -/
def asText? (v : Value) : Option String :=
  match v.untagged with
  | text s => some s
  | plain s => some s
  | _ => none

/-- The truth value of a value. -/
def asBool? (v : Value) : Option Bool :=
  match v.untagged with
  | bool b => some b
  | plain s => Plain.bool? s
  | _ => none

/-- The whole number of a value that is not negative and below `limit`. -/
def asNat? (limit : Nat) (v : Value) : Option Nat :=
  match v.untagged with
  | int n => if 0 ≤ n ∧ n.toNat < limit then some n.toNat else none
  | plain s => (Plain.unsigned? (pow2 64) s).filter (· < limit)
  | _ => none

/-- The 32-bit number of a value. -/
def asUInt32? (v : Value) : Option UInt32 := (v.asNat? (pow2 32)).map UInt32.ofNat

/-- The 64-bit number of a value. -/
def asUInt64? (v : Value) : Option UInt64 := (v.asNat? (pow2 64)).map UInt64.ofNat

/-- The signed 32-bit number of a value. -/
def asInt32? (v : Value) : Option Int32 :=
  let fits := fun n : Int ↦ if -pow2 31 ≤ n ∧ n < pow2 31 then some (Int32.ofInt n) else none
  match v.untagged with
  | int n => fits n
  | plain s =>
    match Plain.unsigned? (pow2 63) s with
    | some n => fits n
    | none => (Plain.negative? (pow2 63) s).bind fits
  | _ => none

/-- The floating-point number nearest to a whole number. -/
def floatOfInt (n : Int) : Float :=
  if n < 0 then -(Decimal.nearest n.natAbs 1) else Decimal.nearest n.natAbs 1

/-- The floating-point number of a value. -/
def asFloat? (v : Value) : Option Float :=
  match v.untagged with
  | int n => some (floatOfInt n)
  | real x => some x
  | plain s => Plain.float? s
  | _ => none

/-- The items of a list; an empty scalar stands for no items. -/
def asList? (v : Value) : Option (List Value) :=
  match v.untagged with
  | list items => some items
  | openList items => some items
  | plain "" => some []
  | _ => none

/-- The fields of an object; an empty scalar stands for no fields. -/
def asObject? (v : Value) : Option Fields :=
  match v.untagged with
  | object fields => some fields
  | plain "" => some []
  | _ => none

/-- The fields of a record whose fields have names in an order. A list of typed values holds the
first of them, without their names. -/
def asRecord? (names : List String) (v : Value) : Option Fields :=
  match v.untagged with
  | list items => if items.length ≤ names.length then some (names.zip items) else none
  | v => v.asObject?

/-- The case of a record that has several cases, and the rest of the record. The name of the case
stands under a key, or first in a list. -/
def asVariant? (key : String) (v : Value) : Option (String × Value) :=
  match v with
  | object fields =>
    match fields.filter (·.1 == key) with
    | [(_, name)] => name.asText?.map (·, object (fields.filter (·.1 != key)))
    | _ => none
  | list (name :: items) => name.asText?.map (·, list items)
  | _ => none

/-- The name of a case without data: a text, a tag on nothing, or an object with nothing under the
name. -/
def asCase? : Value → Option String
  | tagged tag v =>
    match tag.toList with
    | '!' :: name =>
      match v with
      | plain s => if s = "" ∨ Plain.isNull s then some (String.ofList name) else none
      | _ => none
    | _ => v.asText?
  | object [(name, null)] => some name
  | v => v.asText?

/-- Reads a value that may be null. -/
def asOptional? {α : Type} (read : Value → Option α) : Value → Option (Option α)
  | null => some none
  | plain s => if s = "" ∨ Plain.isNull s then some none else (read (plain s)).map some
  | tagged tag (plain s) =>
    if tag = Plain.nullTag then if Plain.isNull s then some none else none
    else (read (tagged tag (plain s))).map some
  | v => (read v).map some

/-- Reads every value of a list. -/
def asListOf? {α : Type} (read : Value → Option α) (v : Value) : Option (List α) :=
  v.asList?.bind fun items ↦ items.mapM read

mutual

/-- The value with a type for every unquoted scalar; an application's own tag has no reading. -/
def resolved? : Value → Option Value
  | plain s => Plain.resolve? s
  | list items => (resolvedItems? items).map list
  | openList items => (resolvedItems? items).map list
  | object fields => (resolvedFields? fields).map object
  | tagged tag v =>
    if tag.toList.head? = some '!' then none
    else
      match v with
      | plain s => Plain.resolveTagged? tag s
      | text s => Plain.resolveTagged? tag s
      | list items => (resolvedItems? items).map list
      | openList items => (resolvedItems? items).map list
      | object fields => (resolvedFields? fields).map object
      | _ => none
  | v => some v

/-- Items with the types of their spellings. -/
def resolvedItems? : List Value → Option (List Value)
  | [] => some []
  | v :: vs =>
    match resolved? v, resolvedItems? vs with
    | some v, some vs => some (v :: vs)
    | _, _ => none

/-- Fields whose values have the types of their spellings. -/
def resolvedFields? : Fields → Option Fields
  | [] => some []
  | (key, v) :: rest =>
    match resolved? v, resolvedFields? rest with
    | some v, some rest => some ((key, v) :: rest)
    | _, _ => none

end

/-- The value under a key, if there is one; a key that is given twice is refused. -/
def Fields.lookup? (fields : Fields) (key : String) : Option (Option Value) :=
  match fields.filter (·.1 == key) with
  | [] => some none
  | [(_, v)] => some (some v)
  | _ => none

/-- Reads a field that has to be given. -/
def Fields.required? {α : Type} (fields : Fields) (key : String) (read : Value → Option α) :
    Option α :=
  (fields.lookup? key).bind fun v ↦ v.bind read

/-- Reads a field that may be left out or null. -/
def Fields.optional? {α : Type} (fields : Fields) (key : String) (read : Value → Option α) :
    Option (Option α) :=
  match fields.lookup? key with
  | none => none
  | some none => some none
  | some (some v) => asOptional? read v

/-- Reads a field that has a default when it is left out. -/
def Fields.withDefault? {α : Type} (fields : Fields) (key : String) (default : α)
    (read : Value → Option α) : Option α :=
  match fields.lookup? key with
  | none => none
  | some none => some default
  | some (some v) => read v

/-- A field that is written only if there is something to write. -/
def optionalField {α : Type} (key : String) (write : α → Value) : Option α → Fields
  | none => []
  | some a => [(key, write a)]

end PipingAssembly.Value
