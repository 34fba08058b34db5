import PipingAssembly.Schema.Span
import PipingAssembly.Value.Reading
import PipingAssembly.Yaml.Document

/-!
# Checking documents against schemas
-/

namespace PipingAssembly

/-- A number as it is compared with the bounds of a schema. -/
inductive Magnitude where
  | whole (n : Int)
  | real (x : Float)

/-- The number of a value; what is not finite is none. -/
def Value.magnitude? : Value → Option Magnitude
  | int n => some (.whole n)
  | real x => if Decimal.isFinite x then some (.real x) else none
  | _ => none

/-- Whether a number is below a bound. -/
def Magnitude.isBelow (bound : Int) : Magnitude → Bool
  | whole n => n < bound
  | real x => x < Value.floatOfInt bound

/-- Whether a number is above a bound. -/
def Magnitude.isAbove (bound : Int) : Magnitude → Bool
  | whole n => bound < n
  | real x => Value.floatOfInt bound < x

/-- Whether a finite number is whole. -/
def isWhole (x : Float) : Bool :=
  match Decimal.FloatValue.ofFloat x with
  | .finite _ m e => m % pow2 (-e).toNat == 0
  | _ => false

/-- Whether a value is of a type; a number without a fraction is an integer. -/
def Value.hasType (v : Value) : ValueType → Bool
  | .object =>
    match v with
    | .object _ => true
    | _ => false
  | .string =>
    match v with
    | .text _ => true
    | _ => false
  | .boolean =>
    match v with
    | .bool _ => true
    | _ => false
  | .number => v.magnitude?.isSome
  | .integer =>
    match v.magnitude? with
    | some (.whole _) => true
    | some (.real x) => isWhole x
    | none => false

/-- The faults of a value for which its fields do not matter. -/
def Value.scalarFaults (v : Value) (type : ValueType) (options : List String)
    (minLength maxLength : Option Nat) (minimum maximum : Option Int) : List Fault :=
  let wrongType := if v.hasType type then [] else [.wrongType type]
  let noOption :=
    if options = [] then []
    else
      match v with
      | .text s => if options.contains s then [] else [.noOption options]
      | _ => [.noOption options]
  let lengths :=
    match v with
    | .text s =>
      (minLength.filter (s.length < ·)).toList.map (.tooShort s) ++
        (maxLength.filter (· < s.length)).toList.map (.tooLong s)
    | _ => []
  let bounds :=
    match v.magnitude? with
    | some n =>
      (minimum.filter (n.isBelow ·)).toList.map .tooSmall ++
        (maximum.filter (n.isAbove ·)).toList.map .tooLarge
    | none => []
  wrongType ++ noOption ++ lengths ++ bounds

/-- The fields of a value that is an object. -/
def Value.fieldList : Value → List (String × Value)
  | object fields => fields
  | _ => []

/-- Whether a value is an object. -/
def Value.isObject : Value → Bool
  | object _ => true
  | _ => false

mutual

/-- The violations of a schema by the value at a path. -/
def Schema.violations (path : List String) (v : Value) : Schema → List Violation
  | .of type options minLength maxLength minimum maximum required properties further =>
    let fields := v.fieldList
    let missing := if v.isObject then required.filter fun r ↦ (Value.find? fields r).isNone else []
    (v.scalarFaults type options minLength maxLength minimum maximum).map (⟨path, ·⟩) ++
      missing.map (fun r ↦ ⟨path, .missing r⟩) ++
      propertyViolations path fields properties ++
      furtherViolations path (fields.filter fun f ↦ !properties.any (·.1 == f.1)) further

/-- The violations of the schemas of properties by the fields of an object. -/
def Schema.propertyViolations (path : List String) (fields : List (String × Value)) :
    List (String × Schema) → List Violation
  | [] => []
  | (key, schema) :: rest =>
    (match Value.find? fields key with
      | some v => schema.violations (path ++ [key]) v
      | none => []) ++
      propertyViolations path fields rest

/-- The violations by the fields of an object that have no schema of their own. -/
def Schema.furtherViolations (path : List String) (fields : List (String × Value)) :
    Further → List Violation
  | .allowed => []
  | .forbidden => if fields = [] then [] else [⟨path, .unknownFields (fields.map (·.1))⟩]
  | .each schema => fields.flatMap fun (key, v) ↦ schema.violations (path ++ [key]) v

end

/-- Why a document is refused. -/
inductive Refusal where
  /-- the text is not YAML; no span is known if its place is inside a character -/
  | notYaml (span : Option Span)
  /-- a key of the document is no text -/
  | noJsonForm
  | violations (vs : List Violation)
  deriving DecidableEq, Repr

/-- How many errors a refusal counts. -/
def Refusal.count : Refusal → Nat
  | notYaml _ => 1
  | noJsonForm => 1
  | violations vs => vs.length

/-- The summary of a refusal. -/
def Refusal.summary (r : Refusal) : String :=
  "Schema validation failed: " ++
    (if r.count = 1 then "1 error" else Decimal.natText r.count ++ " errors")

/-- The order in which violations are told: by place, then by message. -/
def toldBefore (a b : Span × Violation) : Bool :=
  if a.1.offset ≠ b.1.offset then a.1.offset < b.1.offset
  else if a.1.length ≠ b.1.length then a.1.length < b.1.length
  else a.2.message ≤ b.2.message

/-- The violations with their places in a document, in order. -/
def Refusal.located (content : String) : Refusal → List (Span × Violation)
  | violations vs => (vs.map fun v ↦ (v.span content, v)).mergeSort toldBefore
  | _ => []

/-- Checks a document against the schema of a kind. -/
def validate (content : String) (kind : RecordKind) : Except Refusal Unit :=
  match Yaml.readData content with
  | .error fault => .error (.notYaml (faultSpan? content fault))
  | .ok v =>
    if !v.hasTextKeys then .error .noJsonForm
    else
      match (Schema.ofKind kind).violations [] v.canonical with
      | [] => .ok ()
      | vs => .error (.violations vs)

/-- The kind of the document at a path: that of the innermost directory above it that has a kind. -/
def RecordKind.ofPath? (path : List String) : Option RecordKind :=
  path.dropLast.reverse.findSome? fun directory ↦
    match directory with
    | "parts" => some .part
    | "rules" => some .rule
    | _ => none

end PipingAssembly
