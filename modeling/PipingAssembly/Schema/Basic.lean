import PipingAssembly.Value.Basic

/-!
# Schemas of catalog documents

A schema says which type a value has to have, which fields an object needs and may have, and within
which bounds numbers and the lengths of texts lie.
-/

namespace PipingAssembly

/-- The kind of a document of the catalog. -/
inductive RecordKind where
  | part
  | rule
  deriving DecidableEq, Repr, Inhabited

/-- The name of a kind of document. -/
def RecordKind.name : RecordKind → String
  | part => "part"
  | rule => "rule"

/-- The type of a value. -/
inductive ValueType where
  | object
  | string
  | integer
  | number
  | boolean
  deriving DecidableEq, Repr

/-- The name of a type in messages. -/
def ValueType.name : ValueType → String
  | object => "Object"
  | string => "String"
  | integer => "Integer"
  | number => "Number"
  | boolean => "Boolean"

mutual

/-- What a value has to be like. Each condition concerns only values of its type. -/
inductive Schema where
  | of (type : ValueType) (options : List String) (minLength maxLength : Option Nat)
    (minimum maximum : Option Int) (required : List String) (properties : List (String × Schema))
    (further : Further)

/-- What the fields of an object may be like that have no schema of their own. -/
inductive Further where
  | allowed
  | forbidden
  | each (schema : Schema)

end

namespace Schema

/-- Any text. -/
def text : Schema := .of .string [] none none none none [] [] .allowed

/-- A text whose length is at least `least` and maybe at most `most`. -/
def textOf (least : Nat) (most : Option Nat) : Schema :=
  .of .string [] (some least) most none none [] [] .allowed

/-- One of some texts. -/
def oneOf (options : List String) : Schema := .of .string options none none none none [] [] .allowed

/-- A whole number that may have a least value. -/
def integer (minimum : Option Int) : Schema :=
  .of .integer [] none none minimum none [] [] .allowed

/-- A number that may have a least and a greatest value. -/
def number (minimum maximum : Option Int) : Schema :=
  .of .number [] none none minimum maximum [] [] .allowed

/-- A truth value. -/
def boolean : Schema := .of .boolean [] none none none none [] [] .allowed

/-- An object. -/
def record (required : List String) (properties : List (String × Schema)) (further : Further) :
    Schema :=
  .of .object [] none none none none required properties further

/-- The schema of parts. -/
def part : Schema :=
  record ["part_id"]
    [("part_id", textOf 1 (some 128)), ("name", textOf 1 none),
     ("family", oneOf ["pipe", "flange", "valve", "bolt", "nut", "gasket", "other"]),
     ("dn", integer (some 1)), ("pn", integer (some 1)), ("end_type", text), ("face_type", text),
     ("metadata", record [] [] (.each text)), ("model_path", text)]
    .forbidden

/-- The schema of the condition of a rule. -/
def condition : Schema :=
  record ["type"]
    [("type", oneOf ["both", "name_contains", "thread_match", "bolt_nut_pair", "distance_range",
       "mate_type"]),
     ("field", text), ("value", text), ("contains", text), ("min", number (some 0) none),
     ("max", number (some 0) none), ("mate_type", text)]
    .allowed

/-- The schema of the numbers of a constraint. -/
def parameters : Schema :=
  record []
    [("distance", number none none), ("revolutions", number (some 0) none),
     ("angle", number none none),
     ("fasteners", record []
       [("bolt_count", integer (some 1)), ("bolt_spec", text), ("gasket", text)] .forbidden)]
    .forbidden

/-- The schema of rules. -/
def rule : Schema :=
  record ["rule_id", "name", "condition", "action"]
    [("rule_id", textOf 1 none), ("name", textOf 1 none), ("description", text),
     ("priority", integer none), ("confidence_boost", number (some 0) (some 1)),
     ("active", boolean), ("condition", condition),
     ("action", record ["type"] [("type", textOf 1 none), ("parameters", parameters)] .forbidden)]
    .forbidden

/-- The schema of a kind of document. -/
def ofKind : RecordKind → Schema
  | .part => part
  | .rule => rule

end Schema

end PipingAssembly
