import PipingAssembly.Decimal.Shortest
import PipingAssembly.Value.Plain
import PipingAssembly.Yaml.Node

/-!
# Values of YAML documents

A document can be read in two ways. As a record it leaves the types of unquoted scalars open, so
that a field may ask for its own. As general data every scalar gets the type of its spelling, keys
have to be distinct, and lists and mappings are nested 128 deep at most.
-/

namespace PipingAssembly.Yaml

/-- Whether a tag is an application's own; it then names a variant. -/
def isOwnTag (tag : String) : Bool := tag.toList.head? == some '!'

/-- A value with its tag, if it has one. -/
def withTag (tag : Option String) (v : Value) : Value :=
  match tag with
  | some t => .tagged t v
  | none => v

mutual

/-- The value of a node with the types of unquoted scalars left open. -/
def Node.toValue : Node → Value
  | .scalar _ tag s isPlain => withTag tag (if isPlain then .plain s else .text s)
  | .sequence _ tag items => withTag tag (.openList (itemValues items))
  | .mapping _ tag entries =>
    withTag tag (match entryValues entries with
      | some fields => .object fields
      | none => .keyedByNodes)

/-- The values of nodes with the types of unquoted scalars left open. -/
def itemValues : List Node → List Value
  | [] => []
  | n :: ns => n.toValue :: itemValues ns

/-- The fields that entries stand for, if every key is a scalar. -/
def entryValues : List (Node × Node) → Option (List (String × Value))
  | [] => some []
  | (k, v) :: es =>
    match k, entryValues es with
    | .scalar _ _ s _, some fields => some ((s, v.toValue) :: fields)
    | _, _ => none

end

/-- The text of a key that is general data, if it has one. -/
def keyText? : Value → Option String
  | .text s => some s
  | .int n => some (toString n)
  | .bool b => some (if b then "true" else "false")
  | .real x =>
    match Decimal.FloatValue.ofFloat x with
    | .finite negative m e => some (Decimal.pointedText negative m e)
    | _ => none
  | _ => none

mutual

/-- Whether two values are the same; the order of fields means nothing. -/
def isSame : Value → Value → Bool
  | .null, .null => true
  | .bool a, .bool b => a == b
  | .int a, .int b => a == b
  | .real a, .real b => a == b || (a.isNaN && b.isNaN)
  | .text a, .text b => a == b
  | .list as, .list bs => areSame as bs
  | .object as, .object bs => as.length == bs.length && haveSame as bs
  | _, _ => false

/-- Whether two lists have the same values in the same order. -/
def areSame : List Value → List Value → Bool
  | [], [] => true
  | a :: as, b :: bs => isSame a b && areSame as bs
  | _, _ => false

/-- Whether each field of the first list has the same value in the second one. -/
def haveSame : List (String × Value) → List (String × Value) → Bool
  | [], _ => true
  | (key, a) :: as, bs => (Value.find? bs key).any (isSame a ·) && haveSame as bs

end

/-- The fields of an object, unless a key has no text. -/
def objectOf (entries : List (Value × Value)) : Value :=
  match entries.mapM fun (k, v) ↦ (keyText? k).map (·, v) with
  | some fields => .object fields
  | none => .keyedByNodes

/-- General data under its tag; an application's own tag becomes the key of an object. -/
def underTag (tag : Option String) (v : Value) : Value :=
  match tag with
  | some t => if isOwnTag t then .object [(t, v)] else v
  | none => v

/-- The general data of a scalar; a number past 64 bits has no reading. -/
def scalarData? (tag : Option String) (s : String) (isPlain : Bool) : Option Value :=
  match tag.filter (!isOwnTag ·) with
  | some t => Plain.resolveTagged? t s
  | none => (if isPlain then Plain.resolve? s else some (.text s)).map (underTag tag)

mutual

/-- The general data of a node, in which `depth` more lists and mappings may be nested; a repeated
key has no reading. -/
def Node.dataWithin (depth : Nat) : Node → Except Place Value
  | .scalar place tag s isPlain =>
    match scalarData? tag s isPlain with
    | some v => .ok v
    | none => .error place
  | .sequence place tag items =>
    match depth with
    | 0 => .error place
    | depth + 1 => (itemData depth items).map fun vs ↦ underTag tag (.list vs)
  | .mapping place tag entries =>
    match depth with
    | 0 => .error place
    | depth + 1 => (entryData depth place [] entries).map fun es ↦ underTag tag (objectOf es)

/-- The general data of the items of a sequence. -/
def itemData (depth : Nat) : List Node → Except Place (List Value)
  | [] => .ok []
  | n :: ns => do
    let v ← n.dataWithin depth
    return v :: (← itemData depth ns)

/-- The general data of the entries of the mapping at a place, in which some keys have been read. -/
def entryData (depth : Nat) (place : Place) (keys : List Value) :
    List (Node × Node) → Except Place (List (Value × Value))
  | [] => .ok []
  | (k, n) :: es => do
    let key ← k.dataWithin depth
    if keys.any (isSame key ·) then throw place
    let v ← n.dataWithin depth
    return (key, v) :: (← entryData depth place (key :: keys) es)

end

/-- Reads a text as a record. A text without a document reads as an empty scalar. -/
def readRecord? (s : String) : Option Value :=
  (document s).toOption.map fun n ↦ (n.getD (.empty ⟨0, 0⟩)).toValue

/-- Reads a text as general data. A text without a document reads as null. -/
def readData (s : String) : Except Fault Value := do
  match ← document s with
  | some n => (n.dataWithin 128).mapError .unreadable
  | none => return .null

end PipingAssembly.Yaml
