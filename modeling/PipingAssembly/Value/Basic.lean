/-!
# Document values

The values that catalog documents hold, whether they are written in JSON or in YAML. A YAML scalar
without quotes has no type of its own: it is kept as `plain` text until a reader asks for a type,
and a list of such scalars is kept apart from a list of typed values.
-/

namespace PipingAssembly

/-- A value of a document. -/
inductive Value where
  | null
  | bool (b : Bool)
  | int (n : Int)
  | real (x : Float)
  | text (s : String)
  /-- an unquoted scalar, whose type is open -/
  | plain (s : String)
  | list (items : List Value)
  /-- a list of a document whose scalars have open types -/
  | openList (items : List Value)
  | object (fields : List (String × Value))
  /-- a value with an explicit tag -/
  | tagged (tag : String) (v : Value)
  /-- a mapping with a key that is not a scalar -/
  | keyedByNodes
  deriving Inhabited

namespace Value

/-- The field of a list of fields with a key, the first one if there are several. -/
def find? (fields : List (String × Value)) (key : String) : Option Value :=
  (fields.find? (·.1 == key)).map (·.2)

/-- The field of an object with a key. -/
def get? (key : String) : Value → Option Value
  | object fields => find? fields key
  | _ => none

mutual

/-- The value with the fields of every object in key order, of equal keys the last one only. -/
def canonical : Value → Value
  | list items => list (canonicalItems items)
  | openList items => openList (canonicalItems items)
  | object fields => object (canonicalFields fields)
  | tagged tag v => tagged tag (canonical v)
  | v => v

/-- The items of a list, each in canonical form. -/
def canonicalItems : List Value → List Value
  | [] => []
  | v :: vs => canonical v :: canonicalItems vs

/-- The fields of an object in key order, of equal keys the last one only. -/
def canonicalFields : List (String × Value) → List (String × Value)
  | [] => []
  | (key, v) :: rest => insertBefore key (canonical v) (canonicalFields rest)
where
  /-- Puts a field in its place unless the key is already there. -/
  insertBefore (key : String) (v : Value) : List (String × Value) → List (String × Value)
    | [] => [(key, v)]
    | (k, w) :: rest =>
      if key = k then (k, w) :: rest
      else if key < k then (key, v) :: (k, w) :: rest
      else (k, w) :: insertBefore key v rest

end

mutual

/-- Whether every mapping within a value has text keys, so that the value has a JSON form. -/
def hasTextKeys : Value → Bool
  | list items => itemsHaveTextKeys items
  | openList items => itemsHaveTextKeys items
  | object fields => fieldsHaveTextKeys fields
  | tagged _ v => hasTextKeys v
  | keyedByNodes => false
  | _ => true

/-- Whether every mapping within some items has text keys. -/
def itemsHaveTextKeys : List Value → Bool
  | [] => true
  | v :: vs => hasTextKeys v && itemsHaveTextKeys vs

/-- Whether every mapping within some fields has text keys. -/
def fieldsHaveTextKeys : List (String × Value) → Bool
  | [] => true
  | (_, v) :: rest => hasTextKeys v && fieldsHaveTextKeys rest

end

end Value

end PipingAssembly
