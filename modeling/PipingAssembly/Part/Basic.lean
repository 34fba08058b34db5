import PipingAssembly.Decimal.Literal
import PipingAssembly.Part.Family
import PipingAssembly.Text.Word

/-!
# Parts of the catalog

A part is a catalog entry for a discrete component. Its thread descriptor and, for products without
an entry, its family and nominal diameter are read out of names such as `Bolt M8x20`.
-/

namespace PipingAssembly

/-- A catalog entry. -/
structure Part where
  id : String
  name : Option String := none
  family : Family := .other
  /-- the nominal diameter -/
  dn : Option UInt32 := none
  /-- the nominal pressure -/
  pn : Option UInt32 := none
  endType : Option String := none
  faceType : Option String := none
  /-- further attributes in key order -/
  metadata : List (String × String) := []
  modelPath : Option String := none
  deriving DecidableEq, Repr, Inhabited

/-- Puts an entry into a list in key order; an entry with the key is replaced. -/
def insertSorted {α : Type} (key : String) (a : α) : List (String × α) → List (String × α)
  | [] => [(key, a)]
  | (k, b) :: rest =>
    if key = k then (key, a) :: rest
    else if key < k then (key, a) :: (k, b) :: rest
    else (k, b) :: insertSorted key a rest

/-- The entries of a list in key order, of equal keys the last one only. -/
def sortEntries {α : Type} (entries : List (String × α)) : List (String × α) :=
  entries.foldl (fun sorted e ↦ insertSorted e.1 e.2 sorted) []

namespace Part

/-- Reads the digits after the mark of a nominal diameter. -/
def readDiameter : List Char → Option (List Char)
  | d :: n :: cs =>
    if d.toLower = 'd' ∧ n.toLower = 'n' then
      let ds := (cs.dropWhile Text.isBlank).takeWhile Text.isDecimalDigit
      if ds = [] then none else some ds
    else none
  | _ => none

/-- The nominal diameter that a product name gives first, as in `FLANGE DN50 PN16`. -/
def diameterIn (product : String) : Option UInt32 := do
  let ds ← Text.findAtWordStart readDiameter false product.toList
  let n ← Decimal.readNat? ds
  if n < pow2 32 then some (UInt32.ofNat n) else none

/-- Reads the size after the mark of a metric thread. -/
def readThread : List Char → Option (List Char)
  | m :: cs =>
    let whole := cs.takeWhile Text.isDecimalDigit
    if m.toLower ≠ 'm' ∨ whole = [] then none
    else
      match cs.dropWhile Text.isDecimalDigit with
      | '.' :: rest =>
        let fraction := rest.takeWhile Text.isDecimalDigit
        some (if fraction = [] then whole else whole ++ '.' :: fraction)
      | _ => some whole
  | [] => none

/-- The metric thread that a name gives first, as in `Bolt M8x20`. -/
def threadIn (name : String) : Option String :=
  (Text.findAtWordStart readThread false name.toList).map fun size ↦ String.ofList ('M' :: size)

/-- The entry that stands for a product without one. -/
def ofProduct (product : String) : Part :=
  { id := product, family := Family.infer product, dn := diameterIn product }

/-- The name shown to users. -/
def displayName (p : Part) : String := p.name.getD p.id

/-- The value of an attribute; metadata go before the fields of the entry. -/
def field? (p : Part) (key : String) : Option String :=
  match p.metadata.lookup key with
  | some value => some value
  | none =>
    match key with
    | "part_id" => some p.id
    | "name" => some p.displayName
    | "family" => some p.family.name
    | "dn" => p.dn.map fun n ↦ toString n.toNat
    | "pn" => p.pn.map fun n ↦ toString n.toNat
    | "end_type" => p.endType
    | "face_type" => p.faceType
    | _ => none

/-- The thread or size by which parts fit: given as metadata, as the end type or in the name. -/
def thread (p : Part) : Option String :=
  let given := fun s : String ↦
    let t := Text.trim s
    if t = "" then none else some (Text.upper t)
  match (p.metadata.lookup "thread").bind given with
  | some t => some t
  | none =>
    match p.endType.bind given with
    | some t => some t
    | none => threadIn p.displayName

end Part

end PipingAssembly
