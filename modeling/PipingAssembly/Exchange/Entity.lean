import PipingAssembly.Exchange.Token

/-!
# Entities of exchange files

A statement gives an entity a number and one or several parts, each a kind with parameters.
Statements that have no reading are passed over up to the next semicolon.
-/

namespace PipingAssembly.Exchange

/-- A parameter of an entity. -/
inductive Param where
  | text (s : String)
  | reference (id : EntityId)
  | number (x : Float)
  | enumeration (s : String)
  | list (items : List Param)
  /-- a value with the name of its type -/
  | typed (name : String) (items : List Param)
  | omitted
  deriving Inhabited

namespace Param

/-- The entity that a parameter refers to. -/
def reference? : Param → Option EntityId
  | reference id => some id
  | _ => none

/-- The text of a parameter. -/
def text? : Param → Option String
  | text s => some s
  | _ => none

/-- The number of a parameter. -/
def number? : Param → Option Float
  | number x => some x
  | _ => none

end Param

/-- An entity: a simple one has one part, a complex one a part for each of its kinds. -/
structure Entity where
  id : EntityId
  parts : List (String × List Param)
  deriving Inhabited

namespace Entity

/-- The kind of the first part. -/
def kind (e : Entity) : String := (e.parts.head?.map (·.1)).getD ""

/-- The parameters of the first part. -/
def params (e : Entity) : List Param := (e.parts.head?.map (·.2)).getD []

/-- The parameters of the part of a kind. -/
def part? (e : Entity) (kind : String) : Option (List Param) := e.parts.lookup kind

/-- The entities that the parameters refer to, in order. -/
def references (e : Entity) : List EntityId := e.params.filterMap Param.reference?

end Entity

/-- What is left of some tokens once at least one of them has been read. -/
abbrev Rest (ts : List Token) : Type := { rest : List Token // rest.length < ts.length }

namespace Rest

/-- What is left when exactly the first token has been read. -/
def tail (t : Token) (ts : List Token) : Rest (t :: ts) := ⟨ts, Nat.lt_succ_self _⟩

/-- What is left of what is left. -/
def trans {ts : List Token} (r : Rest ts) (q : Rest r.val) : Rest ts :=
  ⟨q.val, Nat.lt_trans q.property r.property⟩

end Rest

mutual

/-- Reads a parameter. -/
def param? (ts : List Token) : Option (Param × Rest ts) :=
  match ts with
  | .text s :: ts => some (.text s, .tail _ ts)
  | .reference id :: ts => some (.reference id, .tail _ ts)
  | .number x :: ts => some (.number x, .tail _ ts)
  | .enumeration s :: ts => some (.enumeration s, .tail _ ts)
  | .omitted :: ts => some (.omitted, .tail _ ts)
  | .openParen :: ts =>
    (params? ts).map fun (items, rest) ↦ (.list items, (Rest.tail _ ts).trans rest)
  | .word name :: .openParen :: ts =>
    (params? ts).map fun (items, rest) ↦
      (.typed name items, ((Rest.tail _ (.openParen :: ts)).trans (.tail _ ts)).trans rest)
  | _ => none
termination_by (ts.length, 0)

/-- Reads the parameters up to a closing parenthesis, whose opening one has been read. -/
def params? (ts : List Token) : Option (List Param × Rest ts) :=
  match ts with
  | .closeParen :: ts => some ([], .tail _ ts)
  | ts => someParams? ts
termination_by (ts.length, 2)

/-- Reads one or more parameters up to a closing parenthesis. -/
def someParams? (ts : List Token) : Option (List Param × Rest ts) :=
  match param? ts with
  | some (p, ⟨.comma :: rest, h⟩) =>
    (someParams? rest).map fun (ps, rest') ↦
      (p :: ps, Rest.trans ⟨rest, Nat.lt_of_succ_lt h⟩ rest')
  | some (p, ⟨.closeParen :: rest, h⟩) => some ([p], ⟨rest, Nat.lt_of_succ_lt h⟩)
  | _ => none
termination_by (ts.length, 1)
decreasing_by
  · exact .right _ Nat.zero_lt_one
  · exact .left _ _ (Nat.lt_of_succ_lt h)

end

/-- Reads a part: a kind and its parameters. -/
def part? : (ts : List Token) → Option ((String × List Param) × Rest ts)
  | .word kind :: .openParen :: ts =>
    (params? ts).map fun (ps, rest) ↦
      ((kind, ps), ((Rest.tail _ (.openParen :: ts)).trans (.tail _ ts)).trans rest)
  | _ => none

/-- Reads the parts of a complex entity up to the closing parenthesis. -/
def parts? (ts : List Token) : Option (List (String × List Param) × Rest ts) :=
  match ts with
  | .closeParen :: ts => some ([], .tail _ ts)
  | ts =>
    match part? ts with
    | none => none
    | some (p, rest) => (parts? rest.val).map fun (ps, rest') ↦ (p :: ps, rest.trans rest')
termination_by ts.length
decreasing_by exact rest.property

/-- Reads what stands between the equals sign and the semicolon of a statement. -/
def body? : (ts : List Token) → Option (List (String × List Param) × Rest ts)
  | .openParen :: ts => (parts? ts).map fun (ps, rest) ↦ (ps, (Rest.tail _ ts).trans rest)
  | ts => (part? ts).map fun (p, rest) ↦ ([p], rest)

/-- Reads a statement up to its semicolon. -/
def statement? : (ts : List Token) → Option (Entity × Rest ts)
  | .reference id :: .equals :: ts =>
    match body? ts with
    | some (parts, ⟨.semicolon :: rest, h⟩) =>
      if parts.isEmpty then none
      else some (⟨id, parts⟩, ⟨rest, Nat.lt_succ_of_lt (Nat.lt_succ_of_lt (Nat.lt_of_succ_lt h))⟩)
    | _ => none
  | _ => none

/-- What follows the next semicolon. -/
def skipStatement : List Token → List Token
  | [] => []
  | .semicolon :: ts => ts
  | _ :: ts => skipStatement ts

theorem length_skipStatement_le (ts : List Token) : (skipStatement ts).length ≤ ts.length := by
  induction ts with
  | nil => exact Nat.le_refl _
  | cons t ts ih => cases t <;> simp only [skipStatement, List.length_cons] <;> omega

/-- Skipping goes over at least one token. -/
theorem length_skipStatement_cons (t : Token) (ts : List Token) :
    (skipStatement (t :: ts)).length ≤ ts.length := by
  have h := length_skipStatement_le ts
  cases t <;> simp only [skipStatement] <;> omega

/-- Reads the statements of a list of tokens, in order. Where there is no statement, reading goes on
behind the next semicolon. -/
def readStatements (ts : List Token) : List Entity :=
  match ts with
  | [] => []
  | t :: ts =>
    match statement? (t :: ts) with
    | some (e, rest) => e :: readStatements rest.val
    | none => readStatements (skipStatement (t :: ts))
termination_by ts.length
decreasing_by
  · exact rest.property
  · exact Nat.lt_succ_of_le (length_skipStatement_cons t ts)

/-- Puts an entity into a list in the order of numbers, in the place of one that has its number. -/
def putEntity (e : Entity) : List Entity → List Entity
  | [] => [e]
  | f :: fs =>
    if e.id = f.id then e :: fs
    else if e.id < f.id then e :: f :: fs
    else f :: putEntity e fs

/-- Entities in the order of numbers; of several with one number the last one only. -/
def sortEntities (es : List Entity) : List Entity := es.foldl (fun fs e ↦ putEntity e fs) []

/-- The entities of a file in the order of their numbers. -/
def readEntities (s : String) : List Entity := sortEntities (readStatements (tokens s.toList))

/-- The entity with a number. -/
def findEntity? (es : List Entity) (id : EntityId) : Option Entity := es.find? (·.id == id)

end PipingAssembly.Exchange
