/-!
# Searching in texts
-/

namespace PipingAssembly.Text

/-- Whether `needle` occurs in `cs` as a run of consecutive characters. -/
def occursIn (needle : List Char) : List Char → Bool
  | [] => needle.isEmpty
  | c :: cs => needle.isPrefixOf (c :: cs) || occursIn needle cs

/-- Whether a text contains another one. -/
def contains (s needle : String) : Bool := occursIn needle.toList s.toList

/-- The parts of a list between the elements that satisfy `p`. -/
def splitWhere (p : Char → Bool) : List Char → List (List Char)
  | [] => [[]]
  | c :: cs =>
    match splitWhere p cs with
    | [] => [[c]]
    | part :: parts => if p c then [] :: part :: parts else (c :: part) :: parts

/-- The lines of a text: each ends in a line feed, before which a carriage return is dropped, and
nothing follows the last line feed. -/
def lines (s : String) : List String :=
  let parts := splitWhere (· == '\n') s.toList
  let parts := if parts.getLast? = some [] then parts.dropLast else parts
  let last := parts.length - 1
  let closed := s.toList.getLast? = some '\n'
  parts.mapIdx fun i part ↦
    String.ofList
      (if part.getLast? = some '\r' ∧ (i < last ∨ closed) then part.dropLast else part)

end PipingAssembly.Text
