import PipingAssembly.Arithmetic.Power
import PipingAssembly.Decimal.Literal
import PipingAssembly.Schema.Violation
import PipingAssembly.Text.Blank
import PipingAssembly.Text.Search
import PipingAssembly.Yaml.Node

/-!
# Places of violations in documents

A violation is shown at the first line that begins with its key, and a document that is not YAML at
the place where it stops being so. Places are counted in bytes, with one byte for the end of each
line.
-/

namespace PipingAssembly

/-- A run of bytes of a document. -/
structure Span where
  offset : Nat
  length : Nat
  deriving DecidableEq, Repr, Inhabited

/-- From an offset, what is left of a line of at least one byte. -/
def lineSpan (offset : Nat) (rest : List Char) : Span :=
  ⟨offset, max (String.ofList (rest.takeWhile (· != '\n'))).utf8ByteSize 1⟩

/-- The first line of a document, of at least one byte. -/
def firstLineSpan (content : String) : Span := lineSpan 0 content.toList

/-- What follows the first bytes of a text, unless they end inside a character. -/
def dropBytes? : Nat → List Char → Option (List Char)
  | 0, cs => some cs
  | _ + 1, [] => none
  | n + 1, c :: cs => if c.utf8Size ≤ n + 1 then dropBytes? (n + 1 - c.utf8Size) cs else none

/-- The span of a place that is told by line and column, up to the end of its line. The column is
counted in bytes from the beginning of the line; a place past the end of the document is its end. A
place inside a character has none. -/
def placeSpan? (content : String) (place : Yaml.Place) : Option Span :=
  let lines := Text.lines content
  let before := total ((lines.take place.line).map (·.utf8ByteSize + 1))
  let column := if place.line < lines.length then place.column else 0
  let offset := min (before + column) content.utf8ByteSize
  (dropBytes? offset content.toList).map (lineSpan offset)

/-- The span of a fault, in the first line if it has no place. -/
def faultSpan? (content : String) (fault : Yaml.Fault) : Option Span :=
  match fault.place? with
  | some place => placeSpan? content place
  | none => some (firstLineSpan content)

/-- The first of some lines that begins with a text after its indentation, from an offset on. -/
def findLine? (start : String) : Nat → List String → Option Span
  | _, [] => none
  | offset, line :: lines =>
    let trimmed := line.toList.dropWhile Text.isBlank
    if start.toList.isPrefixOf trimmed then
      let length := (String.ofList trimmed).utf8ByteSize
      some ⟨offset + (line.utf8ByteSize - length), length⟩
    else findLine? start (offset + line.utf8ByteSize + 1) lines

/-- The first line of a document that begins with a key. -/
def keySpan? (content key : String) : Option Span := findLine? (key ++ ":") 0 (Text.lines content)

/-- Whether a step of a path may be the index of an item. -/
def isIndex (step : String) : Bool :=
  (Decimal.readNat? step.toList).any (· < pow2 64)

/-- The place of a path in a document: the line of its last key, or of the key before an index. -/
def pathSpan (content : String) (path : List String) : Span :=
  let steps := (path.map escapeStep).filter (· != "")
  match steps.reverse with
  | [] => firstLineSpan content
  | [last] => (keySpan? content last).getD (firstLineSpan content)
  | last :: before :: _ =>
    let parent := if isIndex last then keySpan? content before else none
    match parent with
    | some span => span
    | none => (keySpan? content last).getD (firstLineSpan content)

/-- The place of a violation. -/
def Violation.span (content : String) (v : Violation) : Span := pathSpan content v.path

end PipingAssembly
