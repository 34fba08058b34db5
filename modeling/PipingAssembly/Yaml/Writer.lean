import PipingAssembly.Json.Writer
import PipingAssembly.Text.Search
import PipingAssembly.Value.Plain

/-!
# Writing YAML documents

Values are written in block style, two columns a level; a list that is the value of a key stands in
the column of the key. A text goes without quotes where it would be read back as that text, between
single quotes where it would be read as something else, as a literal block where it has several
lines, and between double quotes where nothing else can hold it.
-/

namespace PipingAssembly.Yaml

/-- Whether a character may be written as it is. -/
def isPrintable (c : Char) : Bool :=
  c == '\n' || (' ' ≤ c && c ≤ '~') || ('\xa0' ≤ c && c.toNat < 0xFFFE && c != '\uFEFF')

/-- Whether a character stands between words. -/
def isGap (c : Char) : Bool := c == ' ' || c == '\t' || c == '\n'

/-- The characters that cannot begin a text without quotes. -/
def leadingMarks : List Char :=
  ['#', ',', '[', ']', '\x7b', '\x7d', '&', '*', '!', '|', '>', '\'', '"', '%', '@', '\x60']

/-- Whether the first character of a text asks for quotes. -/
def opensMarkup : List Char → Bool
  | [] => false
  | c :: rest =>
    leadingMarks.contains c ||
      ((c == '?' || c == ':' || c == '-') && rest.head?.all isGap)

/-- Whether a later character of a text asks for quotes: a colon before a gap, or a number sign
behind one. -/
def containsMarkup : List Char → Bool
  | a :: b :: rest =>
    (b == ':' && rest.head?.all isGap) || (b == '#' && isGap a) || containsMarkup (b :: rest)
  | _ => false

/-- Whether a text begins like a mark of documents. -/
def opensDocument (cs : List Char) : Bool :=
  ['-', '-', '-'].isPrefixOf cs || ['.', '.', '.'].isPrefixOf cs

/-- Whether a blank and a line break are neighbours in a text, in the order given. -/
def hasNeighbours (a b : Char) : List Char → Bool
  | x :: y :: rest => (x == a && y == b) || hasNeighbours a b (y :: rest)
  | _ => false

/-- The ways of writing a text. -/
inductive ScalarStyle where
  | plain
  | singleQuoted
  | doubleQuoted
  | literal
  deriving DecidableEq, Repr

/-- Whether an unquoted scalar would be read as something else than a text. -/
def resolvesElsewhere (s : String) : Bool :=
  Plain.hasLeadingZero s.toList ||
    match Plain.resolve? s with
    | some (.text _) => false
    | _ => true

/-- Whether a text keeps its characters only between double quotes. -/
def needsEscapes (cs : List Char) : Bool :=
  cs.any (!isPrintable ·) || hasNeighbours ' ' '\n' cs ||
    cs.any fun c ↦ c == '\u2028' || c == '\u2029'

/-- The style of a text; a key cannot be a literal. -/
def scalarStyle (isKey : Bool) (s : String) : ScalarStyle :=
  let cs := s.toList
  if needsEscapes cs then .doubleQuoted
  else if cs.contains '\n' then
    if isKey || cs.getLast? == some ' ' then .doubleQuoted else .literal
  else if cs.head? == some ' ' || cs.getLast? == some ' ' || opensDocument cs || opensMarkup cs ||
      containsMarkup cs || resolvesElsewhere s then .singleQuoted
  else .plain

/-- The hexadecimal digits of a number, in capitals, as many as asked for. -/
def capitalHex : Nat → Nat → List Char
  | 0, _ => []
  | digits + 1, n => capitalHex digits (n / 16) ++ [(Nat.digitChar (n % 16)).toUpper]

/-- A character between double quotes. -/
def escapeChar (c : Char) : List Char :=
  match c with
  | '\x00' => ['\\', '0']
  | '\x07' => ['\\', 'a']
  | '\x08' => ['\\', 'b']
  | '\t' => ['\\', 't']
  | '\n' => ['\\', 'n']
  | '\x0b' => ['\\', 'v']
  | '\x0c' => ['\\', 'f']
  | '\r' => ['\\', 'r']
  | '\x1b' => ['\\', 'e']
  | '"' => ['\\', '"']
  | '\\' => ['\\', '\\']
  | '\x85' => ['\\', 'N']
  | '\u2028' => ['\\', 'L']
  | '\u2029' => ['\\', 'P']
  | c =>
    if isPrintable c then [c]
    else if c.toNat < 0x100 then ['\\', 'x'] ++ capitalHex 2 c.toNat
    else if c.toNat < 0x10000 then ['\\', 'u'] ++ capitalHex 4 c.toNat
    else ['\\', 'U'] ++ capitalHex 8 c.toNat

/-- A text between single quotes. -/
def singleQuoted (cs : List Char) : String :=
  "'" ++ String.ofList (cs.flatMap fun c ↦ if c = '\'' then ['\'', '\''] else [c]) ++ "'"

/-- A text between double quotes. -/
def doubleQuoted (cs : List Char) : String :=
  "\"" ++ String.ofList (cs.flatMap escapeChar) ++ "\""

/-- The lines of a text, the last line break apart. -/
def literalLines (cs : List Char) : List String :=
  let parts := (Text.splitWhere (· == '\n') cs).map String.ofList
  if cs.getLast? = some '\n' then parts.dropLast else parts

/-- The header of a literal: a mark of the indentation where the first line does not show it, and
what becomes of the line breaks at the end. -/
def literalHeader (cs : List Char) : String :=
  let indentation := if cs.head? = some ' ' ∨ cs.head? = some '\n' then "2" else ""
  let chomping :=
    match cs.reverse with
    | ['\n'] => "+"
    | '\n' :: '\n' :: _ => "+"
    | '\n' :: _ => ""
    | _ => "-"
  "|" ++ indentation ++ chomping

/-- A line two columns further right; an empty line stays empty. -/
def indentLine (s : String) : String := if s = "" then "" else "  " ++ s

/-- The lines of a text, the first of which follows a key or a dash. -/
def scalarLines (isKey : Bool) (s : String) : String × List String :=
  match scalarStyle isKey s with
  | .plain => (s, [])
  | .singleQuoted => (singleQuoted s.toList, [])
  | .doubleQuoted => (doubleQuoted s.toList, [])
  | .literal => (literalHeader s.toList, literalLines s.toList)

/-- The text of a number. -/
def numberText (x : Float) : String :=
  if x.isNaN then ".nan" else if x.isInf then if x < 0 then "-.inf" else ".inf" else Json.realText x

/-- Whether a key fits before a colon. -/
def isShortKey (s : String) : Bool := s.utf8ByteSize ≤ 128 && !s.toList.contains '\n'

/-- The lines that begin with an indicator of two columns. -/
def hang (indicator : String) : List String → List String
  | [] => [indicator]
  | first :: rest => (indicator ++ " " ++ first) :: rest.map indentLine

mutual

/-- The lines of a value that stands in the first column. -/
def lines : Value → List String
  | .list [] => ["[]"]
  | .list items => itemLines items
  | .openList [] => ["[]"]
  | .openList items => itemLines items
  | .object [] => ["\x7b\x7d"]
  | .object fields => fieldLines fields
  | .null => ["null"]
  | .bool b => [if b then "true" else "false"]
  | .int n => [toString n]
  | .real x => [numberText x]
  | .text s => let (first, rest) := scalarLines false s; first :: rest
  | .plain s => let (first, rest) := scalarLines false s; first :: rest
  | .tagged tag v => hang ("!" ++ tag) (lines v)
  | .keyedByNodes => ["null"]

def itemLines : List Value → List String
  | [] => []
  | v :: vs => hang "-" (lines v) ++ itemLines vs

def fieldLines : List (String × Value) → List String
  | [] => []
  | (key, v) :: rest => entryLines key v (lines v) ++ fieldLines rest
where
  /-- The lines of a key and of its value, whose own lines are given. -/
  entryLines (key : String) (v : Value) (own : List String) : List String :=
    if isShortKey key then
      let name := (scalarLines true key).1 ++ ":"
      match v with
      | .list (_ :: _) | .openList (_ :: _) => name :: own
      | .object (_ :: _) => name :: own.map indentLine
      | _ => (name ++ " " ++ own.headD "") :: own.tail.map indentLine
    else
      let (first, rest) := scalarLines false key
      hang "?" (first :: rest) ++ hang ":" own

end

/-- The document that holds a value. -/
def render (v : Value) : String := String.join ((lines v).map (· ++ "\n"))

end PipingAssembly.Yaml
