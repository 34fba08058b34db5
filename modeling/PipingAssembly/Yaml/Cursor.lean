/-!
# Places in a YAML text

A cursor is the text that is left, with the line and the column where it begins. Lines end in a
line feed, a carriage return, both, or one of three further characters. Where a text has no reading,
readers answer the place up to which it could be read.
-/

namespace PipingAssembly.Yaml

/-- A line and a column of a text, both counted from zero. Columns count characters. -/
structure Place where
  line : Nat
  column : Nat
  deriving DecidableEq, Repr, Inhabited

/-- The text that is left, and where in the whole text it begins. -/
structure Cursor where
  rest : List Char
  index : Nat
  line : Nat
  column : Nat
  deriving Repr

/-- Whether a character ends a line. -/
def isBreak (c : Char) : Bool :=
  c == '\n' || c == '\r' || c == '\x85' || c == '\u2028' || c == '\u2029'

/-- Whether a character is a space or a tab. -/
def isSpaceOrTab (c : Char) : Bool := c == ' ' || c == '\t'

/-- Whether a place is at the end of the text or before the end of a line. -/
def atBreakOrEnd : List Char → Bool
  | [] => true
  | c :: _ => isBreak c

/-- Whether a place is before white space or at the end of the text. -/
def atBlankOrEnd : List Char → Bool
  | [] => true
  | c :: _ => isBreak c || isSpaceOrTab c

/-- Whether a character may be part of a name. -/
def isNameChar (c : Char) : Bool := c.isAlphanum || c == '_' || c == '-'

/-- Whether a character may occur in a text at all. -/
def isAllowed (c : Char) : Bool :=
  let n := c.toNat
  n == 9 || n == 10 || n == 13 || (0x20 ≤ n && n ≤ 0x7E) || n == 0x85 ||
    (0xA0 ≤ n && n ≤ 0xFFFD) || 0x10000 ≤ n

namespace Cursor

/-- The beginning of a text; a byte order mark before it is left out. -/
def start (cs : List Char) : Cursor :=
  match cs with
  | '\uFEFF' :: r => ⟨r, 0, 0, 0⟩
  | r => ⟨r, 0, 0, 0⟩

/-- The place of a cursor. -/
def place (c : Cursor) : Place := ⟨c.line, c.column⟩

/-- The text has no reading from here on. -/
def fail {α : Type} (c : Cursor) : Except Place α := .error c.place

/-- The next character. -/
def peek? (c : Cursor) : Option Char := c.rest.head?

/-- The place after the next character. -/
def skip (c : Cursor) : Cursor :=
  match c.rest with
  | [] => c
  | _ :: r => ⟨r, c.index + 1, c.line, c.column + 1⟩

/-- The place `n` characters on. -/
def skips : Nat → Cursor → Cursor
  | 0, c => c
  | n + 1, c => skips n c.skip

/-- The place after a line break, if there is one here. -/
def skipBreak (c : Cursor) : Cursor :=
  match c.rest with
  | '\r' :: '\n' :: r => ⟨r, c.index + 2, c.line + 1, 0⟩
  | b :: r => if isBreak b then ⟨r, c.index + 1, c.line + 1, 0⟩ else c
  | [] => c

/-- The end of a text; a line that no break ends is over there. -/
def closed (c : Cursor) : Cursor :=
  if c.column = 0 then c else { c with line := c.line + 1, column := 0 }

/-- The text that the line break here stands for: nothing at the end of the text. -/
def breakText (c : Cursor) : List Char :=
  match c.rest with
  | [] => []
  | b :: _ => if b == '\u2028' || b == '\u2029' then [b] else if isBreak b then ['\n'] else []

/-- The characters from here on that satisfy `p`, and the place after them. -/
def span (p : Char → Bool) (c : Cursor) : List Char × Cursor :=
  let taken := c.rest.takeWhile p
  (taken, ⟨c.rest.dropWhile p, c.index + taken.length, c.line, c.column + taken.length⟩)

/-- The place after the characters that satisfy `p`. -/
def skipWhile (p : Char → Bool) (c : Cursor) : Cursor := (c.span p).2

/-- The place after spaces, tabs and a comment. -/
def skipComment (c : Cursor) : Cursor :=
  let c := c.skipWhile isSpaceOrTab
  if c.peek? = some '#' then c.skipWhile (!isBreak ·) else c

/-- Whether a line begins here with three of a character and nothing right after them. -/
def atMarker (mark : Char) (c : Cursor) : Bool :=
  c.column == 0 &&
    match c.rest with
    | a :: b :: d :: r => a == mark && b == mark && d == mark && atBlankOrEnd r
    | _ => false

/-- Whether a line begins here that opens or closes a document. -/
def atDocumentMarker (c : Cursor) : Bool := c.atMarker '-' || c.atMarker '.'

end Cursor

end PipingAssembly.Yaml
