import PipingAssembly.Yaml.Cursor

/-!
# Scalars as they are written

Plain, quoted and block scalars are read from a place in the text. Line breaks inside a plain or
quoted scalar and inside a folded block are folded: one break becomes a space, further ones stay.
A scalar that has no reading is answered by the place where it stops having one.
-/

namespace PipingAssembly.Yaml

/-- Characters that have been read, the last one first. -/
abbrev Reversed := List Char

/-- The text that a first line break and further ones stand for. -/
def folded (first further : List Char) : List Char :=
  if first.head? = some '\n' then
    if further = [] then [' '] else further
  else first ++ further

/-- White space inside a flow scalar: blanks within a line, or a first break and further ones. -/
structure Gap where
  blanks : Reversed
  first : List Char
  further : List Char
  broken : Bool
  deriving Inhabited

def Gap.none : Gap := ⟨[], [], [], false⟩

/-- What a gap between two parts of a scalar stands for. -/
def Gap.text (g : Gap) : List Char :=
  if g.broken then folded g.first g.further else g.blanks.reverse

/-- Reads white space. A tab before column `indent` after a line break has no reading. -/
def readGap (indent : Option Nat) : Nat → Gap → Cursor → Except Place (Gap × Cursor)
  | 0, g, c => .ok (g, c)
  | fuel + 1, g, c =>
    match c.peek? with
    | none => .ok (g, c)
    | some b =>
      if isSpaceOrTab b then
        if g.broken && b == '\t' && indent.any (c.column < ·) then c.fail
        else if g.broken then readGap indent fuel g c.skip
        else readGap indent fuel { g with blanks := b :: g.blanks } c.skip
      else if isBreak b then
        if g.broken then
          readGap indent fuel { g with further := g.further ++ c.breakText } c.skipBreak
        else readGap indent fuel { g with blanks := [], first := c.breakText, broken := true }
          c.skipBreak
      else .ok (g, c)

/-- Whether a plain scalar ends before the rest of a line. -/
def endsPlain (inFlow : Bool) : List Char → Bool
  | [] => true
  | ':' :: r => atBlankOrEnd r
  | c :: _ => inFlow && (c == ',' || c == '[' || c == ']' || c == '\x7b' || c == '\x7d')

/-- Whether a colon stands before an indicator of flow collections. -/
def colonBeforeIndicator : List Char → Bool
  | ':' :: c :: _ => c == ',' || c == '?' || c == '[' || c == ']' || c == '\x7b' || c == '\x7d'
  | _ => false

/-- Reads the characters of a plain scalar up to white space or its end. -/
def readPlainRun (inFlow : Bool) :
    Nat → Reversed → Cursor → Except Place (Reversed × Cursor)
  | 0, read, c => .ok (read, c)
  | fuel + 1, read, c =>
    match c.rest with
    | [] => .ok (read, c)
    | b :: _ =>
      if atBlankOrEnd c.rest then .ok (read, c)
      else if inFlow && colonBeforeIndicator c.rest then c.fail
      else if endsPlain inFlow c.rest then .ok (read, c)
      else readPlainRun inFlow fuel (b :: read) c.skip

/-- Reads a plain scalar: its text, the place after it and its white space, and whether a line
break was read after the text. -/
def readPlainFrom (inFlow : Bool) (indent : Nat) :
    Nat → Reversed → Gap → Cursor → Except Place (Reversed × Cursor × Bool)
  | 0, read, g, c => .ok (read, c, g.broken)
  | fuel + 1, read, g, c =>
    if c.atDocumentMarker || c.peek? == some '#' then .ok (read, c, g.broken)
    else do
      let (run, next) ← readPlainRun inFlow (c.rest.length + 1) [] c
      let (read, g) := if run = [] then (read, g) else (run ++ g.text.reverse ++ read, Gap.none)
      if !atBlankOrEnd next.rest || next.rest = [] then .ok (read, next, g.broken)
      else
        let (g, next) ← readGap (some indent) (next.rest.length + 1) g next
        if !inFlow && next.column < indent then .ok (read, next, g.broken)
        else readPlainFrom inFlow indent fuel read g next

/-- Reads a plain scalar of a block whose lines are indented by at least `indent` columns. -/
def readPlain (inFlow : Bool) (indent : Nat) (c : Cursor) :
    Except Place (String × Cursor × Bool) :=
  (readPlainFrom inFlow indent (c.rest.length + 1) [] .none c).map fun (read, next, broken) ↦
    (String.ofList read.reverse, next, broken)

/-- The value of a hexadecimal digit. -/
def hexValue? (c : Char) : Option Nat :=
  if c.isDigit then some (c.toNat - '0'.toNat)
  else if 'a' ≤ c ∧ c ≤ 'f' then some (c.toNat - 'a'.toNat + 10)
  else if 'A' ≤ c ∧ c ≤ 'F' then some (c.toNat - 'A'.toNat + 10)
  else none

/-- The character that hexadecimal digits stand for. -/
def charOfHex? (digits : List Char) : Option Char := do
  let n := (← digits.mapM hexValue?).foldl (fun n d ↦ 16 * n + d) 0
  if (0xD800 ≤ n ∧ n ≤ 0xDFFF) ∨ 0x10FFFF < n then none else some (Char.ofNat n)

/-- Reads the character that `count` hexadecimal digits stand for. -/
def readCode (count : Nat) (c : Cursor) : Except Place (Char × Cursor) :=
  let digits := c.rest.take count
  match (charOfHex? digits).filter fun _ ↦ digits.length == count with
  | some d => .ok (d, c.skips count)
  | none => c.fail

/-- The characters that a letter after a backslash stands for. -/
def escapes : List (Char × Char) :=
  [('0', '\x00'), ('a', '\x07'), ('b', '\x08'), ('t', '\t'), ('\t', '\t'), ('n', '\n'),
   ('v', '\x0b'), ('f', '\x0c'), ('r', '\r'), ('e', '\x1b'), (' ', ' '), ('"', '"'), ('/', '/'),
   ('\\', '\\'), ('N', '\x85'), ('_', '\xa0'), ('L', '\u2028'), ('P', '\u2029')]

/-- Reads an escape, whose backslash is here. -/
def readEscape (c : Cursor) : Except Place (Char × Cursor) :=
  let after := c.skips 2
  match c.skip.peek? with
  | some 'x' => readCode 2 after
  | some 'u' => readCode 4 after
  | some 'U' => readCode 8 after
  | letter =>
    match letter.bind fun l ↦ escapes.lookup l with
    | some d => .ok (d, after)
    | none => c.fail

/-- Reads the characters of a quoted scalar up to white space or the closing quote; the last answer
says whether the run ended at an escaped line break. -/
def readQuotedRun (single : Bool) : Nat → Reversed → Cursor →
    Except Place (Reversed × Cursor × Bool)
  | 0, read, c => .ok (read, c, false)
  | fuel + 1, read, c =>
    match c.rest with
    | [] => .ok (read, c, false)
    | b :: r =>
      if atBlankOrEnd c.rest then .ok (read, c, false)
      else if single && b == '\'' && r.head? == some '\'' then
        readQuotedRun single fuel ('\'' :: read) (c.skips 2)
      else if b == (if single then '\'' else '"') then .ok (read, c, false)
      else if !single && b == '\\' && r.head?.any isBreak then .ok (read, c.skip.skipBreak, true)
      else if !single && b == '\\' then do
        let (e, next) ← readEscape c
        readQuotedRun single fuel (e :: read) next
      else readQuotedRun single fuel (b :: read) c.skip

def readQuotedFrom (single : Bool) :
    Nat → Reversed → Cursor → Except Place (Reversed × Cursor)
  | 0, _, c => c.fail
  | fuel + 1, read, c =>
    if c.atDocumentMarker || c.rest = [] then c.fail
    else do
      let (read, next, escaped) ← readQuotedRun single (c.rest.length + 1) read c
      if next.peek? == some (if single then '\'' else '"') then .ok (read, next.skip)
      else
        let (g, next) ← readGap none (next.rest.length + 1) { Gap.none with broken := escaped } next
        readQuotedFrom single fuel (g.text.reverse ++ read) next

/-- Reads a quoted scalar whose opening quote is here. -/
def readQuoted (single : Bool) (c : Cursor) : Except Place (String × Cursor) :=
  (readQuotedFrom single (c.rest.length + 1) [] c.skip).map fun (read, next) ↦
    (String.ofList read.reverse, next)

/-- What becomes of the line breaks at the end of a block scalar. -/
inductive Chomping where
  | strip
  | clip
  | keep
  deriving DecidableEq

/-- Reads the chomping of a block scalar, if it is given. -/
def readChomping (c : Cursor) : Option Chomping × Cursor :=
  match c.peek? with
  | some '+' => (some .keep, c.skip)
  | some '-' => (some .strip, c.skip)
  | _ => (none, c)

/-- Reads the indentation of a block scalar, if it is given; it is not zero. -/
def readWidth (c : Cursor) : Except Place (Option Nat × Cursor) :=
  match c.peek?.filter Char.isDigit with
  | none => .ok (none, c)
  | some '0' => c.fail
  | some d => .ok (some (d.toNat - '0'.toNat), c.skip)

/-- Reads the header of a block scalar: its chomping and its indentation, in either order. -/
def readHeader (c : Cursor) : Except Place (Chomping × Option Nat × Cursor) := do
  match readChomping c with
  | (some chomping, c) =>
    let (width, c) ← readWidth c
    return (chomping, width, c)
  | (none, c) =>
    let (width, c) ← readWidth c
    let (chomping, c) := if width.isSome then readChomping c else (none, c)
    return (chomping.getD .clip, width, c)

/-- Reads the blank lines of a block scalar: the breaks, the greatest column that was reached and
the place of the next line with text. -/
def readBlankLines (indent : Option Nat) : Nat → List Char → Nat → Cursor →
    Except Place (List Char × Nat × Cursor)
  | 0, breaks, widest, c => .ok (breaks, widest, c)
  | fuel + 1, breaks, widest, c =>
    let missing := match indent with
      | some n => n - c.column
      | none => c.rest.length
    let c := c.skips ((c.rest.takeWhile (· == ' ')).length.min missing)
    let widest := max widest c.column
    if indent.all (c.column < ·) && c.peek? == some '\t' then c.fail
    else if c.peek?.any isBreak then
      readBlankLines indent fuel (breaks ++ c.breakText) widest c.skipBreak
    else .ok (breaks, widest, c)

/-- What a block scalar holds between two of its lines. -/
structure BlockGap where
  first : List Char
  further : List Char
  afterBlank : Bool

/-- Reads the lines of a block scalar that are indented by `indent` columns. -/
def readBlockLines (literal : Bool) (indent : Nat) : Nat → Reversed → BlockGap → Cursor →
    Except Place (Reversed × BlockGap × Cursor)
  | 0, read, g, c => .ok (read, g, c)
  | fuel + 1, read, g, c =>
    if c.column ≠ indent ∨ c.rest = [] then .ok (read, g, c)
    else do
      let blank := c.peek?.any isSpaceOrTab
      let gap :=
        if !literal && g.first.head? == some '\n' && !g.afterBlank && !blank then
          folded g.first g.further
        else g.first ++ g.further
      let (line, next) := c.span (!isBreak ·)
      let (breaks, _, after) ←
        readBlankLines (some indent) (next.rest.length + 1) [] 0 next.skipBreak
      readBlockLines literal indent fuel (line.reverse ++ gap.reverse ++ read)
        ⟨next.breakText, breaks, blank⟩ after

/-- Reads a block scalar whose indicator is here, inside a block at the indentation `parent`. -/
def readBlock (literal : Bool) (parent : Int) (c : Cursor) : Except Place (String × Cursor) := do
  let (chomping, width, c) ← readHeader c.skip
  let c := c.skipComment
  if !atBreakOrEnd c.rest then c.fail
  else
    let c := c.skipBreak
    let given := width.map fun n ↦ (if 0 ≤ parent then parent.toNat + n else n)
    let (breaks, widest, c) ← readBlankLines given (c.rest.length + 1) [] 0 c
    let indent := given.getD (max (max widest (parent + 1).toNat) 1)
    let (read, g, c) ← readBlockLines literal indent (c.rest.length + 1) [] ⟨[], breaks, false⟩ c
    let ending := match chomping with
      | .strip => []
      | .clip => g.first
      | .keep => g.first ++ g.further
    .ok (String.ofList (read.reverse ++ ending), c)

end PipingAssembly.Yaml
