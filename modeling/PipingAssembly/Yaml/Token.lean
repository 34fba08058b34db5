import PipingAssembly.Yaml.Scalar

/-!
# Tokens of a YAML text

The tokens of a text, with those that its indentation stands for. Where a colon follows what may be
the key of a mapping, the tokens that announce the key are put before it afterwards. Each token has
the place where it begins. Where a text has no reading, the tokens before that place are known, but
not from the first on that could still have turned out to be a key.
-/

namespace PipingAssembly.Yaml

/-- A token of a YAML text. -/
inductive Token where
  | version (major minor : Nat)
  | tagHandle (handle stem : String)
  | documentStart
  | documentEnd
  | blockSequenceStart
  | blockMappingStart
  | blockEnd
  | flowSequenceStart
  | flowSequenceEnd
  | flowMappingStart
  | flowMappingEnd
  | blockEntry
  | flowEntry
  | key
  | value
  | reference (name : String)
  | anchor (name : String)
  | tag (handle suffix : String)
  /-- a scalar; `isPlain` tells that it has neither quotes nor a block indicator -/
  | scalar (text : String) (isPlain : Bool)
  | textEnd
  deriving DecidableEq, Repr

/-- The tokens of a text with their places, as far as they are known. -/
structure Tokens where
  list : List (Token × Place)
  /-- where the text ends, or stops having a reading -/
  stop : Place

/-- A token that may turn out to be the key of a mapping: its number, and where it begins. -/
structure KeyCandidate where
  required : Bool
  number : Nat
  index : Nat
  place : Place

/-- What is known of the text up to a place. -/
structure Lexing where
  cursor : Cursor
  /-- the tokens so far, the last one first -/
  tokens : List (Token × Place)
  /-- how many tokens there are -/
  count : Nat
  /-- the columns of the open blocks, the innermost first; -1 stands for no block -/
  indent : Int
  outerIndents : List Int
  keyAllowed : Bool
  /-- the candidates of the open flow collections, the innermost first -/
  candidates : List (Option KeyCandidate)

namespace Lexing

/-- The beginning of a text. -/
def start (cs : List Char) : Lexing :=
  ⟨.start cs, [], 0, -1, [], true, [none]⟩

/-- Whether the place is inside a flow collection. -/
def inFlow (s : Lexing) : Bool := 1 < s.candidates.length

/-- Adds a token that begins here. -/
def emit (t : Token) (s : Lexing) : Lexing :=
  { s with tokens := (t, s.cursor.place) :: s.tokens, count := s.count + 1 }

/-- Puts a token before that of a candidate. -/
def emitBefore (k : KeyCandidate) (t : Token) (s : Lexing) : Lexing :=
  let later := s.count - k.number
  { s with
    tokens := s.tokens.take later ++ (t, k.place) :: s.tokens.drop later
    count := s.count + 1 }

/-- Adds a token of `n` characters. -/
def emitHere (n : Nat) (t : Token) (s : Lexing) : Lexing :=
  { s.emit t with cursor := s.cursor.skips n }

/-- Closes the blocks that are indented more than a column. -/
def closeBlocks (column : Int) (s : Lexing) : Lexing :=
  if s.inFlow then s
  else
    let inner := (s.indent :: s.outerIndents).takeWhile (column < ·)
    match (s.indent :: s.outerIndents).dropWhile (column < ·) with
    | [] => s
    | i :: is =>
      { s with
        tokens := List.replicate inner.length (.blockEnd, s.cursor.place) ++ s.tokens
        count := s.count + inner.length
        indent := i
        outerIndents := is }

/-- Opens a block that is indented more than the innermost one, before a candidate or here. -/
def openBlock (before : Option KeyCandidate) (t : Token) (s : Lexing) : Lexing :=
  let column := ((before.map (·.place)).getD s.cursor.place).column
  if s.inFlow ∨ (column : Int) ≤ s.indent then s
  else
    let s := { s with outerIndents := s.indent :: s.outerIndents, indent := (column : Int) }
    match before with
    | some k => s.emitBefore k t
    | none => s.emit t

/-- The candidate of the innermost collection. -/
def candidate (s : Lexing) : Option KeyCandidate := s.candidates.head?.join

/-- Replaces the candidate of the innermost collection. -/
def setCandidate (k : Option KeyCandidate) (s : Lexing) : Lexing :=
  { s with candidates := k :: s.candidates.tail }

/-- Gives up the candidate of the innermost collection; one that has to be a key has no reading. -/
def dropCandidate (s : Lexing) : Except Place Lexing :=
  if s.candidate.any (·.required) then s.cursor.fail else .ok (s.setCandidate none)

/-- Makes the next token a candidate where a key may stand. -/
def saveCandidate (s : Lexing) : Except Place Lexing :=
  if s.keyAllowed then do
    let t ← s.dropCandidate
    let c := s.cursor
    let required := !s.inFlow && s.indent == (c.column : Int)
    return t.setCandidate (some ⟨required, s.count, c.index, c.place⟩)
  else .ok s

/-- Whether a candidate can no longer be a key: its line has ended or it is too far back. -/
def isStale (c : Cursor) (k : KeyCandidate) : Bool :=
  k.place.line < c.line || k.index + 1024 < c.index

/-- Gives up the candidates of all collections that can no longer be keys. -/
def dropStale (s : Lexing) : Except Place Lexing :=
  let stale := fun k : Option KeyCandidate ↦ k.any (isStale s.cursor)
  if s.candidates.any fun k ↦ stale k && k.any (·.required) then s.cursor.fail
  else .ok { s with candidates := s.candidates.map fun k ↦ if stale k then none else k }

/-- Moves over white space and comments to the next token. -/
def skipToToken : Nat → Lexing → Lexing
  | 0, s => s
  | fuel + 1, s =>
    let c := s.cursor
    let c := if c.index = 0 ∧ c.peek? = some '\uFEFF' then c.skip else c
    let tabs := s.inFlow || !s.keyAllowed
    let c := c.skipWhile fun d ↦ d == ' ' || (tabs && d == '\t')
    let c := if c.peek? = some '#' then c.skipWhile (!isBreak ·) else c
    if c.peek?.any isBreak then
      skipToToken fuel { s with cursor := c.skipBreak, keyAllowed := s.keyAllowed || !s.inFlow }
    else { s with cursor := c }

/-- Whether a character may be part of a tag; brackets and commas only in a full one. -/
private def isTagChar (full : Bool) (c : Char) : Bool :=
  isNameChar c || ";/?:@&=+$.!~*'()".toList.contains c || (full && ",[]".toList.contains c)

/-- Reads a byte, written as a percent sign and two hexadecimal digits. -/
private def readTagByte (c : Cursor) : Except Place (UInt8 × Cursor) :=
  let digit? := fun d : Char ↦ "0123456789abcdef".toList.idxOf? d.toLower
  match c.rest with
  | '%' :: a :: b :: _ =>
    match digit? a, digit? b with
    | some a, some b => .ok (UInt8.ofNat (16 * a + b), c.skips 3)
    | _, _ => c.fail
  | _ => c.fail

/-- Reads the further bytes of a character. -/
private def readTagBytes : Nat → Cursor → Except Place (List UInt8 × Cursor)
  | 0, c => .ok ([], c)
  | n + 1, c => do
    let (b, next) ← readTagByte c
    if b &&& 0xC0 != 0x80 then c.fail
    else
      let (bs, next) ← readTagBytes n next
      return (b :: bs, next)

/-- Reads a character that is written byte by byte. -/
private def readTagEscape (c : Cursor) : Except Place (List Char × Cursor) := do
  let (b, next) ← readTagByte c
  let further? : Option Nat :=
    if b < 0x80 then some 0
    else if b &&& 0xE0 == 0xC0 then some 1
    else if b &&& 0xF0 == 0xE0 then some 2
    else if b &&& 0xF8 == 0xF0 then some 3
    else none
  match further? with
  | none => c.fail
  | some n =>
    let (bs, next) ← readTagBytes n next
    match String.fromUTF8? (ByteArray.mk (b :: bs).toArray) with
    | some s => return (s.toList, next)
    | none => next.fail

/-- Reads the characters of a tag. -/
private def readTagChars (full : Bool) : Nat → Reversed → Cursor →
    Except Place (Reversed × Cursor)
  | 0, read, c => .ok (read, c)
  | fuel + 1, read, c =>
    match c.peek? with
    | none => .ok (read, c)
    | some d =>
      if d = '%' then do
        let (cs, next) ← readTagEscape c
        readTagChars full fuel (cs.reverse ++ read) next
      else if isTagChar full d then readTagChars full fuel (d :: read) c.skip
      else .ok (read, c)

/-- Reads the characters of a tag, of which there is at least one if `start` is empty. -/
private def readTagText (full : Bool) (start : String) (c : Cursor) :
    Except Place (String × Cursor) := do
  let (read, next) ← readTagChars full (c.rest.length + 1) [] c
  if read = [] ∧ start = "" then next.fail
  else return (String.ofList (start.toList.drop 1 ++ read.reverse), next)

/-- Reads the handle of a tag: an exclamation mark, a name and maybe a second mark. -/
private def readHandle (c : Cursor) : Except Place (String × Cursor) :=
  if c.peek? ≠ some '!' then c.fail
  else
    let (name, next) := c.skip.span isNameChar
    if next.peek? = some '!' then .ok ("!" ++ String.ofList name ++ "!", next.skip)
    else .ok ("!" ++ String.ofList name, next)

/-- Reads a tag before a node. -/
def readTag (inFlow : Bool) (c : Cursor) : Except Place (Token × Cursor) := do
  let (t, next) ←
    if c.skip.peek? = some '<' then do
      let (suffix, next) ← readTagText true "" (c.skips 2)
      if next.peek? = some '>' then .ok (Token.tag "" suffix, next.skip) else next.fail
    else do
      let (handle, next) ← readHandle c
      if 1 < handle.length ∧ handle.toList.getLast? = some '!' then do
        let (suffix, next) ← readTagText false "" next
        .ok (Token.tag handle suffix, next)
      else do
        let (suffix, next) ← readTagText false handle next
        .ok (if suffix = "" then Token.tag "" "!" else Token.tag "!" suffix, next)
  if atBlankOrEnd next.rest ∨ (inFlow ∧ next.peek? = some ',') then .ok (t, next) else next.fail

/-- Reads a number of a version, of at most nine digits. -/
private def readVersionNumber (c : Cursor) : Except Place (Nat × Cursor) :=
  let (ds, next) := c.span Char.isDigit
  if ds = [] ∨ 9 < ds.length then (c.skips (min 9 ds.length)).fail
  else .ok (ds.foldl (fun n d ↦ 10 * n + (d.toNat - '0'.toNat)) 0, next)

/-- Reads a directive, whose percent sign is here. -/
def readDirective (c : Cursor) : Except Place (Token × Cursor) := do
  let (name, c) := c.skip.span isNameChar
  if !atBlankOrEnd c.rest then c.fail
  else
    let (t, c) ←
      match String.ofList name with
      | "YAML" => do
        let (major, c) ← readVersionNumber (c.skipWhile isSpaceOrTab)
        if c.peek? ≠ some '.' then c.fail
        else
          let (minor, c) ← readVersionNumber c.skip
          .ok (Token.version major minor, c)
      | "TAG" => do
        let (handle, c) ← readHandle (c.skipWhile isSpaceOrTab)
        if handle ≠ "!" ∧ handle.toList.getLast? ≠ some '!' then c.fail
        else if !c.peek?.any isSpaceOrTab then c.fail
        else
          let (stem, c) ← readTagText true "" (c.skipWhile isSpaceOrTab)
          if atBlankOrEnd c.rest then .ok (Token.tagHandle handle stem, c) else c.fail
      | _ => c.fail
    let c := c.skipComment
    if atBreakOrEnd c.rest then .ok (t, c.skipBreak) else c.fail

/-- Reads an anchor or an alias, whose mark is here. -/
def readName (c : Cursor) : Except Place (String × Cursor) :=
  let (name, next) := c.skip.span isNameChar
  let ends := atBlankOrEnd next.rest || next.peek?.any ("?:,]\x7d%@`".toList.contains ·)
  if name = [] ∨ ¬ ends then next.fail else .ok (String.ofList name, next)

/-- Whether a plain scalar may begin here. -/
def atPlain (inFlow : Bool) (cs : List Char) : Bool :=
  match cs with
  | [] => false
  | c :: r =>
    (!(atBlankOrEnd cs) && !("-?:,[]\x7b\x7d#&*!|>'\"%@`".toList.contains c)) ||
      (c == '-' && !r.head?.any isSpaceOrTab) ||
      (!inFlow && (c == '?' || c == ':') && !atBlankOrEnd r)

/-- Adds a token after which a key may stand or not. -/
def indicator (n : Nat) (t : Token) (keyAllowed : Bool) (s : Lexing) : Lexing :=
  { s.emitHere n t with keyAllowed := keyAllowed }

/-- Reads the mark of an entry of a block sequence. -/
def blockEntry (s : Lexing) : Except Place Lexing :=
  if ¬ s.inFlow ∧ ¬ s.keyAllowed then s.cursor.fail
  else do
    let s ← (s.openBlock none .blockSequenceStart).dropCandidate
    return s.indicator 1 .blockEntry true

/-- Reads the mark of an explicit key. -/
def explicitKey (s : Lexing) : Except Place Lexing :=
  if ¬ s.inFlow ∧ ¬ s.keyAllowed then s.cursor.fail
  else do
    let s ← (s.openBlock none .blockMappingStart).dropCandidate
    return s.indicator 1 .key (!s.inFlow)

/-- Reads the mark of a value; a candidate before it becomes a key. -/
def value (s : Lexing) : Except Place Lexing :=
  match s.candidate with
  | some k =>
    let s := (s.emitBefore k .key).openBlock (some k) .blockMappingStart
    .ok ((s.setCandidate none).indicator 1 .value false)
  | none =>
    if ¬ s.inFlow ∧ ¬ s.keyAllowed then s.cursor.fail
    else .ok ((s.openBlock none .blockMappingStart).indicator 1 .value (!s.inFlow))

/-- Reads the opening bracket of a flow collection. -/
def openFlow (t : Token) (s : Lexing) : Except Place Lexing := do
  let s ← s.saveCandidate
  return { s with candidates := none :: s.candidates }.indicator 1 t true

/-- Reads the closing bracket of a flow collection. -/
def closeFlow (t : Token) (s : Lexing) : Except Place Lexing := do
  let s ← s.dropCandidate
  let s := if s.inFlow then { s with candidates := s.candidates.tail } else s
  return s.indicator 1 t false

/-- Reads a mark that ends all blocks, or the end of the text. -/
def unindented (s : Lexing) : Except Place Lexing := do
  let s ← (s.closeBlocks (-1)).dropCandidate
  return { s with keyAllowed := false }

/-- Adds a token that may be a key and has been read up to a place. -/
def keyToken (s : Lexing) (read : Except Place (Token × Cursor)) : Except Place Lexing := do
  let s ← s.saveCandidate
  let (t, c) ← read
  return { s.emit t with cursor := c, keyAllowed := false }

/-- Reads a block scalar. -/
def block (literal : Bool) (s : Lexing) : Except Place Lexing := do
  let s ← s.dropCandidate
  let (text, c) ← readBlock literal s.indent s.cursor
  return { s.emit (.scalar text false) with cursor := c, keyAllowed := true }

/-- Reads a quoted scalar. -/
def quoted (single : Bool) (s : Lexing) : Except Place Lexing :=
  s.keyToken ((readQuoted single s.cursor).map fun (text, c) ↦ (.scalar text false, c))

/-- Reads a plain scalar. -/
def plain (s : Lexing) : Except Place Lexing := do
  let s ← s.saveCandidate
  let (text, c, broken) ← readPlain s.inFlow (s.indent + 1).toNat s.cursor
  return { s.emit (.scalar text true) with cursor := c, keyAllowed := broken }

/-- Reads the token at a place. -/
def token (s : Lexing) : Except Place Lexing :=
  let c := s.cursor
  let after := c.rest.drop 1
  match c.peek? with
  | none => (unindented { s with cursor := c.closed }).map (·.emit .textEnd)
  | some d =>
    if c.column = 0 ∧ d = '%' then do
      let s ← s.unindented
      let (t, c) ← readDirective c
      return { s.emit t with cursor := c }
    else if c.atMarker '-' then s.unindented.map (·.emitHere 3 .documentStart)
    else if c.atMarker '.' then s.unindented.map (·.emitHere 3 .documentEnd)
    else if d = '[' then s.openFlow .flowSequenceStart
    else if d = '\x7b' then s.openFlow .flowMappingStart
    else if d = ']' then s.closeFlow .flowSequenceEnd
    else if d = '\x7d' then s.closeFlow .flowMappingEnd
    else if d = ',' then s.dropCandidate.map (·.indicator 1 .flowEntry true)
    else if d = '-' ∧ atBlankOrEnd after then s.blockEntry
    else if d = '?' ∧ (s.inFlow ∨ atBlankOrEnd after) then s.explicitKey
    else if d = ':' ∧ (s.inFlow ∨ atBlankOrEnd after) then s.value
    else if d = '*' then s.keyToken ((readName c).map fun (n, c) ↦ (.reference n, c))
    else if d = '&' then s.keyToken ((readName c).map fun (n, c) ↦ (.anchor n, c))
    else if d = '!' then s.keyToken (readTag s.inFlow c)
    else if d = '|' ∧ ¬ s.inFlow then s.block true
    else if d = '>' ∧ ¬ s.inFlow then s.block false
    else if d = '\'' then s.quoted true
    else if d = '"' then s.quoted false
    else if atPlain s.inFlow c.rest then s.plain
    else c.fail

/-- Reads the next token. -/
def next (s : Lexing) : Except Place Lexing := do
  let s ← (s.skipToToken (s.cursor.rest.length + 1)).dropStale
  (← (s.closeBlocks s.cursor.column).token).dropStale

/-- The tokens of a text that has no reading from a place on. -/
def unreadable (stop : Place) (s : Lexing) : Tokens :=
  let undecided := (s.candidates.filterMap id).map (·.number)
  ⟨s.tokens.reverse.take (undecided.foldl min s.count), stop⟩

/-- Reads all tokens up to the end of the text. -/
def run : Nat → Lexing → Tokens
  | 0, s => s.unreadable s.cursor.place
  | fuel + 1, s =>
    match s.next with
    | .error stop => s.unreadable stop
    | .ok s =>
      if s.tokens.head?.any (·.1 == .textEnd) then ⟨s.tokens.reverse, s.cursor.place⟩
      else run fuel s

end Lexing

/-- The tokens of a text. A text with a character that no text may hold has none. -/
def Tokens.ofText (cs : List Char) : Tokens :=
  if cs.all isAllowed then Lexing.run (cs.length + 2) (.start cs) else ⟨[], ⟨0, 0⟩⟩

end PipingAssembly.Yaml
