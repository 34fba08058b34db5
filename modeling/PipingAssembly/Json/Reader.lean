import PipingAssembly.Json.Number
import PipingAssembly.Text.Hex

/-!
# Reading JSON texts

A text holds one value. Objects keep their fields in the order of the text, also when a key occurs
twice; values nest at most 127 deep.
-/

namespace PipingAssembly.Json

/-- Drops the white space before the next token. -/
def skipBlanks (cs : List Char) : List Char :=
  cs.dropWhile fun c ↦ c == ' ' || c == '\n' || c == '\t' || c == '\r'

/-- Four hexadecimal digits and what follows them. -/
def hexUnit? : List Char → Option (Nat × List Char)
  | a :: b :: c :: d :: cs => do
    let a ← Text.hexDigit? a
    let b ← Text.hexDigit? b
    let c ← Text.hexDigit? c
    let d ← Text.hexDigit? d
    some (((a * 16 + b) * 16 + c) * 16 + d, cs)
  | _ => none

/-- The character after the letter `u` of an escape, which may be a pair of units. -/
def readUnicode? (cs : List Char) : Option (Char × List Char) := do
  let (hi, rest) ← hexUnit? cs
  if hi < 0xD800 ∨ 0xDFFF < hi then some (Char.ofNat hi, rest)
  else if 0xDC00 ≤ hi then none
  else
    match rest with
    | '\\' :: 'u' :: rest =>
      let (lo, rest) ← hexUnit? rest
      if 0xDC00 ≤ lo ∧ lo ≤ 0xDFFF then
        some (Char.ofNat (0x10000 + (hi - 0xD800) * 0x400 + (lo - 0xDC00)), rest)
      else none
    | _ => none

/-- The characters that a letter after a backslash stands for. -/
def escapeLetters : List (Char × Char) :=
  [('"', '"'), ('\\', '\\'), ('/', '/'), ('b', '\x08'), ('f', '\x0c'), ('n', '\n'), ('r', '\r'),
   ('t', '\t')]

/-- Reads the rest of a string whose opening quote has been read; `read` holds the characters so
far, the last one first. -/
def readString? : Nat → List Char → List Char → Option (String × List Char)
  | 0, _, _ => none
  | _, _, [] => none
  | _, read, '"' :: cs => some (String.ofList read.reverse, cs)
  | fuel + 1, read, '\\' :: 'u' :: cs => do
    let (c, rest) ← readUnicode? cs
    readString? fuel (c :: read) rest
  | fuel + 1, read, '\\' :: c :: cs => do
    let c ← escapeLetters.lookup c
    readString? fuel (c :: read) cs
  | fuel + 1, read, c :: cs =>
    if c = '\\' ∨ c.toNat < 0x20 then none else readString? fuel (c :: read) cs

mutual

/-- Reads a value. -/
def readValue? : Nat → Nat → List Char → Option (Value × List Char)
  | 0, _, _ => none
  | fuel + 1, depth, cs =>
    match skipBlanks cs with
    | 'n' :: 'u' :: 'l' :: 'l' :: r => some (.null, r)
    | 't' :: 'r' :: 'u' :: 'e' :: r => some (.bool true, r)
    | 'f' :: 'a' :: 'l' :: 's' :: 'e' :: r => some (.bool false, r)
    | '"' :: r => (readString? (r.length + 1) [] r).map fun (s, r) ↦ (.text s, r)
    | '[' :: r =>
      match depth with
      | 0 => none
      | depth + 1 =>
        match skipBlanks r with
        | ']' :: r => some (.list [], r)
        | r => (readItems? fuel depth [] r).map fun (items, r) ↦ (.list items, r)
    | '\x7b' :: r =>
      match depth with
      | 0 => none
      | depth + 1 =>
        match skipBlanks r with
        | '\x7d' :: r => some (.object [], r)
        | r => (readFields? fuel depth [] r).map fun (fields, r) ↦ (.object fields, r)
    | r => readNumber? r

/-- Reads the items of a list up to its closing bracket. -/
def readItems? : Nat → Nat → List Value → List Char → Option (List Value × List Char)
  | 0, _, _, _ => none
  | fuel + 1, depth, read, cs => do
    let (v, r) ← readValue? fuel depth cs
    match skipBlanks r with
    | ',' :: r => readItems? fuel depth (v :: read) r
    | ']' :: r => some ((v :: read).reverse, r)
    | _ => none

/-- Reads the fields of an object up to its closing brace. -/
def readFields? :
    Nat → Nat → List (String × Value) → List Char → Option (List (String × Value) × List Char)
  | 0, _, _, _ => none
  | fuel + 1, depth, read, cs =>
    match skipBlanks cs with
    | '"' :: r => do
      let (key, r) ← readString? (r.length + 1) [] r
      match skipBlanks r with
      | ':' :: r =>
        let (v, r) ← readValue? fuel depth r
        match skipBlanks r with
        | ',' :: r => readFields? fuel depth ((key, v) :: read) r
        | '\x7d' :: r => some (((key, v) :: read).reverse, r)
        | _ => none
      | _ => none
    | _ => none

end

/-- Reads a text that holds one value and nothing else but white space. -/
def read? (s : String) : Option Value :=
  let cs := s.toList
  match readValue? (2 * cs.length + 2) 127 cs with
  | some (v, rest) => if skipBlanks rest = [] then some v else none
  | none => none

end PipingAssembly.Json
