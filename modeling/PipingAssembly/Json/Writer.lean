import PipingAssembly.Decimal.Shortest
import PipingAssembly.Value.Basic

/-!
# Writing JSON texts

Values are written either on one line or with one field or item a line, indented by two blanks a
level. A number that is not finite is written as `null`.
-/

namespace PipingAssembly.Json

/-- The hexadecimal digits of a code below 256. -/
def hexPair (n : Nat) : List Char :=
  [Nat.digitChar (n / 16), Nat.digitChar (n % 16)]

/-- A character as it stands between quotes. -/
def quoteChar (c : Char) : List Char :=
  match c with
  | '"' => ['\\', '"']
  | '\\' => ['\\', '\\']
  | '\x08' => ['\\', 'b']
  | '\x0c' => ['\\', 'f']
  | '\n' => ['\\', 'n']
  | '\r' => ['\\', 'r']
  | '\t' => ['\\', 't']
  | c => if c.toNat < 0x20 then ['\\', 'u', '0', '0'] ++ hexPair c.toNat else [c]

/-- A text between quotes. -/
def quote (s : String) : String :=
  "\"" ++ String.ofList (s.toList.flatMap quoteChar) ++ "\""

/-- The text of a number. -/
def realText (x : Float) : String :=
  match Decimal.FloatValue.ofFloat x with
  | .finite negative m e => Decimal.pointedText negative m e
  | _ => "null"

mutual

/-- The text of a value on one line. -/
def compact : Value → String
  | .null => "null"
  | .bool b => if b then "true" else "false"
  | .int n => toString n
  | .real x => realText x
  | .text s => quote s
  | .plain s => quote s
  | .list items => "[" ++ compactItems items ++ "]"
  | .openList items => "[" ++ compactItems items ++ "]"
  | .object fields => "\x7b" ++ compactFields fields ++ "\x7d"
  | .tagged tag v => "\x7b" ++ quote tag ++ ":" ++ compact v ++ "\x7d"
  | .keyedByNodes => "null"

/-- The texts of items, with commas between them. -/
def compactItems : List Value → String
  | [] => ""
  | [v] => compact v
  | v :: vs => compact v ++ "," ++ compactItems vs

/-- The texts of fields, with commas between them. -/
def compactFields : List (String × Value) → String
  | [] => ""
  | [(key, v)] => quote key ++ ":" ++ compact v
  | (key, v) :: rest => quote key ++ ":" ++ compact v ++ "," ++ compactFields rest

end

/-- The line break and the blanks before a line at a level. -/
def indent (level : Nat) : String :=
  "\n" ++ String.ofList (List.replicate (2 * level) ' ')

mutual

/-- The text of a value that stands at a level, one field or item a line. -/
def prettyAt (level : Nat) : Value → String
  | .list [] => "[]"
  | .list items => "[" ++ prettyItems (level + 1) items ++ indent level ++ "]"
  | .openList [] => "[]"
  | .openList items => "[" ++ prettyItems (level + 1) items ++ indent level ++ "]"
  | .object [] => "\x7b\x7d"
  | .object fields => "\x7b" ++ prettyFields (level + 1) fields ++ indent level ++ "\x7d"
  | .null => "null"
  | .bool b => if b then "true" else "false"
  | .int n => toString n
  | .real x => realText x
  | .text s => quote s
  | .plain s => quote s
  | .tagged tag v => "\x7b" ++ quote tag ++ ": " ++ prettyAt level v ++ "\x7d"
  | .keyedByNodes => "null"

/-- The lines of items at a level, with commas between them. -/
def prettyItems (level : Nat) : List Value → String
  | [] => ""
  | [v] => indent level ++ prettyAt level v
  | v :: vs => indent level ++ prettyAt level v ++ "," ++ prettyItems level vs

/-- The lines of fields at a level, with commas between them. -/
def prettyFields (level : Nat) : List (String × Value) → String
  | [] => ""
  | [(key, v)] => indent level ++ quote key ++ ": " ++ prettyAt level v
  | (key, v) :: rest =>
    indent level ++ quote key ++ ": " ++ prettyAt level v ++ "," ++ prettyFields level rest

end

/-- The text of a value with one field or item a line. -/
def pretty (v : Value) : String := prettyAt 0 v

end PipingAssembly.Json
