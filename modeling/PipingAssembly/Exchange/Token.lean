import PipingAssembly.Decimal.Literal
import PipingAssembly.Text.Blank

/-!
# Tokens of exchange files

An exchange file is read character by character. The state between two characters holds the token
that has been begun; white space and comments stand between tokens and belong to none.
-/

namespace PipingAssembly.Exchange

/-- The number of an entity in a file. -/
abbrev EntityId := UInt64

/-- A token of an exchange file. -/
inductive Token where
  | reference (id : EntityId)
  | word (s : String)
  | text (s : String)
  | number (x : Float)
  /-- an enumeration literal, without its dots -/
  | enumeration (s : String)
  /-- a dollar sign or an asterisk -/
  | omitted
  | openParen
  | closeParen
  | comma
  | equals
  | semicolon
  /-- anything that is no token of its own -/
  | other

/-- The token that has been begun, with its characters so far, the last one first. -/
inductive LexState where
  | between
  | slash
  /-- inside a comment; `star` tells that the last character was an asterisk -/
  | comment (star : Bool)
  | reference (digits : List Char)
  | text (read : List Char)
  /-- after a quote inside a text, which ends the text unless a second one follows -/
  | textQuote (read : List Char)
  | dot
  | enumeration (read : List Char)
  | number (read : List Char)
  | word (read : List Char)

/-- Whether a character may go on a name. -/
def isNameChar (c : Char) : Bool := c.isAlphanum || c == '_'

/-- The token of a number sign with digits. -/
def referenceToken (digits : List Char) : Token :=
  match Decimal.readNat? digits.reverse with
  | some n => if n < pow2 64 then .reference (UInt64.ofNat n) else .other
  | none => .other

/-- The token of the characters of a number. -/
def numberToken (read : List Char) : Token :=
  match Decimal.readFloat? read.reverse with
  | some x => .number x
  | none => .other

/-- Whether a character goes on a number whose characters have been read so far. -/
def continuesNumber (read : List Char) (c : Char) : Bool :=
  c.isDigit || c == '.' || c == 'E' || c == 'e' ||
    ((c == '-' || c == '+') && (read.head? == some 'E' || read.head? == some 'e'))

/-- The tokens that a character between tokens ends, and the state after it. -/
def LexState.begin (c : Char) : List Token × LexState :=
  if Text.isBlank c then ([], .between)
  else if c = '/' then ([], .slash)
  else if c = '#' then ([], .reference [])
  else if c = '\'' then ([], .text [])
  else if c = '.' then ([], .dot)
  else if c.isDigit ∨ c = '-' ∨ c = '+' then ([], .number [c])
  else if c.isAlpha ∨ c = '_' then ([], .word [c])
  else if c = '$' ∨ c = '*' then ([.omitted], .between)
  else if c = '(' then ([.openParen], .between)
  else if c = ')' then ([.closeParen], .between)
  else if c = ',' then ([.comma], .between)
  else if c = '=' then ([.equals], .between)
  else if c = ';' then ([.semicolon], .between)
  else ([.other], .between)

/-- The tokens at the end of the file. -/
def LexState.finish : LexState → List Token
  | between => []
  | slash => [.other]
  | comment _ => []
  | reference digits => [referenceToken digits]
  | text read => [.text (String.ofList read.reverse)]
  | textQuote read => [.text (String.ofList read.reverse)]
  | dot => [.other]
  | enumeration read => [.enumeration (String.ofList read.reverse)]
  | number read => [numberToken read]
  | word read => [.word (String.ofList read.reverse)]

/-- Ends the token that has been begun before a character that does not belong to it. -/
def LexState.endBefore (s : LexState) (c : Char) : List Token × LexState :=
  let (ts, next) := LexState.begin c
  (s.finish ++ ts, next)

/-- The tokens that a character ends, and the state after it. -/
def LexState.step (s : LexState) (c : Char) : List Token × LexState :=
  match s with
  | between => begin c
  | slash => if c = '*' then ([], comment false) else s.endBefore c
  | comment star => if star ∧ c = '/' then ([], between) else ([], comment (c == '*'))
  | reference digits => if c.isDigit then ([], reference (c :: digits)) else s.endBefore c
  | text read => if c = '\'' then ([], textQuote read) else ([], text (c :: read))
  | textQuote read => if c = '\'' then ([], text (c :: read)) else s.endBefore c
  | dot =>
    if c.isAlpha then ([], enumeration [c])
    else if continuesNumber ['.'] c then ([], number [c, '.'])
    else s.endBefore c
  | enumeration read =>
    if isNameChar c then ([], enumeration (c :: read))
    else if c = '.' then (s.finish, between)
    else s.endBefore c
  | number read => if continuesNumber read c then ([], number (c :: read)) else s.endBefore c
  | word read => if isNameChar c then ([], word (c :: read)) else s.endBefore c

/-- The tokens of what is left of a file. -/
def LexState.run : LexState → List Char → List Token
  | s, [] => s.finish
  | s, c :: cs => (s.step c).1 ++ run (s.step c).2 cs

/-- The tokens of a file. -/
def tokens (cs : List Char) : List Token := LexState.between.run cs

end PipingAssembly.Exchange
