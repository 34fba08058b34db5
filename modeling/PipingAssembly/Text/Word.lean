import PipingAssembly.Text.Blank
import PipingAssembly.Text.WordTable

/-!
# Words and the numbers written in them
-/

namespace PipingAssembly.Text

/-- Whether a character can be part of a word. -/
def isWordChar (c : Char) : Bool :=
  if c.toNat < 128 then c.isAlphanum || c == '_' else wordChars.contains c

/-- Whether a character is a decimal digit of any script. -/
def isDecimalDigit (c : Char) : Bool :=
  if c.toNat < 128 then c.isDigit else decimalDigits.contains c

/-- The first answer that `read` gives at the start of a word, where `insideWord` says whether the
character before belongs to a word. A place is the start of a word when the characters on its two
sides differ in that. -/
def findAtWordStart {α : Type} (read : List Char → Option α) : Bool → List Char → Option α
  | _, [] => none
  | insideWord, c :: cs =>
    match if insideWord == isWordChar c then none else read (c :: cs) with
    | some a => some a
    | none => findAtWordStart read (isWordChar c) cs

end PipingAssembly.Text
