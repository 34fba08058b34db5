import PipingAssembly.Arithmetic.Power

/-!
# Decoding UTF-8

Bytes are read character by character. Where they do not form a character, the longest run that
begins one is taken together.
-/

namespace PipingAssembly.Text

/-- Whether a byte continues a character. -/
def isContinuation (b : UInt8) : Bool := 0x80 ≤ b && b ≤ 0xBF

/-- How many bytes the character with a first byte has, and the range of its second byte. -/
def leadByte? (b : UInt8) : Option (Nat × UInt8 × UInt8) :=
  if 0xC2 ≤ b ∧ b ≤ 0xDF then some (2, 0x80, 0xBF)
  else if b = 0xE0 then some (3, 0xA0, 0xBF)
  else if b = 0xED then some (3, 0x80, 0x9F)
  else if 0xE1 ≤ b ∧ b ≤ 0xEF then some (3, 0x80, 0xBF)
  else if b = 0xF0 then some (4, 0x90, 0xBF)
  else if b = 0xF4 then some (4, 0x80, 0x8F)
  else if 0xF1 ≤ b ∧ b ≤ 0xF3 then some (4, 0x80, 0xBF)
  else none

/-- What stands at the beginning of some bytes: a character, or so many bytes that are none. -/
inductive Decoded where
  | char (c : Char) (length : Nat)
  | invalid (length : Nat)
  deriving DecidableEq, Repr

/-- The character of its bytes, of which the first carries `7 - length` bits. -/
def assemble (length : Nat) (first : UInt8) (further : List UInt8) : Char :=
  let start := first.toNat % pow2 (7 - length)
  Char.ofNat (further.foldl (fun n b ↦ n * 64 + b.toNat % 64) start)

/-- Reads the character at the beginning of some bytes. -/
def decodeFirst (first : UInt8) (rest : List UInt8) : Decoded :=
  if first < 0x80 then .char (Char.ofNat first.toNat) 1
  else
    match leadByte? first with
    | none => .invalid 1
    | some (length, low, high) =>
      match rest with
      | [] => .invalid 1
      | second :: more =>
        if second < low ∨ high < second then .invalid 1
        else
          let further := (more.take (length - 2)).takeWhile isContinuation
          if further.length = length - 2 then
            .char (assemble length first (second :: further)) length
          else .invalid (2 + further.length)

/-- Reads bytes as text and puts a replacement character for what is no text. -/
def decodeFrom : Nat → List UInt8 → List Char
  | 0, _ => []
  | _, [] => []
  | fuel + 1, b :: bs =>
    match decodeFirst b bs with
    | .char c n => c :: decodeFrom fuel (bs.drop (n - 1))
    | .invalid n => '\uFFFD' :: decodeFrom fuel (bs.drop (n - 1))

/-- The text of some bytes, with a replacement character for what is no text. -/
def decodeLossy (bs : List UInt8) : String := String.ofList (decodeFrom bs.length bs)

/-- Reads bytes as text up to the first that are none, whose index is then given. -/
def validateFrom : Nat → Nat → List UInt8 → Option Nat
  | 0, _, _ => none
  | _, _, [] => none
  | fuel + 1, index, b :: bs =>
    match decodeFirst b bs with
    | .char _ n => validateFrom fuel (index + n) (bs.drop (n - 1))
    | .invalid _ => some index

/-- The index of the first byte that begins no character, if there is one. -/
def invalidIndex? (bs : List UInt8) : Option Nat := validateFrom bs.length 0 bs

/-- The text of some bytes, if they are text throughout. -/
def decode? (bs : List UInt8) : Option String :=
  if (invalidIndex? bs).isNone then some (decodeLossy bs) else none

/-- The bytes of a text. -/
def encode (s : String) : List UInt8 := s.toUTF8.toList

end PipingAssembly.Text
