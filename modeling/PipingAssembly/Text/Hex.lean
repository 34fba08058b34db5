/-!
# Hexadecimal digits
-/

namespace PipingAssembly.Text

/-- The value of a hexadecimal digit in either letter case. -/
def hexDigit? (c : Char) : Option Nat :=
  if c.isDigit then some (c.toNat - '0'.toNat)
  else if 'a' ≤ c ∧ c ≤ 'f' then some (c.toNat - 'a'.toNat + 10)
  else if 'A' ≤ c ∧ c ≤ 'F' then some (c.toNat - 'A'.toNat + 10)
  else none

/-- Bytes as hexadecimal digits, two for each. -/
def hexText (bs : List UInt8) : String :=
  String.ofList (bs.flatMap fun b ↦ [Nat.digitChar (b.toNat / 16), Nat.digitChar (b.toNat % 16)])

/-- Reads bytes of two hexadecimal digits each. -/
def hexBytes? : List Char → Option (List UInt8)
  | [] => some []
  | a :: b :: cs => do
    let a ← hexDigit? a
    let b ← hexDigit? b
    return UInt8.ofNat (16 * a + b) :: (← hexBytes? cs)
  | _ => none

end PipingAssembly.Text
