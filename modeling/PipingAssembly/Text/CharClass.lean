/-!
# Classes of characters

A class of characters is a list of code points at which membership changes, in ascending order.
-/

namespace PipingAssembly.Text

/-- A class of characters, given by the code points at which membership changes. -/
structure CharClass where
  boundaries : List Nat

/-- A character belongs to a class when an odd number of boundaries are at or below it. -/
def CharClass.contains (k : CharClass) (c : Char) : Bool :=
  (k.boundaries.takeWhile (· ≤ c.toNat)).length % 2 == 1

end PipingAssembly.Text
