import PipingAssembly.Text.Blank
import PipingAssembly.Text.LetterCase
import PipingAssembly.Text.Search

/-!
# Families of parts
-/

namespace PipingAssembly

/-- The family of a piping part. -/
inductive Family where
  | pipe
  | flange
  | valve
  | bolt
  | nut
  | gasket
  | other
  deriving DecidableEq, Repr, Inhabited

namespace Family

/-- The families in the order in which tables list them. -/
def all : List Family := [pipe, flange, valve, bolt, nut, gasket, other]

/-- The name of a family in documents and tables. -/
def name : Family → String
  | pipe => "pipe"
  | flange => "flange"
  | valve => "valve"
  | bolt => "bolt"
  | nut => "nut"
  | gasket => "gasket"
  | other => "other"

/-- The place of a family in the order of families. -/
def rank : Family → Nat
  | pipe => 0
  | flange => 1
  | valve => 2
  | bolt => 3
  | nut => 4
  | gasket => 5
  | other => 6

/-- The family with a name. -/
def ofName? (s : String) : Option Family := all.find? (·.name == s)

/-- The family that a document names; any unknown name stands for `other`. -/
def ofName (s : String) : Family := (ofName? s).getD other

/-- The family that a user names, in any letter case and with blanks around it; nothing stands for
`other`. -/
def parse? (s : String) : Option Family :=
  let word := Text.lower (Text.trim s)
  if word = "" then some other else ofName? word

/-- What is said of a text that names no family. -/
def invalidMessage (s : String) : String :=
  "Invalid family: " ++ s ++ ". Use pipe, flange, valve, bolt, nut, gasket, or other"

/-- The words that tell the family of a product, in the order in which they are looked for. -/
def keywords : List (Family × List String) :=
  [(bolt, ["BOLT", "SCREW", "STUD"]), (nut, ["NUT"]), (gasket, ["GASKET", "SEAL"]),
   (flange, ["FLANGE"]), (valve, ["VALVE"]), (pipe, ["PIPE", "TUBE"])]

/-- The family that the words of a product name suggest. -/
def infer (product : String) : Family :=
  let upper := Text.upper product
  ((keywords.find? fun k ↦ k.2.any (Text.contains upper)).map (·.1)).getD other

end Family

end PipingAssembly
