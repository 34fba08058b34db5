import PipingAssembly.Text.LetterCase

/-!
# Output formats
-/

namespace PipingAssembly

/-- The format of the output of a command. -/
inductive OutputFormat where
  | auto
  | yaml
  | json
  | tsv
  | csv
  | md
  | id
  deriving DecidableEq, Repr, Inhabited

namespace OutputFormat

/-- The formats with their names. -/
def names : List (String × OutputFormat) :=
  [("auto", auto), ("yaml", yaml), ("json", json), ("tsv", tsv), ("csv", csv), ("md", md),
   ("id", id)]

/-- The format with a name, in any case of ASCII letters. -/
def ofName? (s : String) : Option OutputFormat :=
  (names.find? fun n ↦ Text.equalIgnoringAsciiCase n.1 s).map (·.2)

/-- What is said of a text that names no format. -/
def invalidMessage (s : String) : String := "invalid variant: " ++ s

/-- Whether a format is for people and not for programs. -/
def isHuman (f : OutputFormat) : Bool := f == auto || f == md

end OutputFormat

end PipingAssembly
