import PipingAssembly.Text.Search

/-!
# Paths

Users name files by texts with slashes between the names. Such a text keeps its spelling, as it is
shown again, and is compared by its steps. The place of a file in a tree is the list of names from
the top of the tree.
-/

namespace PipingAssembly

/-- The names that lead from the top of a file tree to a place in it. -/
abbrev Path := List String

namespace Path

/-- The text of a place. -/
def text (p : Path) : String := "/" ++ "/".intercalate p

end Path

namespace PathText

/-- The parts of a text between slashes. -/
def parts (s : String) : List String :=
  (Text.splitWhere (· == '/') s.toList).map String.ofList

/-- Whether a text leads from the top of the tree and not from where its user stands. -/
def isAbsolute (s : String) : Bool := s.toList.head? == some '/'

/-- A text followed from the place that another one names. -/
def join (base s : String) : String :=
  if isAbsolute s || base == "" then s
  else if base.toList.getLast? == some '/' then base ++ s
  else base ++ "/" ++ s

/-- A step of a path. -/
inductive Step where
  | top
  | here
  | up
  | down (name : String)
  deriving DecidableEq, Repr

namespace Step

/-- The step of a part that follows other steps; where a text stands still is told only at its
beginning. -/
def ofPart? (isFirst : Bool) (part : String) : Option Step :=
  if part == "" then none
  else if part == "." then if isFirst then some .here else none
  else if part == ".." then some .up
  else some (.down part)

/-- The rank of a step among steps of other kinds. -/
def rank : Step → Nat
  | top => 0
  | here => 1
  | up => 2
  | down _ => 3

/-- The order of steps: by kind, then by name. -/
def compare (s t : Step) : Ordering :=
  match s, t with
  | down a, down b => Ord.compare a b
  | s, t => Ord.compare s.rank t.rank

end Step

/-- The steps of a text. -/
def steps (s : String) : List Step :=
  match parts s with
  | [] => []
  | first :: rest =>
    let start := if isAbsolute s then [.top] else (Step.ofPart? true first).toList
    start ++ rest.filterMap (Step.ofPart? false)

/-- The order of paths, step by step. -/
def compareSteps : List Step → List Step → Ordering
  | [], [] => .eq
  | [], _ :: _ => .lt
  | _ :: _, [] => .gt
  | s :: ss, t :: ts => (s.compare t).then (compareSteps ss ts)

/-- Whether a text stands before another one in a sorted list of paths, or beside it. -/
def precedes (s t : String) : Bool := compareSteps (steps s) (steps t) != .gt

/-- The names that the steps of a text go down. -/
def names (s : String) : List String :=
  (steps s).map fun step ↦
    match step with
    | .down name => name
    | _ => ""

/-- The name of the file that a text names: that of its last step, if it goes down. -/
def fileName? (s : String) : Option String :=
  match (steps s).getLast? with
  | some (.down name) => some name
  | _ => none

/-- A text as it is shown between quotes. -/
def quote (s : String) : String :=
  "\"" ++ String.ofList (s.toList.flatMap fun c ↦
    match c with
    | '"' => ['\\', '"']
    | '\\' => ['\\', '\\']
    | '\n' => ['\\', 'n']
    | '\r' => ['\\', 'r']
    | '\t' => ['\\', 't']
    | c =>
      if c < ' ' || c == '\x7f' then "\\u\x7b".toList ++ Nat.toDigits 16 c.toNat ++ ['\x7d']
      else [c]) ++ "\""

end PathText

/-- Whether a file of this name is taken for YAML. -/
def isYamlName (name : String) : Bool :=
  match (Text.splitWhere (· == '.') name.toList).reverse with
  | extension :: stem :: others =>
    (extension == "yaml".toList || extension == "yml".toList) && (stem != [] || others != [])
  | _ => false

/-- A text as the name of a file: what is awkward there becomes an underscore. -/
def fileStem (s : String) : String :=
  s.map fun c ↦
    if ['/', '\\', ':', '*', '?', '"', '<', '>', '|', ' '].contains c then '_' else c

end PipingAssembly
