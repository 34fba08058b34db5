import PipingAssembly.Files.Path

/-!
# File trees

A tree holds directories and files by their places. The entries are listed in the order of places,
so a directory stands right before what is below it and neighbours are in the order of names.
-/

namespace PipingAssembly

/-- What stands at a place of a tree. -/
inductive FileEntry (α : Type) where
  | directory
  | file (content : α)
  deriving DecidableEq, Repr, Inhabited

namespace FileEntry

variable {α : Type}

/-- The content of a file. -/
def content? : FileEntry α → Option α
  | directory => none
  | file content => some content

/-- Whether an entry is a directory. -/
def isDirectory : FileEntry α → Bool
  | directory => true
  | file _ => false

end FileEntry

/-- The operating system does not do what was asked: there is no such place, or something else
stands there. -/
inductive FileFault where
  | unreachable (path : String)
  deriving DecidableEq, Repr

/-- Directories and files by their places; the top is always a directory. -/
structure FileTree (α : Type) where
  entries : List (Path × FileEntry α) := []
  deriving DecidableEq, Repr, Inhabited

namespace FileTree

variable {α : Type}

/-- What stands at a place. -/
def entry? (t : FileTree α) (p : Path) : Option (FileEntry α) :=
  if p = [] then some .directory else t.entries.lookup p

/-- Whether something stands at a place. -/
def contains (t : FileTree α) (p : Path) : Bool := (t.entry? p).isSome

/-- Whether a directory stands at a place. -/
def isDirectory (t : FileTree α) (p : Path) : Bool := (t.entry? p).any (·.isDirectory)

/-- The content of the file at a place. -/
def content? (t : FileTree α) (p : Path) : Option α := (t.entry? p).bind (·.content?)

/-- Puts an entry at a place of a list in order; what stood there is replaced. -/
def insertEntry (p : Path) (e : FileEntry α) :
    List (Path × FileEntry α) → List (Path × FileEntry α)
  | [] => [(p, e)]
  | (q, f) :: rest =>
    if p = q then (p, e) :: rest
    else if p < q then (p, e) :: (q, f) :: rest
    else (q, f) :: insertEntry p e rest

/-- The tree with an entry at a place. -/
def insert (t : FileTree α) (p : Path) (e : FileEntry α) : FileTree α :=
  ⟨insertEntry p e t.entries⟩

/-- The tree without a place and all that is below it. -/
def erase (t : FileTree α) (p : Path) : FileTree α :=
  ⟨t.entries.filter fun (e : Path × FileEntry α) ↦ !p.isPrefixOf e.1⟩

/-- The entries at a place and below it, in order. -/
def within (t : FileTree α) (p : Path) : List (Path × FileEntry α) :=
  t.entries.filter fun (e : Path × FileEntry α) ↦ p.isPrefixOf e.1

/-- Goes down by a name from a directory, which is made if there is nothing yet. -/
def enter (t : FileTree α) (p : Path) (name : String) : Except FileFault (FileTree α) :=
  match t.entry? (p ++ [name]) with
  | some .directory => .ok t
  | some (.file _) => .error (.unreachable (Path.text (p ++ [name])))
  | none => .ok (t.insert (p ++ [name]) .directory)

/-- The tree with all directories on the way down from a directory. -/
def createFrom (t : FileTree α) (p : Path) : List String → Except FileFault (FileTree α)
  | [] => .ok t
  | name :: rest => do createFrom (← t.enter p name) (p ++ [name]) rest

/-- The tree with a directory at a place and at every place above it. -/
def createDirectories (t : FileTree α) (p : Path) : Except FileFault (FileTree α) :=
  t.createFrom [] p

/-- The tree with a file at a place, whose directory must be there. -/
def write (t : FileTree α) (p : Path) (content : α) : Except FileFault (FileTree α) :=
  if p = [] ∨ t.isDirectory p ∨ !t.isDirectory p.dropLast then .error (.unreachable p.text)
  else .ok (t.insert p (.file content))

/-- The tree with a file at a place and directories at every place above it. -/
def writeWithin (t : FileTree α) (p : Path) (content : α) : Except FileFault (FileTree α) := do
  (← t.createDirectories p.dropLast).write p content

/-- The place at which the parts of a text end, from a place on. The way there leads through
directories only. -/
def follow? (t : FileTree α) : Path → List String → Option Path
  | p, [] => some p
  | p, part :: rest =>
    if !t.isDirectory p then none
    else if part == "" || part == "." then t.follow? p rest
    else if part == ".." then t.follow? p.dropLast rest
    else t.follow? (p ++ [part]) rest

/-- The place that a text names for a user who stands at a directory. -/
def locate? (t : FileTree α) (here : Path) (s : String) : Option Path :=
  if s == "" then none
  else t.follow? (if PathText.isAbsolute s then [] else here) (PathText.parts s)

/-- What stands where a text leads. -/
def find? (t : FileTree α) (here : Path) (s : String) : Option (FileEntry α) :=
  (t.locate? here s).bind t.entry?

/-- The place of what stands where a text leads. -/
def existing? (t : FileTree α) (here : Path) (s : String) : Option Path :=
  (t.locate? here s).filter t.contains

/-- The tree with a file where a text leads. -/
def writeAt (t : FileTree α) (here : Path) (s : String) (content : α) :
    Except FileFault (FileTree α) :=
  match t.locate? here s with
  | some p => t.write p content
  | none => .error (.unreachable s)

/-- The tree with all directories on the way of a text. -/
def createParts (t : FileTree α) : Path → List String → Except FileFault (FileTree α)
  | _, [] => .ok t
  | p, part :: rest =>
    if part == "" || part == "." then t.createParts p rest
    else if part == ".." then t.createParts p.dropLast rest
    else do createParts (← t.enter p part) (p ++ [part]) rest

/-- The tree with a directory where a text leads, and on the way there. -/
def createAt (t : FileTree α) (here : Path) (s : String) : Except FileFault (FileTree α) :=
  t.createParts (if PathText.isAbsolute s then [] else here) (PathText.parts s)

/-- The places of the YAML files at a place and below it, in order. -/
def yamlFiles (t : FileTree α) (p : Path) : List Path :=
  (t.within p).filterMap fun (q, e) ↦
    if !e.isDirectory && q.getLast?.any isYamlName then some q else none

end FileTree

end PipingAssembly
