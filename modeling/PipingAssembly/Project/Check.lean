import PipingAssembly.Project.Basic
import PipingAssembly.Schema.Validation

/-!
# Checking catalog files

A catalog file has to fit the schema of its kind. Beyond that no id may be declared twice, and no
band of distances may be reversed.
-/

namespace PipingAssembly

/-- What is wrong with a file that fits its schema, or that cannot be read. -/
inductive Issue where
  | notText
  | duplicatePart (id first : String)
  | duplicateRule (id first : String)
  | reversedRange (min max : Float)

/-- The text of an issue. -/
def Issue.message : Issue → String
  | notText => "stream did not contain valid UTF-8"
  | duplicatePart id first => "duplicate part_id '" ++ id ++ "' (also in " ++ first ++ ")"
  | duplicateRule id first => "duplicate rule_id '" ++ id ++ "' (also in " ++ first ++ ")"
  | reversedRange min max =>
    "distance_range min (" ++ Decimal.plainText min ++ ") is greater than max (" ++
      Decimal.plainText max ++ ")"

/-- What is found out about a file. -/
inductive Verdict where
  /-- it is in no directory of records -/
  | notRecord
  | passed
  /-- it does not fit its schema -/
  | refused (content : String) (refusal : Refusal)
  | faulty (issues : List Issue)

namespace Verdict

/-- How many errors a verdict counts. -/
def errorCount : Verdict → Nat
  | notRecord => 0
  | passed => 0
  | refused _ refusal => refusal.count
  | faulty issues => issues.length

/-- Whether a file fails. -/
def isFailure : Verdict → Bool
  | refused .. => true
  | faulty _ => true
  | _ => false

/-- Whether a file counts as checked. -/
def isChecked : Verdict → Bool
  | notRecord => false
  | _ => true

end Verdict

/-- The ids that have been declared, each with the last file that did so. -/
structure DeclaredIds where
  parts : List (String × String) := []
  rules : List (String × String) := []
  deriving DecidableEq, Repr, Inhabited

/-- The issues of a document that fits its schema, and the ids declared after it. -/
def issuesOf (kind : RecordKind) (path content : String) (declared : DeclaredIds) :
    List Issue × DeclaredIds :=
  let v := Yaml.readRecord? content
  match kind with
  | .part =>
    match v.bind Part.ofValue? with
    | none => ([], declared)
    | some p =>
      ((declared.parts.lookup p.id).toList.map (.duplicatePart p.id),
        { declared with parts := (p.id, path) :: declared.parts })
  | .rule =>
    match v.bind Rule.ofValue? with
    | none => ([], declared)
    | some r =>
      let reversed :=
        match r.condition with
        | .distanceRange min max => if max < min then [.reversedRange min max] else []
        | _ => []
      ((declared.rules.lookup r.id).toList.map (.duplicateRule r.id) ++ reversed,
        { declared with rules := (r.id, path) :: declared.rules })

/-- The verdict on the file at a path, and the ids declared after it. -/
def checkFile (w : Workspace) (declared : DeclaredIds) (path : String) : Verdict × DeclaredIds :=
  match RecordKind.ofPath? (PathText.names path) with
  | none => (.notRecord, declared)
  | some kind =>
    match (w.bytes? path).bind Text.decode? with
    | none => (.faulty [.notText], declared)
    | some content =>
      match validate content kind with
      | .error refusal => (.refused content refusal, declared)
      | .ok () =>
        match issuesOf kind path content declared with
        | ([], declared) => (.passed, declared)
        | (issues, declared) => (.faulty issues, declared)

/-- The verdicts on files in order, up to the first that fails unless told to keep going. -/
def checkFiles (w : Workspace) (keepGoing : Bool) :
    DeclaredIds → List String → List (String × Verdict)
  | _, [] => []
  | declared, path :: paths =>
    let (verdict, declared) := checkFile w declared path
    if verdict.isFailure && !keepGoing then [(path, verdict)]
    else (path, verdict) :: checkFiles w keepGoing declared paths

/-- The files that a path stands for: those below it if it is a directory, else itself. -/
def filesOf (w : Workspace) (path : String) : List String :=
  match w.files.existing? w.here path with
  | none => []
  | some place =>
    if w.files.isDirectory place then
      (w.files.yamlFiles place).map fun q ↦
        PathText.join path ("/".intercalate (q.drop place.length))
    else [path]

/-- The files that paths stand for, in the order of paths. -/
def expandPaths (w : Workspace) (paths : List String) : List String :=
  (paths.flatMap (filesOf w)).mergeSort PathText.precedes

/-- The counts of a check. -/
structure CheckSummary where
  checked : Nat
  passed : Nat
  failed : Nat
  errors : Nat
  deriving DecidableEq, Repr

/-- The counts of some verdicts. -/
def CheckSummary.of (verdicts : List (String × Verdict)) : CheckSummary :=
  let vs := verdicts.map (·.2)
  let failed := vs.countP (·.isFailure)
  let checked := vs.countP (·.isChecked)
  ⟨checked, checked - failed, failed, total (vs.map (·.errorCount))⟩

end PipingAssembly
