import PipingAssembly.Import.Row
import PipingAssembly.Project.Basic

/-!
# Importing parts

Every part of a text of comma separated values is written to a file of its own. A file that is there
already is kept unless the import is forced, and a dry run only tells what would be written.
-/

namespace PipingAssembly

/-- How parts are imported. -/
structure ImportOptions where
  /-- tell what would be written and write nothing -/
  dryRun : Bool := false
  /-- go on after a record that is no part -/
  skipErrors : Bool := false
  /-- write over files that are there already -/
  force : Bool := false
  deriving DecidableEq, Repr, Inhabited

/-- The counts of an import. -/
structure ImportStats where
  rows : Nat := 0
  created : Nat := 0
  updated : Nat := 0
  skipped : Nat := 0
  errors : Nat := 0
  deriving DecidableEq, Repr, Inhabited

/-- Why an import stops. -/
inductive ImportError where
  | headerNotText (e : Delimited.NotText)
  | noIdColumn (header : List String)
  | row (number : Nat) (fault : RowFault)
  | file (fault : FileFault)
  deriving DecidableEq, Repr

/-- The text of the reason why an import stops. -/
def ImportError.message : ImportError → String
  | headerNotText e => e.message
  | noIdColumn header =>
    "CSV header must contain a part_id column (found: " ++ ",".intercalate header ++ ")"
  | row number fault =>
    "Import failed at row " ++ Decimal.natText number ++ ": " ++ fault.message
  | file (.unreachable path) => "cannot reach " ++ path

/-- How far an import has come. -/
structure ImportProgress where
  files : Files
  stats : ImportStats := {}
  /-- the files that a dry run would have written -/
  announced : List Path := []
  /-- the records that were no parts, with their line numbers -/
  rejected : List (Nat × RowFault) := []
  deriving Inhabited

namespace ImportProgress

/-- Counts a part whose file is there now, or would be. -/
def countWritten (p : ImportProgress) (existed : Bool) : ImportProgress :=
  if existed then { p with stats := { p.stats with updated := p.stats.updated + 1 } }
  else { p with stats := { p.stats with created := p.stats.created + 1 } }

/-- The progress after the file of a part has been written, or announced. -/
def put (p : ImportProgress) (project : Project) (options : ImportOptions) (part : Part) :
    Except FileFault ImportProgress :=
  let path := project.partPath part.id
  let existed := p.files.contains path
  if existed && !options.force then
    .ok { p with stats := { p.stats with skipped := p.stats.skipped + 1 } }
  else if options.dryRun then
    .ok ({ p with announced := p.announced ++ [path] }.countWritten existed)
  else do
    let files ← p.files.writeWithin path (.text (Yaml.render part.toValue))
    return { p with files }.countWritten existed

/-- The progress after a record that is no part. -/
def reject (p : ImportProgress) (number : Nat) (fault : RowFault) : ImportProgress :=
  { p with
    stats := { p.stats with errors := p.stats.errors + 1 }
    rejected := p.rejected ++ [(number, fault)] }

/-- The progress after one more record has been looked at. -/
def countRow (p : ImportProgress) : ImportProgress :=
  { p with stats := { p.stats with rows := p.stats.rows + 1 } }

end ImportProgress

/-- Imports records up to the first that stops the import. -/
def importRecords (project : Project) (options : ImportOptions) (columns : Columns) :
    ImportProgress → List Delimited.Record → ImportProgress × Option ImportError
  | p, [] => (p, none)
  | p, r :: rs =>
    let number := r.index + 1
    match partOfRecord columns r with
    | .error fault =>
      let p := p.countRow.reject number fault
      if options.skipErrors then importRecords project options columns p rs
      else (p, some (.row number fault))
    | .ok part =>
      match p.countRow.put project options part with
      | .ok p => importRecords project options columns p rs
      | .error fault => (p.countRow, some (.file fault))

/-- Imports the parts of a text of comma separated values into a project. -/
def importParts (project : Project) (options : ImportOptions) (files : Files) (bs : List UInt8) :
    ImportProgress × Option ImportError :=
  let records := Delimited.read bs
  let start : ImportProgress := { files }
  match ((records.head?.map (·.header)).getD (.ok []) : Except Delimited.NotText (List String)) with
  | .error e => (start, some (.headerNotText e))
  | .ok header =>
    let columns := Columns.ofHeader header
    if (columns.lookup "part_id").isNone then (start, some (.noIdColumn header))
    else importRecords project options columns start records.tail

end PipingAssembly
