import PipingAssembly.Command.Effect

/-!
# Commands that set up and look after a catalog

They set a project up, import parts and check the catalog files.
-/

namespace PipingAssembly.Command

open Effect

/-- What a new project has, with the marks of directories and files. -/
private def newEntries : List String :=
  ["📁 .tasm/", "📄 .tasm/config.yaml", "📁 catalog/parts/", "📁 catalog/rules/"]

/-- Sets a project up at a path. -/
def setUp (path : String) (force : Bool) : Effect Unit := do
  let w ← workspace
  let path := if path == "." then w.here.text else path
  if (w.files.existing? w.here path).isNone then
    setFiles (← ofExcept .file (w.files.createAt w.here path))
    printLine ("✓ Created directory " ++ path)
  let (files, result) := Project.init (← workspace).files w.here path force
  setFiles files
  match result with
  | .ok p =>
    printLine ("✓ Initialized tasm project at " ++ p.root.text)
    printLine ""
    printLine "Created project structure:"
    newEntries.forM fun e ↦ printLine ("  " ++ e)
    printLine ""
    printLine "Next steps:"
    printLine "  tasm parts list List the seed catalog"
    printLine "  tasm solve model.stp --scene scene.json Assemble a STEP file"
    printLine "  tasm validate Validate catalog records"
  | .error (.alreadyExists root) =>
    printLine ("! tasm project already exists at " ++ root.text)
    printLine ""
    printLine "Use tasm init --force to reinitialize"
  | .error e => throw (.project e)

/-- Imports parts from a file of comma separated values. -/
def importFile (o : CommonOptions) (path : String) (options : ImportOptions) : Effect Unit := do
  let p ← project o
  let w ← workspace
  let bs ← ofExcept .file <|
    match w.bytes? path with
    | some bs => Except.ok bs
    | none => .error (.unreachable path)
  let (progress, stopped) := importParts p options w.files bs
  setFiles progress.files
  progress.announced.forM fun path ↦ printLine ("→ " ++ path.text)
  progress.rejected.forM fun (number, fault) ↦
    note ("✗ Row " ++ Decimal.natText number ++ ": " ++ fault.message)
  if let some e := stopped then throw (.importing e)
  if !o.quiet then
    let n := Decimal.natText
    let stats := progress.stats
    printLine ("✓ " ++ (if options.dryRun then "Would import " else "Imported ") ++
      n (stats.created + stats.updated) ++ " part(s) from " ++ n stats.rows ++ " row(s)")
    if 0 < stats.updated then printLine ("  Updated: " ++ n stats.updated)
    if 0 < stats.skipped then
      printLine ("  Skipped: " ++ n stats.skipped ++
        " (already present, use --force to overwrite)")
    if 0 < stats.errors then printLine ("  Errors:  " ++ n stats.errors)

/-- Tells of the verdict on a file. -/
private def printVerdict (quiet summaryOnly : Bool) (path : String) (v : Verdict) :
    Effect Unit := do
  let failed := "✗ " ++ path ++ " - " ++ Decimal.natText v.errorCount ++ " error(s)"
  match v with
  | .notRecord =>
    if !summaryOnly && !quiet then
      printLine ("? " ++ path ++ " - not in a parts/ or rules/ directory (skipped)")
  | .passed => if !summaryOnly && !quiet then printLine ("✓ " ++ path)
  | .refused _ (.notYaml none) => throw .unplacedFault
  | .refused content refusal =>
    if !summaryOnly then
      printLine failed
      printViolations content refusal
  | .faulty issues =>
    if !summaryOnly then
      printLine failed
      issues.forM fun issue ↦ printLine ("    " ++ issue.message)

/-- Tells of the counts of a check. -/
private def printSummary (s : CheckSummary) : Effect Unit := do
  let n := Decimal.natText
  let rule := String.ofList (List.replicate 60 '─')
  printLine ""
  printLine rule
  printLine "Validation Summary"
  printLine rule
  printLine ("  Files checked:  " ++ n s.checked)
  printLine ("  Files passed:   " ++ n s.passed)
  printLine ("  Files failed:   " ++ n s.failed)
  printLine ("  Total errors:   " ++ n s.errors)
  printLine ""

/-- Tells of the verdicts on files and of their counts, and fails if a file does. -/
def reportVerdicts (quiet summaryOnly : Bool) (verdicts : List (String × Verdict)) :
    Effect Unit := do
  verdicts.forM fun (path, v) ↦ printVerdict quiet summaryOnly path v
  let summary := CheckSummary.of verdicts
  printSummary summary
  if 0 < summary.failed then throw (.filesFailed summary.failed)
  printLine "✓ All files passed validation!"

/-- The files to check: those that are given, or else all record files of the project. -/
def CheckOptions.targets (options : CheckOptions) (p : Project) (w : Workspace) : List String :=
  if options.paths.isEmpty then (p.sourceFiles w.files).map Path.text
  else expandPaths w options.paths

/-- Checks catalog files. -/
def checkCatalog (o : CommonOptions) (options : CheckOptions) : Effect Unit := do
  let p ← project o
  let w ← workspace
  let paths := options.targets p w
  if !o.quiet then
    printLine ("→ Validating " ++ Decimal.natText paths.length ++ " file(s)...")
    printLine ""
  reportVerdicts o.quiet options.summaryOnly (checkFiles w options.keepGoing {} paths)

end PipingAssembly.Command
