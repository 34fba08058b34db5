import PipingAssembly.Command.Basic
import PipingAssembly.Store.Codec
import Std.Time.Format

/-!
# The program

It reads what a call needs from the disk into a workspace, runs the call, writes back the files that
have changed, and prints the output.
-/

namespace PipingAssembly.Disk

/-- The content of a file by its name and its bytes. -/
def contentOf (name : String) (bs : List UInt8) : FileContent :=
  if name != "catalog.db" then .bytes bs
  else
    match (Text.decode? bs).bind Database.ofText? with
    | some d => .database d
    | none => .bytes bs

/-- The bytes of a file. -/
def bytesOf : FileContent → ByteArray
  | .bytes bs => ⟨bs.toArray⟩
  | .database d => d.toText.toUTF8

/-- Reads what stands at a place of the disk, and what is below it when asked for. -/
partial def read (deep : Bool) (files : Files) (place : Path) : IO Files := do
  let path := (← IO.currentDir) / place.text
  try
    if ← path.isDir then
      let files := files.insert place .directory
      if !deep then return files
      (← path.readDir).foldlM (fun files e ↦ read deep files (place ++ [e.fileName])) files
    else if ← path.pathExists then
      let bs ← IO.FS.readBinFile path
      return files.insert place (.file (contentOf (place.getLastD "") bs.toList))
    else return files
  catch _ => return files

/-- The place that a text names from a directory on, by its spelling alone. -/
def placeOf (here : Path) (s : String) : Path :=
  (PathText.parts s).foldl
    (fun p part ↦
      if part == "" || part == "." then p else if part == ".." then p.dropLast else p ++ [part])
    (if PathText.isAbsolute s then [] else here)

/-- Reads a place, the directories above it and the projects that these hold. -/
def readAround (deep : Bool) (files : Files) (place : Path) : IO Files := do
  let above := (List.range (place.length + 1)).map place.take
  let files ← above.foldlM (fun files p ↦ read false files p) files
  let files ← above.foldlM
    (fun files p ↦
      if p.isEmpty then pure files
      else do read true (← read true files (p ++ [".tasm"])) (p ++ ["catalog"]))
    files
  read deep files place

/-- The paths that a task reads or writes, each with whether it reads what is below it. -/
def pathsOf : Command.Task → List (String × Bool)
  | .setUp path _ => [(path, false)]
  | .parse file => [(file, true)]
  | .solve options =>
    (options.file.toList.map fun s ↦ (s, true)) ++ (options.scene.toList.map fun s ↦ (s, false)) ++
      options.meshDir.toList.map fun s ↦ (s, true)
  | .importParts file _ => [(file, true)]
  | .check options => options.paths.map fun s ↦ (s, true)
  | _ => []

/-- The settings of the user. -/
def settings : IO Settings := do
  let store ← IO.getEnv "TASM_STORE"
  let meshDir ← IO.getEnv "TASM_MESH_DIR"
  let base ←
    match ← IO.getEnv "XDG_CONFIG_HOME" with
    | some s => pure (some s)
    | none => pure ((← IO.getEnv "HOME").map (PathText.join · ".config"))
  let globalConfig ←
    match base with
    | none => pure none
    | some s =>
      try
        let path := (← IO.currentDir) / PathText.join s "tasm/config.yaml"
        pure (some (← IO.FS.readBinFile path).toList)
      catch _ => pure none
  return { globalConfig, store, meshDir }

/-- The text of the present time. -/
def now : IO String := do
  let time ← Std.Time.Timestamp.now
  return (Std.Time.DateTime.ofTimestamp time Std.Time.TimeZone.ZoneRules.UTC).toISO8601String

/-- The workspace for a call with arguments. -/
def workspace (arguments : List String) : IO Workspace := do
  let here := placeOf [] (← IO.currentDir).toString
  let settings ← settings
  let files ← readAround false {} here
  let w : Workspace := { files, here, settings, now := ← now }
  match Command.readTask arguments with
  | .error _ => return w
  | .ok (options, task) =>
    let named := (options.project.toList.map fun s ↦ (s, false)) ++ pathsOf task
    let files ← named.foldlM (fun files (s, deep) ↦ readAround deep files (placeOf here s)) files
    let start := options.project.getD here.text
    let p := (Project.discoverFrom files here start).toOption
    let config := Project.configuration { w with files } p
    let meshDir := p.bind fun p ↦ p.meshDir? config
    let files ←
      match meshDir with
      | some s => readAround true files (placeOf here s)
      | none => pure files
    return { w with files }

/-- Writes the entries of a tree that another one does not have. -/
def writeChanges (before after : Files) : IO Unit :=
  after.entries.forM fun (p, e) ↦ do
    if before.entry? p != some e then
      let path := (← IO.currentDir) / p.text
      match e with
      | .directory => IO.FS.createDirAll path
      | .file c => IO.FS.writeBinFile path (bytesOf c)

end PipingAssembly.Disk

open PipingAssembly in
/-- Runs the program. -/
def main (arguments : List String) : IO UInt32 := do
  let w ← Disk.workspace arguments
  let outcome := Command.run w arguments
  Disk.writeChanges w.files outcome.workspace.files
  IO.print (String.join (outcome.output.map Command.Output.toText))
  outcome.notes.forM fun s ↦ IO.eprintln s
  match outcome.ending with
  | .failed e => IO.eprintln ("Error: " ++ e.message)
  | .misused => IO.eprintln Command.helpText
  | .done => pure ()
  return UInt32.ofNat outcome.ending.exitCode
