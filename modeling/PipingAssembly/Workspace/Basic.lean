import PipingAssembly.Config.Basic
import PipingAssembly.Files.Tree
import PipingAssembly.Store.Database
import PipingAssembly.Yaml.Document

/-!
# Workspaces

What a command finds around it: the files, the settings of the user, and the time.
-/

namespace PipingAssembly

/-- What a file holds. -/
inductive FileContent where
  | bytes (bs : List UInt8)
  | database (d : Database)
  deriving DecidableEq, Repr, Inhabited

namespace FileContent

/-- A file with a text. -/
def text (s : String) : FileContent := .bytes (Text.encode s)

/-- The bytes of a file; of a database they are its mark. -/
def toBytes : FileContent → List UInt8
  | bytes bs => bs
  | database _ => Text.encode "SQLite format 3" ++ [0]

/-- The text of a file whose bytes are one. -/
def text? (c : FileContent) : Option String := Text.decode? c.toBytes

end FileContent

/-- The files that commands work on. -/
abbrev Files := FileTree FileContent

/-- The settings of a user outside of projects. -/
structure Settings where
  /-- the content of the user's own configuration file -/
  globalConfig : Option (List UInt8) := none
  /-- the variable that names a store -/
  store : Option String := none
  /-- the variable that names a directory of meshes -/
  meshDir : Option String := none
  deriving DecidableEq, Repr, Inhabited

/-- What a command finds around it. -/
structure Workspace where
  files : Files
  /-- the directory in which the user stands -/
  here : Path := []
  settings : Settings := {}
  /-- the text of the present time -/
  now : String := ""
  deriving Inhabited

namespace Workspace

/-- What a text names. -/
def find? (w : Workspace) (s : String) : Option (FileEntry FileContent) := w.files.find? w.here s

/-- The bytes of the file that a text names. -/
def bytes? (w : Workspace) (s : String) : Option (List UInt8) :=
  ((w.find? s).bind (·.content?)).map FileContent.toBytes

end Workspace

namespace Config

/-- Reads the configuration in a file. A file that cannot be read says nothing. -/
def ofBytes? (bs : List UInt8) : Option Config := do
  let content ← Text.decode? bs
  if isBlankDocument content then some {} else (Yaml.readRecord? content).bind ofValue?

/-- The configuration that variables choose; an unknown store is passed over. -/
def ofSettings (s : Settings) : Config where
  store := s.store.bind StoreBackend.parse?
  meshDir := s.meshDir

/-- The configuration of a user and of a project, whose file is given if there is one: the project's
choices go before the user's own file, and the variables before both. -/
def layered (settings : Settings) (projectFile : Option (List UInt8)) : Config :=
  let user := (settings.globalConfig.bind ofBytes?).getD {}
  let project := (projectFile.bind ofBytes?).getD {}
  (user.merge project).merge (ofSettings settings)

end Config

end PipingAssembly
