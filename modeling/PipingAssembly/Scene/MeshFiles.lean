import PipingAssembly.Json.Reader
import PipingAssembly.Scene.Mesh
import PipingAssembly.Workspace.Basic

/-!
# Files of meshes

A directory may hold a mesh for each part, in a file named after the id of the part.
-/

namespace PipingAssembly

/-- The path of the mesh of a part in a directory. -/
def meshPath (dir partId : String) : String := PathText.join dir (fileStem partId ++ ".mesh.json")

/-- The mesh of a part in a directory of a workspace. A file that is there has to hold one. -/
def meshFiles (w : Workspace) (dir : String) : MeshSource := fun partId ↦
  let path := meshPath dir partId
  match w.find? path with
  | none => .ok none
  | some e =>
    match e.content?.bind (·.text?) with
    | none => .error (.unreadable path)
    | some s =>
      match (Json.read? s).bind Mesh.ofValue? with
      | none => .error (.undecodable path)
      | some m =>
        match m.fault? with
        | some fault => .error (.malformed path fault.message)
        | none => .ok (some m)

end PipingAssembly
