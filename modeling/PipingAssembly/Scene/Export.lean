import PipingAssembly.Fasteners.Basic
import PipingAssembly.Run.Warning
import PipingAssembly.Scene.Color
import PipingAssembly.Scene.Mesh

/-!
# Scenes

A scene has one object for each placed instance. Instances of one part share a geometry and a
material. Where there is no mesh, a primitive stands for the part.
-/

namespace PipingAssembly

/-- The shape of a part. -/
inductive Geometry where
  | box (uuid : String) (width height depth : Float)
  | cylinder (uuid : String) (radius height : Float)
  | mesh (uuid : String) (mesh : Mesh)
  deriving Inhabited

/-- The id of a geometry. -/
def Geometry.uuid : Geometry → String
  | box uuid .. => uuid
  | cylinder uuid .. => uuid
  | mesh uuid _ => uuid

/-- The look of a part. -/
structure Material where
  uuid : String
  color : String
  deriving Inhabited

/-- One placed instance. -/
structure SceneObject where
  uuid : String
  name : String
  partId : String
  /-- the ids of the geometry and the material -/
  geometry : String
  material : String
  matrix : List Float
  family : Family
  fallback : Bool
  role : Option Role
  connectionId : Option String
  deriving Inhabited

/-- A scene: shared geometries and materials in the order of part ids, and the objects. -/
structure Scene where
  name : String
  geometries : List (String × Geometry)
  materials : List (String × Material)
  objects : List SceneObject
  deriving Inhabited

/-- The primitive that stands for an instance; where the family tells nothing, the part id does. -/
def primitiveGeometry (uuid : String) (i : Instance) : Geometry :=
  let nominal := Float.ofNat (i.dn.getD 50).toNat
  match i.family with
  | .valve => .box uuid 150 100 100
  | .flange => .cylinder uuid nominal 20
  | .pipe => .cylinder uuid 25 100
  | .bolt => .cylinder uuid 8 60
  | .gasket => .cylinder uuid nominal 3
  | .nut | .other =>
    let id := Text.upper i.partId
    if Text.contains id "VALVE" then .box uuid 150 100 100
    else if Text.contains id "FLANGE" then .cylinder uuid 50 20
    else if Text.contains id "PIPE" then .cylinder uuid 25 100
    else .box uuid 50 50 50

/-- The geometry of an instance's part, and the warning if the source of meshes fails. -/
def partGeometry (meshes : Option MeshSource) (i : Instance) : Geometry × Option Warning :=
  let uuid := "geo-" ++ i.partId
  match meshes.map fun source : MeshSource ↦ source i.partId with
  | some (.ok (some m)) => (.mesh uuid m, none)
  | some (.error e) =>
    (primitiveGeometry uuid i, some (.geometryUnavailable i.partId e.message))
  | _ => (primitiveGeometry uuid i, none)

/-- The object of a placed instance. -/
def sceneObject (i : Instance) (p : Placement) : SceneObject where
  uuid := "obj-" ++ i.id
  name := i.id
  partId := i.partId
  geometry := "geo-" ++ i.partId
  material := "mat-" ++ i.partId
  matrix := p.transform
  family := i.family
  fallback := p.isFallback
  role := i.role
  connectionId := i.connectionId

/-- The first element of each part id. -/
def firstOfEachPart : List Instance → List Instance
  | [] => []
  | i :: is => i :: (firstOfEachPart is).filter (·.partId != i.partId)

/-- The scene of all placed instances, with a warning for each part whose mesh fails. -/
def exportScene (name : String) (instances : List Instance) (placements : List Placement)
    (meshes : Option MeshSource) : Scene × List Warning :=
  let placed := instances.filterMap fun i ↦ (findPlacement? placements i.id).map (i, ·)
  let shown := firstOfEachPart (placed.map (·.1))
  let scene : Scene :=
    { name
      geometries := sortEntries (shown.map fun i ↦ (i.partId, (partGeometry meshes i).1))
      materials := sortEntries (shown.map fun i ↦
        (i.partId, ⟨"mat-" ++ i.partId, partColor i.partId⟩))
      objects := placed.map fun (i, p) ↦ sceneObject i p }
  (scene, shown.filterMap fun i ↦ (partGeometry meshes i).2)

end PipingAssembly
