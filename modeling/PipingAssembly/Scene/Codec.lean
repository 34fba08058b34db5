import PipingAssembly.Scene.Export

/-!
# Scenes in documents

Numbers in single precision are written with `single`.
-/

namespace PipingAssembly

open Value (optionalField)

/-- The value of a geometry. -/
def Geometry.toValue (single : Float32 → Float) : Geometry → Value
  | box uuid width height depth =>
    .object [("type", .text "BoxGeometry"), ("uuid", .text uuid), ("width", .real width),
      ("height", .real height), ("depth", .real depth)]
  | cylinder uuid radius height =>
    .object [("type", .text "CylinderGeometry"), ("uuid", .text uuid), ("radiusTop", .real radius),
      ("radiusBottom", .real radius), ("height", .real height), ("radialSegments", .int 32)]
  | mesh uuid m =>
    .object [("type", .text "BufferGeometry"), ("uuid", .text uuid),
      ("vertices", .list (m.vertices.map fun x ↦ .real (single x))),
      ("normals", .list (m.normals.map fun x ↦ .real (single x)))]

/-- The value of a material. -/
def Material.toValue (m : Material) : Value :=
  .object [("uuid", .text m.uuid), ("type", .text "MeshStandardMaterial"), ("color", .text m.color),
    ("metalness", .real 0.5), ("roughness", .real 0.5)]

/-- The value of an object. -/
def SceneObject.toValue (o : SceneObject) : Value :=
  .object [("uuid", .text o.uuid), ("name", .text o.name), ("part_id", .text o.partId),
    ("geometry", .text o.geometry), ("material", .text o.material),
    ("matrix", .list (o.matrix.map .real)),
    ("user_data", .object <|
      [("family", .text o.family.name), ("fallback", .bool o.fallback)] ++
      optionalField "role" (fun r ↦ .text r.name) o.role ++
      optionalField "connection_id" .text o.connectionId)]

/-- The value of a scene. -/
def Scene.toValue (single : Float32 → Float) (s : Scene) : Value :=
  .object
    [("metadata", .object [("version", .text "1.0"), ("generator", .text "tasm 0.1.0"),
       ("name", .text s.name), ("object_count", .int s.objects.length)]),
     ("geometries", .list (s.geometries.map fun g ↦ g.2.toValue single)),
     ("materials", .list (s.materials.map fun m ↦ m.2.toValue)),
     ("objects", .list (s.objects.map SceneObject.toValue))]

end PipingAssembly
