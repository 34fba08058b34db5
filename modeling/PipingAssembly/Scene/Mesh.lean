import PipingAssembly.Decimal.Fixed
import PipingAssembly.Decimal.Single
import PipingAssembly.Value.Reading

/-!
# Meshes of parts
-/

namespace PipingAssembly

/-- Vertices and normals of a part, three coordinates each. -/
structure Mesh where
  vertices : List Float32
  normals : List Float32 := []
  deriving Inhabited

/-- What is wrong with the buffers of a mesh. -/
inductive MeshFault where
  | noVertices
  | incompleteVertex (length : Nat)
  | normalCount (normals vertices : Nat)
  deriving DecidableEq, Repr

/-- The text of what is wrong with a mesh. -/
def MeshFault.message : MeshFault → String
  | noVertices => "no vertices"
  | incompleteVertex length =>
    "vertex buffer length " ++ Decimal.natText length ++ " is not a multiple of 3"
  | normalCount normals vertices =>
    Decimal.natText normals ++ " normals for " ++ Decimal.natText vertices ++ " vertices"

/-- Why a source has no mesh to give. -/
inductive MeshError where
  | unreadable (path : String)
  /-- the file holds no mesh document -/
  | undecodable (path : String)
  | malformed (path reason : String)
  deriving DecidableEq, Repr

/-- The text of the reason why there is no mesh. -/
def MeshError.message : MeshError → String
  | unreadable path => "cannot read " ++ path
  | undecodable path => "malformed mesh " ++ path ++ ": not a mesh document"
  | malformed path reason => "malformed mesh " ++ path ++ ": " ++ reason

/-- Supplies the mesh of a part, nothing, or a reason why it fails. -/
abbrev MeshSource := String → Except MeshError (Option Mesh)

namespace Mesh

/-- How many vertices a mesh has. -/
def vertexCount (m : Mesh) : Nat := m.vertices.length / 3

/-- What is wrong with a mesh: it needs whole vertices and as many normals, or none. -/
def fault? (m : Mesh) : Option MeshFault :=
  if m.vertices = [] then some .noVertices
  else if m.vertices.length % 3 ≠ 0 then some (.incompleteVertex m.vertices.length)
  else if m.normals ≠ [] ∧ m.normals.length ≠ m.vertices.length then
    some (.normalCount (m.normals.length / 3) (m.vertices.length / 3))
  else none

/-- The number in single precision that is nearest to a whole number of at most 64 bits. -/
private def singleOfInt (n : Int) : Float32 :=
  if n < 0 then -(UInt64.ofNat n.natAbs).toFloat32 else (UInt64.ofNat n.natAbs).toFloat32

/-- Reads a number in single precision. -/
private def singleOfValue? (v : Value) : Option Float32 :=
  match v with
  | .int n => some (singleOfInt n)
  | v => v.asFloat?.map Float.toFloat32

/-- Reads a mesh. -/
def ofValue? (v : Value) : Option Mesh := do
  let fields ← v.asRecord? ["vertices", "normals"]
  let vertices ← fields.required? "vertices" (Value.asListOf? singleOfValue?)
  let normals ← fields.withDefault? "normals" [] (Value.asListOf? singleOfValue?)
  some { vertices, normals }

/-- The value of a mesh. -/
def toValue (m : Mesh) : Value :=
  .object [("vertices", .list (m.vertices.map fun x ↦ .real x.toFloat)),
    ("normals", .list (m.normals.map fun x ↦ .real x.toFloat))]

end Mesh

end PipingAssembly
