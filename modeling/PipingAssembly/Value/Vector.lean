import PipingAssembly.Geometry.Vector
import PipingAssembly.Value.Reading

/-!
# Vectors in documents

A vector is a list of exactly three numbers.
-/

namespace PipingAssembly.Vec3

/-- Reads a vector. -/
def ofValue? (v : Value) : Option (Vec3 Float) :=
  match v.asList? with
  | some [x, y, z] => do
    let x ← x.asFloat?
    let y ← y.asFloat?
    let z ← z.asFloat?
    some ⟨x, y, z⟩
  | _ => none

/-- The value of a vector. -/
def toValue (v : Vec3 Float) : Value := .list (v.toList.map .real)

end PipingAssembly.Vec3
