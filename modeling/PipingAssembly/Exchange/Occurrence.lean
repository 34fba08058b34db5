import PipingAssembly.Decimal.Fixed
import PipingAssembly.Exchange.Assembly
import PipingAssembly.Instance.Basic

/-!
# Instances of an exchange file

With usages a file gives an instance for each of them. Without usages its products are paired with
its frames, both in the order of entity numbers.
-/

namespace PipingAssembly.Exchange

/-- The degrees of an angle in radians. -/
def degrees (x : Float) : Float := x * (180 / pi)

/-- The rotation of a frame in degrees: the third axis gives pitch and yaw, the first one roll. An
axis that is not given is that of the whole assembly. -/
def frameRotation (z x : Option (Vec3 Float)) : Vec3 Float :=
  let z := z.getD .unitZ
  let x := x.getD .unitX
  let pitch := Float.atan2 z.y z.z
  let yaw := Float.atan2 (-z.x) (z.y * z.y + z.z * z.z).sqrt
  let roll := Float.atan2 x.y x.x
  ⟨degrees pitch, degrees yaw, degrees roll⟩

/-- A named occurrence in a file, with its frame. -/
structure Occurrence where
  name : String
  frame : Option Frame

/-- The occurrences of an assembly in order. -/
def Assembly.occurrences (a : Assembly) : List Occurrence :=
  if a.usages.isEmpty then a.products.mapIdx fun i p ↦ ⟨p.name, a.frames[i]?⟩
  else a.usages.filterMap fun u ↦
    let name := ((u.childProduct.bind a.product?).map (·.name)).getD u.occurrence
    if name = "" then none else some ⟨name, u.placement.bind a.frame?⟩

/-- The instance of an occurrence, which is the `n`-th one of its name. -/
def Occurrence.toInstance (o : Occurrence) (n : Nat) : Instance :=
  let i := { Instance.ofPart (.ofProduct o.name) with id := o.name ++ "#" ++ Decimal.natText n }
  match o.frame with
  | none => i
  | some f =>
    { i with
      pose := ⟨f.origin.getD .zero, frameRotation f.z f.x⟩, zDirection := f.z, xDirection := f.x }

/-- The instances of occurrences that follow others, whose names are given. -/
def numberOccurrences : List String → List Occurrence → List Instance
  | _, [] => []
  | before, o :: os =>
    o.toInstance (before.count o.name + 1) :: numberOccurrences (o.name :: before) os

/-- The instances of an assembly. -/
def Assembly.instances (a : Assembly) : List Instance := numberOccurrences [] a.occurrences

end PipingAssembly.Exchange
