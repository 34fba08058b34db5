import PipingAssembly.Exchange.Entity
import PipingAssembly.Geometry.Vector

/-!
# Assemblies in exchange files

An assembly has products, points, directions, placement frames and usages. A usage places a child
product in a parent; product and frame are found over chains of linking entities. A reference that
leads nowhere leaves what it would give unset.
-/

namespace PipingAssembly.Exchange

/-- A product of a file. -/
structure Product where
  id : EntityId
  /-- the identifier that the file gives -/
  productId : String
  name : String
  deriving Inhabited

/-- An axis placement with the vectors it refers to. -/
structure Frame where
  id : EntityId
  locationRef : Option EntityId
  axisRef : Option EntityId
  refDirectionRef : Option EntityId
  origin : Option (Vec3 Float)
  z : Option (Vec3 Float)
  x : Option (Vec3 Float)
  deriving Inhabited

/-- The use of a child product in a parent. -/
structure Usage where
  id : EntityId
  occurrence : String
  parentProduct : Option EntityId
  childProduct : Option EntityId
  /-- the frame of the child in the parent -/
  placement : Option EntityId
  deriving Inhabited

/-- What a file holds. -/
inductive FileKind where
  | assembly
  | part
  deriving DecidableEq, Repr

/-- The name of a kind of file. -/
def FileKind.name : FileKind → String
  | assembly => "assembly"
  | part => "part"

/-- The content of a file, all in the order of entity numbers. -/
structure Assembly where
  products : List Product
  points : List (EntityId × Vec3 Float)
  directions : List (EntityId × Vec3 Float)
  frames : List Frame
  usages : List Usage
  entityCount : Nat
  deriving Inhabited

namespace Assembly

/-- A file with usages or several products is an assembly. -/
def kind (a : Assembly) : FileKind :=
  if a.usages.isEmpty && a.products.length ≤ 1 then .part else .assembly

/-- Whether a file has no products. -/
def isEmpty (a : Assembly) : Bool := a.products.isEmpty

/-- The product with a number. -/
def product? (a : Assembly) (id : EntityId) : Option Product := a.products.find? (·.id == id)

/-- The frame with a number. -/
def frame? (a : Assembly) (id : EntityId) : Option Frame := a.frames.find? (·.id == id)

end Assembly

/-- The first parameter that is a list. -/
def firstList? : List Param → Option (List Param)
  | [] => none
  | .list items :: _ => some items
  | _ :: ps => firstList? ps

/-- The vector of the numbers in the first list among the parameters; what is missing is zero. -/
def coordinates? (ps : List Param) : Option (Vec3 Float) :=
  match (firstList? ps).map (·.filterMap Param.number?) with
  | none => none
  | some [] => none
  | some (x :: rest) => some ⟨x, rest[0]?.getD 0, rest[1]?.getD 0⟩

/-- The product of an entity; without a name of its own it has that of its identifier. -/
def Product.ofEntity? (e : Entity) : Option Product :=
  if e.kind ≠ "PRODUCT" then none
  else
    let productId := (e.params[0]?.bind Param.text?).getD ""
    let named := (e.params[1]?.bind Param.text?).filter fun s ↦ Text.trim s ≠ ""
    some { id := e.id, productId, name := named.getD productId }

/-- The vectors of the entities of a kind. -/
def vectorsOf (kind : String) (es : List Entity) : List (EntityId × Vec3 Float) :=
  es.filterMap fun e ↦ if e.kind = kind then (coordinates? e.params).map (e.id, ·) else none

/-- The frame of an entity. -/
def Frame.ofEntity? (points directions : List (EntityId × Vec3 Float)) (e : Entity) :
    Option Frame :=
  if e.kind ≠ "AXIS2_PLACEMENT_3D" then none
  else
    let ref := fun i : Nat ↦ e.params[i]?.bind Param.reference?
    some
      { id := e.id, locationRef := ref 1, axisRef := ref 2, refDirectionRef := ref 3
        origin := (ref 1).bind fun r ↦ points.lookup r
        z := (ref 2).bind fun r ↦ directions.lookup r
        x := (ref 3).bind fun r ↦ directions.lookup r }

/-- The product that a definition leads to, over its formation. -/
def productOf? (es : List Entity) (definition : EntityId) : Option EntityId := do
  let d ← findEntity? es definition
  if d.kind ≠ "PRODUCT_DEFINITION" then none
  else
    let formation ← findEntity? es (← d.references[0]?)
    if !"PRODUCT_DEFINITION_FORMATION".toList.isPrefixOf formation.kind.toList then none
    else
      let product ← findEntity? es (← formation.references[0]?)
      if product.kind = "PRODUCT" then some product.id else none

/-- The first shape that describes a definition or a usage. -/
def shapeOf? (es : List Entity) (definition : EntityId) : Option EntityId :=
  (es.find? fun e ↦
    e.kind == "PRODUCT_DEFINITION_SHAPE" && e.references[0]? == some definition).map (·.id)

/-- The relationship that the first representation in the context of a shape names. -/
def relationshipOf? (es : List Entity) (shape : EntityId) : Option EntityId :=
  (es.find? fun e ↦
    e.kind == "CONTEXT_DEPENDENT_SHAPE_REPRESENTATION" &&
      e.references[1]? == some shape).bind (·.references[0]?)

/-- The frame of a usage: over its shape, the relationship in the context of that shape and the
transformation of the relationship, whose second item it is. -/
def usageFrame? (es : List Entity) (usage : EntityId) : Option EntityId := do
  let shape ← shapeOf? es usage
  let relationship ← findEntity? es (← relationshipOf? es shape)
  let ps ← relationship.part? "REPRESENTATION_RELATIONSHIP_WITH_TRANSFORMATION"
  let transformation ← findEntity? es (← ps.findSome? Param.reference?)
  if transformation.kind ≠ "ITEM_DEFINED_TRANSFORMATION" then none
  else
    let item ← findEntity? es (← transformation.references[1]?)
    if item.kind = "AXIS2_PLACEMENT_3D" then some item.id else none

/-- The usage of an entity. -/
def Usage.ofEntity? (es : List Entity) (e : Entity) : Option Usage :=
  if e.kind ≠ "NEXT_ASSEMBLY_USAGE_OCCURRENCE" then none
  else some
    { id := e.id
      occurrence := (e.params[0]?.bind Param.text?).getD ""
      parentProduct := e.references[0]?.bind (productOf? es)
      childProduct := e.references[1]?.bind (productOf? es)
      placement := usageFrame? es e.id }

/-- The assembly of some entities in the order of their numbers. -/
def Assembly.ofEntities (es : List Entity) : Assembly :=
  let points := vectorsOf "CARTESIAN_POINT" es
  let directions := vectorsOf "DIRECTION" es
  { products := es.filterMap Product.ofEntity?
    points, directions
    frames := es.filterMap (Frame.ofEntity? points directions)
    usages := es.filterMap (Usage.ofEntity? es)
    entityCount := es.length }

/-- The assembly of a file. -/
def Assembly.read (s : String) : Assembly := .ofEntities (readEntities s)

end PipingAssembly.Exchange
