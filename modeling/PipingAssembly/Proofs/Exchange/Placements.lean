import Mathlib.Data.List.Basic
import PipingAssembly.Exchange.Assembly
import PipingAssembly.Proofs.Exchange.Segments

/-!
# Frames of usages

Five entities lead from a usage to its frame: a shape of the usage, a representation in the context
of that shape, the relationship that the representation names, its transformation and the frame. A
usage has one shape and a shape one representation. Where there are several, the one with the
smallest number counts, also if it leads nowhere.
-/

namespace PipingAssembly.Exchange

namespace Entity

/-- The entity is a shape of a usage. -/
def IsShapeOf (e : Entity) (usage : EntityId) : Prop :=
  e.kind = "PRODUCT_DEFINITION_SHAPE" ∧ e.references[0]? = some usage

/-- The entity is a representation in the context of a shape. -/
def IsRepresentationOf (e : Entity) (shape : EntityId) : Prop :=
  e.kind = "CONTEXT_DEPENDENT_SHAPE_REPRESENTATION" ∧ e.references[1]? = some shape

instance (e : Entity) (usage : EntityId) : Decidable (e.IsShapeOf usage) :=
  inferInstanceAs (Decidable (_ ∧ _))

instance (e : Entity) (shape : EntityId) : Decidable (e.IsRepresentationOf shape) :=
  inferInstanceAs (Decidable (_ ∧ _))

/-- The first entity that the part of a relationship with a transformation refers to. -/
def transformation? (e : Entity) : Option EntityId :=
  (e.part? "REPRESENTATION_RELATIONSHIP_WITH_TRANSFORMATION").bind (·.findSome? Param.reference?)

end Entity

/-- The entities on the way from a usage to its frame. -/
structure FrameChain where
  shape : Entity
  representation : Entity
  relationship : Entity
  transformation : Entity
  frame : Entity

namespace FrameChain

/-- The entities of a chain are among some entities, and each one leads to the next. -/
structure Complete (c : FrameChain) (es : List Entity) (usage : EntityId) : Prop where
  shape_mem : c.shape ∈ es
  isShapeOf : c.shape.IsShapeOf usage
  representation_mem : c.representation ∈ es
  isRepresentationOf : c.representation.IsRepresentationOf c.shape.id
  relationship_mem : c.relationship ∈ es
  relationship_eq : c.representation.references[0]? = some c.relationship.id
  transformation_mem : c.transformation ∈ es
  transformation_eq : c.relationship.transformation? = some c.transformation.id
  transformation_kind : c.transformation.kind = "ITEM_DEFINED_TRANSFORMATION"
  frame_mem : c.frame ∈ es
  frame_eq : c.transformation.references[1]? = some c.frame.id
  frame_kind : c.frame.kind = "AXIS2_PLACEMENT_3D"

/-- No other shape of the usage has a smaller number than that of the chain, nor has any other
representation of this shape. -/
structure Leading (c : FrameChain) (es : List Entity) (usage : EntityId) : Prop where
  shape_le : ∀ e ∈ es, e.IsShapeOf usage → c.shape.id ≤ e.id
  representation_le : ∀ e ∈ es, e.IsRepresentationOf c.shape.id → c.representation.id ≤ e.id

end FrameChain

/-! ### Entities found by number -/

section Ordered

variable {es : List Entity} (h : Ordered es)
include h

/-- The first entity that meets a condition is the one with the smallest number. -/
theorem Ordered.find?_eq_some_iff {p : Entity → Bool} {e : Entity} :
    es.find? p = some e ↔ e ∈ es ∧ p e = true ∧ ∀ f ∈ es, p f = true → e.id ≤ f.id := by
  induction es with
  | nil => exact ⟨nofun, nofun⟩
  | cons g gs ih =>
    obtain ⟨hg, hgs⟩ := List.pairwise_cons.mp h
    by_cases hp : p g = true
    · rw [List.find?_cons_of_pos hp, Option.some.injEq]
      constructor
      · rintro rfl
        refine ⟨List.mem_cons_self, hp, fun f hf _ ↦ ?_⟩
        obtain rfl | hf := List.mem_cons.mp hf
        · exact UInt64.le_refl _
        · exact UInt64.le_of_lt (hg f hf)
      · rintro ⟨he, -, hleast⟩
        obtain rfl | he := List.mem_cons.mp he
        · rfl
        · exact absurd (hg e he) (UInt64.not_lt.mpr (hleast g List.mem_cons_self hp))
    · rw [List.find?_cons_of_neg hp, ih hgs, List.mem_cons, List.forall_mem_cons]
      constructor
      · rintro ⟨he, hpe, hleast⟩
        exact ⟨Or.inr he, hpe, fun hpg ↦ absurd hpg hp, hleast⟩
      · rintro ⟨he, hpe, -, hleast⟩
        refine ⟨he.resolve_left ?_, hpe, hleast⟩
        rintro rfl
        exact hp hpe

/-- A number leads to the one entity that has it. -/
theorem Ordered.findEntity?_eq_some_iff {id : EntityId} {e : Entity} :
    findEntity? es id = some e ↔ e ∈ es ∧ e.id = id := by
  rw [findEntity?, h.find?_eq_some_iff]
  simp only [beq_iff_eq]
  constructor
  · rintro ⟨he, hid, -⟩
    exact ⟨he, hid⟩
  · rintro ⟨he, rfl⟩
    exact ⟨he, rfl, fun f _ hf ↦ hf ▸ UInt64.le_refl _⟩

theorem shapeOf?_eq_some_iff {usage shape : EntityId} :
    shapeOf? es usage = some shape ↔
      ∃ e ∈ es, e.IsShapeOf usage ∧ (∀ f ∈ es, f.IsShapeOf usage → e.id ≤ f.id) ∧
        e.id = shape := by
  simp only [shapeOf?, Option.map_eq_some_iff, h.find?_eq_some_iff, Bool.and_eq_true, beq_iff_eq,
    Entity.IsShapeOf, and_assoc]

theorem relationshipOf?_eq_some_iff {shape relationship : EntityId} :
    relationshipOf? es shape = some relationship ↔
      ∃ e ∈ es, e.IsRepresentationOf shape ∧
        (∀ f ∈ es, f.IsRepresentationOf shape → e.id ≤ f.id) ∧
        e.references[0]? = some relationship := by
  simp only [relationshipOf?, Option.bind_eq_some_iff, h.find?_eq_some_iff, Bool.and_eq_true,
    beq_iff_eq, Entity.IsRepresentationOf, and_assoc]

/-- The frame of a usage stands at the end of the leading chain, if that is complete. -/
theorem usageFrame?_eq_some_iff {usage frame : EntityId} :
    usageFrame? es usage = some frame ↔
      ∃ c : FrameChain, c.Complete es usage ∧ c.Leading es usage ∧ c.frame.id = frame := by
  simp only [usageFrame?, Option.bind_eq_bind, Option.bind_eq_some_iff, shapeOf?_eq_some_iff h,
    relationshipOf?_eq_some_iff h, h.findEntity?_eq_some_iff, Option.ite_none_left_eq_some, ne_eq,
    not_not, Option.ite_none_right_eq_some, Option.some.injEq]
  constructor
  · rintro ⟨-, ⟨shape, hshape, hshapeOf, hshapeLe, rfl⟩, -, ⟨representation, hrepresentation,
      hrepresentationOf, hrepresentationLe, hfirst⟩, relationship, ⟨hrelationship, rfl⟩, ps, hps, -,
      htransformationOf, transformation, ⟨htransformation, rfl⟩, hkind, -, hframeOf, frame,
      ⟨hframe, rfl⟩, hframeKind, rfl⟩
    have htransformation? : relationship.transformation? = some transformation.id := by
      rw [Entity.transformation?, hps]
      exact htransformationOf
    exact ⟨⟨shape, representation, relationship, transformation, frame⟩,
      ⟨hshape, hshapeOf, hrepresentation, hrepresentationOf, hrelationship, hfirst, htransformation,
        htransformation?, hkind, hframe, hframeOf, hframeKind⟩, ⟨hshapeLe, hrepresentationLe⟩, rfl⟩
  · rintro ⟨c, hc, hleading, rfl⟩
    obtain ⟨ps, hps, htransformationOf⟩ := Option.bind_eq_some_iff.mp hc.transformation_eq
    exact ⟨_, ⟨c.shape, hc.shape_mem, hc.isShapeOf, hleading.shape_le, rfl⟩, _,
      ⟨c.representation, hc.representation_mem, hc.isRepresentationOf, hleading.representation_le,
        hc.relationship_eq⟩, c.relationship, ⟨hc.relationship_mem, rfl⟩, ps, hps, _,
      htransformationOf, c.transformation, ⟨hc.transformation_mem, rfl⟩, hc.transformation_kind, _,
      hc.frame_eq, c.frame, ⟨hc.frame_mem, rfl⟩, hc.frame_kind, rfl⟩

end Ordered

/-! ### Usages of an assembly -/

/-- A usage has one shape at most, and a shape one representation. -/
structure OneChainEach (es : List Entity) : Prop where
  shape_eq : ∀ usage, ∀ e ∈ es, ∀ f ∈ es, e.IsShapeOf usage → f.IsShapeOf usage → e = f
  representation_eq : ∀ shape, ∀ e ∈ es, ∀ f ∈ es,
    e.IsRepresentationOf shape → f.IsRepresentationOf shape → e = f

/-- Where there is no choice, every complete chain is the leading one. -/
theorem FrameChain.Complete.leading {c : FrameChain} {es : List Entity} {usage : EntityId}
    (hc : c.Complete es usage) (h : OneChainEach es) : c.Leading es usage where
  shape_le e he hof := by
    rw [h.shape_eq usage e he c.shape hc.shape_mem hof hc.isShapeOf]
    exact UInt64.le_refl _
  representation_le e he hof := by
    rw [h.representation_eq c.shape.id e he c.representation hc.representation_mem hof
      hc.isRepresentationOf]
    exact UInt64.le_refl _

theorem Usage.ofEntity?_eq_some_iff {es : List Entity} {e : Entity} {u : Usage} :
    Usage.ofEntity? es e = some u ↔ e.kind = "NEXT_ASSEMBLY_USAGE_OCCURRENCE" ∧
      u = { id := e.id
            occurrence := (e.params[0]?.bind Param.text?).getD ""
            parentProduct := e.references[0]?.bind (productOf? es)
            childProduct := e.references[1]?.bind (productOf? es)
            placement := usageFrame? es e.id } := by
  rw [ofEntity?, Option.ite_none_left_eq_some, Option.some.injEq, ne_eq, not_not]
  exact and_congr_right fun _ ↦ eq_comm

/-- Every usage among some entities is one of their assembly. It has a frame if and only if a chain
of entities from the usage to that frame is complete, with the first shape of the usage and the
first representation of that shape. Where neither has several, every complete chain counts. -/
theorem placement_iff_leading_chain {es : List Entity} (h : Ordered es) :
    (Assembly.ofEntities es).usages.map (·.id) =
        (es.filter (·.kind == "NEXT_ASSEMBLY_USAGE_OCCURRENCE")).map (·.id) ∧
      ∀ u ∈ (Assembly.ofEntities es).usages, ∀ frame,
        (u.placement = some frame ↔
          ∃ c : FrameChain, c.Complete es u.id ∧ c.Leading es u.id ∧ c.frame.id = frame) ∧
        (OneChainEach es → (u.placement = some frame ↔
          ∃ c : FrameChain, c.Complete es u.id ∧ c.frame.id = frame)) := by
  have hleading : ∀ u ∈ (Assembly.ofEntities es).usages, ∀ frame, u.placement = some frame ↔
      ∃ c : FrameChain, c.Complete es u.id ∧ c.Leading es u.id ∧ c.frame.id = frame := by
    intro u hu frame
    obtain ⟨e, -, he⟩ := List.mem_filterMap.mp hu
    obtain ⟨-, rfl⟩ := Usage.ofEntity?_eq_some_iff.mp he
    exact usageFrame?_eq_some_iff h
  refine ⟨?_, fun u hu frame ↦ ⟨hleading u hu frame, fun hone ↦ ?_⟩⟩
  · rw [Assembly.ofEntities, List.map_filterMap, ← List.filterMap_eq_map', List.filterMap_filter]
    refine List.filterMap_congr fun e _ ↦ ?_
    by_cases hkind : e.kind = "NEXT_ASSEMBLY_USAGE_OCCURRENCE" <;> simp [Usage.ofEntity?, hkind]
  · rw [hleading u hu frame]
    exact exists_congr fun c ↦
      ⟨fun ⟨hc, _, hframe⟩ ↦ ⟨hc, hframe⟩, fun ⟨hc, hframe⟩ ↦ ⟨hc, hc.leading hone, hframe⟩⟩

/-- An entity of one part that refers to others. -/
private def entityTo (id : EntityId) (kind : String) (references : List EntityId) : Entity :=
  ⟨id, [(kind, references.map .reference)]⟩

/-- A relationship with a transformation. -/
private def relationshipEntity : Entity :=
  ⟨6, [("REPRESENTATION_RELATIONSHIP", []),
    ("REPRESENTATION_RELATIONSHIP_WITH_TRANSFORMATION", [.omitted, .reference 7])]⟩

/-- What a representation leads to: the relationship, its transformation and two frames. -/
private def frameEntities : List Entity :=
  [relationshipEntity, entityTo 7 "ITEM_DEFINED_TRANSFORMATION" [8, 9],
    entityTo 8 "AXIS2_PLACEMENT_3D" [], entityTo 9 "AXIS2_PLACEMENT_3D" []]

/-- A chain to the second frame over a shape and a representation. -/
private def chainOver (shape : EntityId) (representation : EntityId) : FrameChain where
  shape := entityTo shape "PRODUCT_DEFINITION_SHAPE" [1]
  representation := entityTo representation "CONTEXT_DEPENDENT_SHAPE_REPRESENTATION" [6, shape]
  relationship := relationshipEntity
  transformation := entityTo 7 "ITEM_DEFINED_TRANSFORMATION" [8, 9]
  frame := entityTo 9 "AXIS2_PLACEMENT_3D" []

/-- A usage with a shape and its representation. -/
private def placedUsage : List Entity :=
  entityTo 1 "NEXT_ASSEMBLY_USAGE_OCCURRENCE" [] :: entityTo 2 "PRODUCT_DEFINITION_SHAPE" [1] ::
    entityTo 4 "CONTEXT_DEPENDENT_SHAPE_REPRESENTATION" [6, 2] :: frameEntities

/-- The usage has the second frame of the transformation. -/
theorem placement_iff_leading_chain_placed : Ordered placedUsage ∧
    ∀ u ∈ (Assembly.ofEntities placedUsage).usages, u.id = 1 → u.placement = some 9 := by
  have hordered : Ordered placedUsage := by
    unfold Ordered
    decide
  have hcomplete : (chainOver 2 4).Complete placedUsage 1 := by
    constructor <;> first | decide | simp [placedUsage, frameEntities, chainOver]
  have hleading : (chainOver 2 4).Leading placedUsage 1 := ⟨by decide, by decide⟩
  refine ⟨hordered, fun u hu hid ↦ ?_⟩
  rw [((placement_iff_leading_chain hordered).2 u hu 9).1, hid]
  exact ⟨chainOver 2 4, hcomplete, hleading, rfl⟩

/-- A usage with two shapes, of which only the second one has a representation. -/
private def twoShapes : List Entity :=
  entityTo 1 "NEXT_ASSEMBLY_USAGE_OCCURRENCE" [] :: entityTo 2 "PRODUCT_DEFINITION_SHAPE" [1] ::
    entityTo 3 "PRODUCT_DEFINITION_SHAPE" [1] ::
    entityTo 4 "CONTEXT_DEPENDENT_SHAPE_REPRESENTATION" [6, 3] :: frameEntities

/-- A usage with a shape that has two representations, the first of which leads nowhere. -/
private def twoRepresentations : List Entity :=
  entityTo 1 "NEXT_ASSEMBLY_USAGE_OCCURRENCE" [] :: entityTo 2 "PRODUCT_DEFINITION_SHAPE" [1] ::
    entityTo 4 "CONTEXT_DEPENDENT_SHAPE_REPRESENTATION" [10, 2] ::
    entityTo 5 "CONTEXT_DEPENDENT_SHAPE_REPRESENTATION" [6, 2] :: frameEntities

/-- A complete chain is no placement if its shape is the second one of the usage, or its
representation the second one of its shape. -/
theorem not_placed_of_second_candidates :
    (Ordered twoShapes ∧
      (Assembly.ofEntities twoShapes).usages.map (fun u ↦ (u.id, u.placement)) = [(1, none)] ∧
      ∃ c : FrameChain, c.Complete twoShapes 1) ∧
    (Ordered twoRepresentations ∧
      (Assembly.ofEntities twoRepresentations).usages.map (fun u ↦ (u.id, u.placement)) =
        [(1, none)] ∧
      ∃ c : FrameChain, c.Complete twoRepresentations 1) := by
  refine ⟨⟨?_, by decide +kernel, chainOver 3 4, ?_⟩, ⟨?_, by decide +kernel, chainOver 2 5, ?_⟩⟩
  · unfold Ordered
    decide
  · constructor <;> first | decide | simp [twoShapes, frameEntities, chainOver]
  · unfold Ordered
    decide
  · constructor <;> first | decide | simp [twoRepresentations, frameEntities, chainOver]

end PipingAssembly.Exchange
