import Mathlib.Logic.Relation
import PipingAssembly.Solver.Basic

/-!
# The graph of usable constraints

A constraint is usable if both of its sides name instances and these differ. Usable constraints
connect instances in both directions, and they are exactly what the links of a list of constraints
come from.
-/

namespace PipingAssembly

/-- The ids of instances, in order. -/
abbrev idsOf (instances : List Instance) : List String := instances.map (·.id)

theorem idsOf_append (instances more : List Instance) :
    idsOf (instances ++ more) = idsOf instances ++ idsOf more :=
  List.map_append

theorem idsOf_map_ofPart (parts : List Part) : idsOf (parts.map .ofPart) = parts.map (·.id) := by
  rw [idsOf, List.map_map]
  rfl

theorem getElem?_idsOf {instances : List Instance} {i : Nat} {id : String} :
    (idsOf instances)[i]? = some id ↔ ∃ x, instances[i]? = some x ∧ x.id = id := by
  rw [List.getElem?_map, Option.map_eq_some_iff]

/-- A constraint between two different instances that both exist. -/
structure Constraint.Usable (c : Constraint) (instances : List Instance) : Prop where
  source_mem : c.entityA ∈ idsOf instances
  target_mem : c.entityB ∈ idsOf instances
  ne : c.entityA ≠ c.entityB

/-- Some usable constraint joins two ids, in one direction or the other. -/
def Adjacent (instances : List Instance) (constraints : List Constraint) (x y : String) : Prop :=
  ∃ c ∈ constraints, c.Usable instances ∧
    ((c.entityA = x ∧ c.entityB = y) ∨ (c.entityA = y ∧ c.entityB = x))

/-- A path of usable constraints leads from one id to another. -/
def Connected (instances : List Instance) (constraints : List Constraint) :
    String → String → Prop :=
  Relation.ReflTransGen (Adjacent instances constraints)

/-- The two sides of a link stand at its indices. -/
structure Link.Joins (l : Link) (ids : List String) : Prop where
  source : ids[l.a]? = some l.constraint.entityA
  target : ids[l.b]? = some l.constraint.entityB
  ne : l.constraint.entityA ≠ l.constraint.entityB

theorem Link.Joins.a_lt {l : Link} {ids : List String} (h : l.Joins ids) : l.a < ids.length :=
  (List.getElem?_eq_some_iff.mp h.source).1

theorem Link.Joins.b_lt {l : Link} {ids : List String} (h : l.Joins ids) : l.b < ids.length :=
  (List.getElem?_eq_some_iff.mp h.target).1

/-- An instance stands at its index. -/
theorem getElem?_of_instanceIndex? {instances : List Instance} {id : String} {i : Nat}
    (h : instanceIndex? instances id = some i) : (idsOf instances)[i]? = some id := by
  obtain ⟨x, hx, rfl⟩ := Option.map_eq_some_iff.mp h
  obtain ⟨hmem, hid⟩ := List.mem_filter.mp (List.mem_of_getLast? hx)
  exact getElem?_idsOf.mpr ⟨x.1, List.mem_zipIdx_iff_getElem?.mp hmem, eq_of_beq hid⟩

/-- An id has an index if it is that of an instance. -/
theorem exists_instanceIndex? {instances : List Instance} {id : String}
    (h : id ∈ idsOf instances) : ∃ i, instanceIndex? instances id = some i := by
  obtain ⟨i, hi⟩ := List.mem_iff_getElem?.mp h
  obtain ⟨inst, hinst, hid⟩ := getElem?_idsOf.mp hi
  have hmem : (inst, i) ∈ instances.zipIdx.filter (·.1.id == id) :=
    List.mem_filter.mpr ⟨List.mem_zipIdx_iff_getElem?.mpr hinst, beq_iff_eq.mpr hid⟩
  apply Option.isSome_iff_exists.mp
  rw [instanceIndex?, Option.isSome_map, List.getLast?_isSome]
  exact List.ne_nil_of_mem hmem

/-- Every link comes from one of the constraints and joins its sides. -/
theorem joins_of_mem_links {instances : List Instance} {constraints : List Constraint} {l : Link}
    (h : l ∈ links instances constraints) :
    l.constraint ∈ constraints ∧ l.Joins (idsOf instances) := by
  obtain ⟨c, hc, hl⟩ := List.mem_filterMap.mp h
  split at hl
  · next a b ha hb =>
    split at hl
    · cases hl
    · next hne =>
      cases hl
      refine ⟨hc, getElem?_of_instanceIndex? ha, getElem?_of_instanceIndex? hb, ?_⟩
      -- one id has one index, so different indices mean different ids
      intro heq
      change c.entityA = c.entityB at heq
      rw [heq] at ha
      exact hne (Option.some.inj (ha.symm.trans hb))
  · cases hl

theorem a_lt_of_mem_links {instances : List Instance} {constraints : List Constraint} {l : Link}
    (h : l ∈ links instances constraints) : l.a < instances.length := by
  rw [← List.length_map (f := (·.id))]
  exact (joins_of_mem_links h).2.a_lt

/-- The sides of a usable constraint have different indices. -/
theorem Constraint.Usable.exists_indices {instances : List Instance} {c : Constraint}
    (h : c.Usable instances) :
    ∃ a b, instanceIndex? instances c.entityA = some a ∧
      instanceIndex? instances c.entityB = some b ∧ a ≠ b := by
  obtain ⟨a, ha⟩ := exists_instanceIndex? h.source_mem
  obtain ⟨b, hb⟩ := exists_instanceIndex? h.target_mem
  refine ⟨a, b, ha, hb, fun heq ↦ ?_⟩
  have hb' := getElem?_of_instanceIndex? hb
  rw [← heq, getElem?_of_instanceIndex? ha] at hb'
  exact h.ne (Option.some.inj hb')

/-- Every usable constraint has a link. -/
theorem exists_mem_links {instances : List Instance} {constraints : List Constraint}
    {c : Constraint} (hc : c ∈ constraints) (hu : c.Usable instances) :
    ∃ l ∈ links instances constraints, l.constraint = c := by
  obtain ⟨a, b, ha, hb, hab⟩ := hu.exists_indices
  refine ⟨⟨c, a, b⟩, List.mem_filterMap.mpr ⟨c, hc, ?_⟩, rfl⟩
  simp only [ha, hb, hab, if_false]

/-- Where all constraints are usable each one has its link, in order. -/
theorem map_constraint_links {instances : List Instance} {constraints : List Constraint}
    (h : ∀ c ∈ constraints, c.Usable instances) :
    (links instances constraints).map (·.constraint) = constraints := by
  induction constraints with
  | nil => rfl
  | cons c cs ih =>
    obtain ⟨a, b, ha, hb, hab⟩ := (h c List.mem_cons_self).exists_indices
    have hcs := ih fun d hd ↦ h d (List.mem_cons_of_mem c hd)
    rw [links] at hcs ⊢
    rw [List.filterMap_cons]
    simp only [ha, hb, hab, if_false, List.map_cons, hcs]

/-- The constraint of a link that joins its sides is usable. -/
theorem Link.Joins.usable {l : Link} {instances : List Instance}
    (h : l.Joins (idsOf instances)) : l.constraint.Usable instances where
  source_mem := List.mem_of_getElem? h.source
  target_mem := List.mem_of_getElem? h.target
  ne := h.ne

end PipingAssembly
