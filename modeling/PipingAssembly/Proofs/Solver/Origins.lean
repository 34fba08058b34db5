import PipingAssembly.Proofs.Solver.Passes

/-!
# Where placements come from

Each placement that a link makes is that of an instance at its index and has its pose relative to a
placement that was there before. Following these origins leads to the base, and no instance comes
twice on the way, since nothing that was placed is placed again.
-/

namespace PipingAssembly

section PlacedFrom

variable (instances : List Instance) (constraints : List Constraint) (policy : SolverPolicy Float)

/-- A constraint gives `p` its pose relative to `o`. From the source to the target the offset, along
the axes of `o`, and the angle are added; from the target to the source they are taken away. Both
are those of the family of the source. -/
def Constraint.Places (c : Constraint) (o p : Placement) : Prop :=
  ∃ a ∈ instances, a.id = c.entityA ∧
    let offset := c.type.offset c.parameters policy a.family o.pose.frame
    let turn : Vec3 Float := ⟨0, c.parameters.angle.getD 0, 0⟩
    (c.entityA = o.instanceId ∧ c.entityB = p.instanceId ∧
        p.pose = ⟨o.pose.position + offset, o.pose.rotation + turn⟩) ∨
      (c.entityB = o.instanceId ∧ c.entityA = p.instanceId ∧
        p.pose = ⟨o.pose.position - offset, o.pose.rotation - turn⟩)

/-- A usable constraint places `p` from `o`, and the source of `p` names both. -/
def PlacedFrom (p o : Placement) : Prop :=
  ∃ c ∈ constraints, c.Usable instances ∧ p.source = .constraint c.id o.instanceId ∧
    c.Places instances policy o p

/-- The origins of a placement, one after the other up to the base, each of another instance. -/
structure Trail (p : Placement) (origins : List Placement) : Prop where
  chain : (p :: origins).IsChain (PlacedFrom instances constraints policy)
  base : ∃ b, (p :: origins).getLast? = some b ∧ b.source = .base
  nodup : ((p :: origins).map (·.instanceId)).Nodup

end PlacedFrom

variable {instances : List Instance} {constraints : List Constraint} {policy : SolverPolicy Float}

theorem PlacedFrom.source_ne_base {p o : Placement}
    (h : PlacedFrom instances constraints policy p o) : p.source ≠ .base := by
  obtain ⟨c, -, -, hsource, -⟩ := h
  rw [hsource]
  simp

/-- A placement is the base or has an origin of its own. -/
theorem Trail.cases {p : Placement} {origins : List Placement}
    (h : Trail instances constraints policy p origins) :
    (p.source = .base ∧ origins = []) ∨
      ∃ o rest, origins = o :: rest ∧ PlacedFrom instances constraints policy p o ∧
        Trail instances constraints policy o rest := by
  cases origins with
  | nil =>
    obtain ⟨b, hb, hsource⟩ := h.base
    cases hb
    exact Or.inl ⟨hsource, rfl⟩
  | cons o rest =>
    obtain ⟨hpo, hchain⟩ := List.isChain_cons_cons.mp h.chain
    obtain ⟨b, hb, hsource⟩ := h.base
    rw [List.getLast?_cons_cons] at hb
    exact Or.inr ⟨o, rest, rfl, hpo, hchain, ⟨b, hb, hsource⟩, (List.nodup_cons.mp h.nodup).2⟩

/-- One more placement in front of a trail. -/
theorem Trail.cons {p o : Placement} {origins : List Placement}
    (h : Trail instances constraints policy o origins)
    (hpo : PlacedFrom instances constraints policy p o)
    (hnew : p.instanceId ∉ (o :: origins).map (·.instanceId)) :
    Trail instances constraints policy p (o :: origins) where
  chain := List.isChain_cons_cons.mpr ⟨hpo, h.chain⟩
  base := by
    obtain ⟨b, hb, hsource⟩ := h.base
    exact ⟨b, by rw [List.getLast?_cons_cons, hb], hsource⟩
  nodup := List.nodup_cons.mpr ⟨hnew, h.nodup⟩

/-! ### One link -/

theorem Link.Joins.goal_lt {l : Link} {ids : List String} (h : l.Joins ids) (d : Direction) :
    l.goal d < ids.length := by
  cases d
  · exact h.b_lt
  · exact h.a_lt

theorem Link.Joins.getElem?_goal {l : Link} {ids : List String} (h : l.Joins ids) (d : Direction)
    (origin : Placement) (family : Family) :
    ids[l.goal d]? = some (l.place d origin family policy).instanceId := by
  cases d
  · exact h.target
  · exact h.source

/-- A link places one side from the other. -/
theorem Link.Joins.placedFrom {l : Link} (h : l.Joins (idsOf instances))
    (hl : l.constraint ∈ constraints) (d : Direction) {origin : Placement}
    (hid : (idsOf instances)[l.origin d]? = some origin.instanceId) :
    PlacedFrom instances constraints policy
      (l.place d origin (familyAt instances l.a) policy) origin := by
  obtain ⟨a, ha, haid⟩ := getElem?_idsOf.mp h.source
  have hfamily : familyAt instances l.a = a.family := by
    rw [familyAt, ha]
    rfl
  refine ⟨l.constraint, hl, h.usable, rfl, a, List.mem_of_getElem? ha, haid, ?_⟩
  rw [hfamily]
  cases d with
  | forward => exact Or.inl ⟨Option.some.inj (h.source.symm.trans hid), rfl, rfl⟩
  | backward => exact Or.inr ⟨Option.some.inj (h.target.symm.trans hid), rfl, rfl⟩

namespace Slots

/-- The placements are those of the instances at their indices. -/
structure Labelled (slots : Slots) (ids : List String) : Prop where
  length_eq : slots.length = ids.length
  id_eq : ∀ i p, slots.placed? i = some p → ids[i]? = some p.instanceId

theorem Labelled.holds {slots : Slots} (h : slots.Labelled (idsOf instances)) :
    slots.Holds (links instances constraints) := by
  intro l hl
  have hjoins := (joins_of_mem_links hl).2
  rw [h.length_eq]
  exact ⟨hjoins.a_lt, hjoins.b_lt⟩

/-- A link keeps the labels. -/
theorem Labelled.step {slots : Slots} (h : slots.Labelled (idsOf instances)) {l : Link}
    (hl : l.Joins (idsOf instances)) :
    (Slots.step instances policy slots l).Labelled (idsOf instances) := by
  obtain ⟨heq, -⟩ | ⟨d, origin, horigin, hgoal, heq⟩ := step_cases instances policy slots l
  · rw [heq]
    exact h
  · have hlt : l.goal d < slots.length := h.length_eq ▸ hl.goal_lt d
    rw [heq]
    refine ⟨by rw [List.length_set, h.length_eq], fun i p hp ↦ ?_⟩
    rw [placed?_set hlt] at hp
    split at hp
    · next hi =>
      cases hp
      rw [← hi]
      exact hl.getElem?_goal d origin _
    · exact h.id_eq i p hp

/-- Every placement has a trail of placements to the base, which is at the origin. -/
structure Traced (slots : Slots) (instances : List Instance) (constraints : List Constraint)
    (policy : SolverPolicy Float) (base : Option Nat) : Prop where
  base_eq : ∀ i p, slots.placed? i = some p → p.source = .base → base = some i ∧ p.pose = .origin
  trail : ∀ i p, slots.placed? i = some p →
    ∃ origins, Trail instances constraints policy p origins ∧
      ∀ q ∈ origins, ∃ j, slots.placed? j = some q

/-- A link keeps the trails. The instance that it places is on none of them, since until then it had
no placement. -/
theorem Traced.step {slots : Slots} {base : Option Nat}
    (h : slots.Traced instances constraints policy base)
    (hlabels : slots.Labelled (idsOf instances)) (hids : (idsOf instances).Nodup) {l : Link}
    (hl : l ∈ links instances constraints) :
    (Slots.step instances policy slots l).Traced instances constraints policy base := by
  obtain ⟨heq, -⟩ | ⟨d, origin, horigin, hgoal, heq⟩ := step_cases instances policy slots l
  · rw [heq]
    exact h
  · obtain ⟨hmem, hjoins⟩ := joins_of_mem_links hl
    have hlt : l.goal d < slots.length := hlabels.length_eq ▸ hjoins.goal_lt d
    have hextends := extends_set hlt hgoal (l.place d origin (familyAt instances l.a) policy)
    have hfrom : PlacedFrom instances constraints policy
        (l.place d origin (familyAt instances l.a) policy) origin :=
      hjoins.placedFrom hmem d (hlabels.id_eq _ _ horigin)
    have hnew : ∀ j q, slots.placed? j = some q →
        (l.place d origin (familyAt instances l.a) policy).instanceId ≠ q.instanceId := by
      intro j q hq hsame
      have hj := hlabels.id_eq j q hq
      rw [← hsame, ← hjoins.getElem?_goal d origin (familyAt instances l.a)] at hj
      have hgoal' : l.goal d = j :=
        (List.getElem?_inj (hjoins.goal_lt d) hids).mp hj.symm
      rw [hgoal', hq] at hgoal
      cases hgoal
    rw [heq]
    refine ⟨fun i p hp hsource ↦ ?_, fun i p hp ↦ ?_⟩
    · rw [placed?_set hlt] at hp
      split at hp
      · cases hp
        exact absurd hsource hfrom.source_ne_base
      · exact h.base_eq i p hp hsource
    · have lift : ∀ {origins : List Placement}, (∀ q ∈ origins, ∃ j, slots.placed? j = some q) →
          ∀ q ∈ origins, ∃ j, placed? (slots.set (l.goal d)
            (some (l.place d origin (familyAt instances l.a) policy))) j = some q := by
        intro origins horigins q hq
        obtain ⟨j, hj⟩ := horigins q hq
        exact ⟨j, hextends j q hj⟩
      rw [placed?_set hlt] at hp
      split at hp
      · cases hp
        obtain ⟨origins, htrail, horigins⟩ := h.trail _ _ horigin
        have hall : ∀ q ∈ origin :: origins, ∃ j, slots.placed? j = some q := by
          intro q hq
          cases List.mem_cons.mp hq with
          | inl hq => exact ⟨_, hq ▸ horigin⟩
          | inr hq => exact horigins q hq
        refine ⟨origin :: origins, htrail.cons hfrom ?_, lift hall⟩
        intro hmem
        obtain ⟨q, hq, hsame⟩ := List.mem_map.mp hmem
        obtain ⟨j, hj⟩ := hall q hq
        exact hnew j q hj hsame.symm
      · obtain ⟨origins, htrail, horigins⟩ := h.trail i p hp
        exact ⟨origins, htrail, lift horigins⟩

end Slots

/-! ### Before the first pass -/

theorem placed?_initialSlots {base : Option Nat} {i : Nat} {p : Placement} :
    (initialSlots instances base).placed? i = some p ↔
      base = some i ∧ ∃ inst, instances[i]? = some inst ∧ p = ⟨inst.id, .origin, .base⟩ := by
  rw [Slots.placed?_eq_some, initialSlots, List.getElem?_mapIdx, Option.map_eq_some_iff]
  constructor
  · rintro ⟨inst, hinst, hp⟩
    split at hp
    · next hbase =>
      cases hp
      exact ⟨hbase, inst, hinst, rfl⟩
    · cases hp
  · rintro ⟨rfl, inst, hinst, rfl⟩
    exact ⟨inst, hinst, by simp⟩

theorem labelled_initialSlots (instances : List Instance) (base : Option Nat) :
    (initialSlots instances base).Labelled (idsOf instances) := by
  refine ⟨by simp [initialSlots], fun i p hp ↦ ?_⟩
  obtain ⟨-, inst, hinst, rfl⟩ := placed?_initialSlots.mp hp
  rw [List.getElem?_map, hinst]
  rfl

theorem traced_initialSlots (base : Option Nat) :
    (initialSlots instances base).Traced instances constraints policy base := by
  refine ⟨fun i p hp hsource ↦ ?_, fun i p hp ↦ ?_⟩
  · obtain ⟨hbase, inst, -, rfl⟩ := placed?_initialSlots.mp hp
    exact ⟨hbase, rfl⟩
  · obtain ⟨hbase, inst, -, rfl⟩ := placed?_initialSlots.mp hp
    refine ⟨[], ⟨.singleton _, ⟨_, rfl, rfl⟩, by simp⟩, fun q hq ↦ ?_⟩
    cases hq

end PipingAssembly
