import PipingAssembly.Proofs.Fasteners.Choices
import PipingAssembly.Proofs.Lists

/-!
# The connections that get fasteners

Each pair of instances with a qualifying constraint has one connection, from the constraint that is
preferred among those of the pair. A connection adds its bolts and then, if there is one, its
gasket, each with the same id and pose in its instance and its placement.
-/

namespace PipingAssembly

/-- The family of the instance with an id. -/
def familyOf? (instances : List Instance) (id : String) : Option Family :=
  (findInstance? instances id).map (·.family)

/-- Both sides of a constraint exist and its target is placed, and it asks for fasteners or joins
two flanges. -/
structure Constraint.Qualifies (c : Constraint) (instances : List Instance)
    (placements : List Placement) : Prop where
  source_mem : c.entityA ∈ instances.map (·.id)
  target_mem : c.entityB ∈ instances.map (·.id)
  target_placed : c.entityB ∈ placements.map (·.instanceId)
  needed : c.asks ∨ (familyOf? instances c.entityA = some .flange ∧
    familyOf? instances c.entityB = some .flange)

instance (c : Constraint) (instances : List Instance) (placements : List Placement) :
    Decidable (c.Qualifies instances placements) :=
  decidable_of_iff
    (c.entityA ∈ instances.map (·.id) ∧ c.entityB ∈ instances.map (·.id) ∧
      c.entityB ∈ placements.map (·.instanceId) ∧
      (c.asks ∨ (familyOf? instances c.entityA = some .flange ∧
        familyOf? instances c.entityB = some .flange)))
    ⟨fun ⟨ha, hb, hface, hneeded⟩ ↦ ⟨ha, hb, hface, hneeded⟩,
      fun ⟨ha, hb, hface, hneeded⟩ ↦ ⟨ha, hb, hface, hneeded⟩⟩

/-- The sides and the face of a joint are those that its constraint names. -/
structure Joint.Joins (j : Joint) (instances : List Instance) (placements : List Placement) :
    Prop where
  source : findInstance? instances j.constraint.entityA = some j.a
  target : findInstance? instances j.constraint.entityB = some j.b
  face : findPlacement? placements j.constraint.entityB = some j.face

section Qualifying

variable {instances : List Instance} {constraints : List Constraint} {placements : List Placement}
  {c : Constraint} {j : Joint}

theorem findInstance?_isSome {id : String} :
    (findInstance? instances id).isSome ↔ id ∈ instances.map (·.id) := by
  simp [findInstance?]

theorem findPlacement?_isSome {id : String} :
    (findPlacement? placements id).isSome ↔ id ∈ placements.map (·.instanceId) := by
  simp [findPlacement?]

theorem joint?_eq_some :
    joint? instances placements c = some j ↔
      j.constraint = c ∧ j.Joins instances placements ∧ c.needsFasteners j.a j.b := by
  simp only [joint?, Option.bind_eq_bind, Option.bind_eq_some_iff, Option.ite_none_right_eq_some,
    Option.some.injEq]
  constructor
  · rintro ⟨a, ha, b, hb, face, hface, hneeds, rfl⟩
    exact ⟨rfl, ⟨ha, hb, hface⟩, hneeds⟩
  · rintro ⟨rfl, ⟨ha, hb, hface⟩, hneeds⟩
    exact ⟨j.a, ha, j.b, hb, j.face, hface, hneeds, rfl⟩

/-- Exactly the qualifying constraints have joints. -/
theorem joint?_isSome :
    (joint? instances placements c).isSome ↔ c.Qualifies instances placements := by
  rw [Option.isSome_iff_exists]
  constructor
  · rintro ⟨j, hj⟩
    obtain ⟨rfl, hjoins, hneeds⟩ := joint?_eq_some.mp hj
    refine ⟨findInstance?_isSome.mp ?_, findInstance?_isSome.mp ?_, findPlacement?_isSome.mp ?_, ?_⟩
    · rw [hjoins.source]; rfl
    · rw [hjoins.target]; rfl
    · rw [hjoins.face]; rfl
    · simpa [familyOf?, hjoins.source, hjoins.target, Constraint.needsFasteners] using hneeds
  · rintro ⟨ha, hb, hface, hneeded⟩
    obtain ⟨a, ha⟩ := Option.isSome_iff_exists.mp (findInstance?_isSome.mpr ha)
    obtain ⟨b, hb⟩ := Option.isSome_iff_exists.mp (findInstance?_isSome.mpr hb)
    obtain ⟨face, hface⟩ := Option.isSome_iff_exists.mp (findPlacement?_isSome.mpr hface)
    refine ⟨⟨c, a, b, face⟩, joint?_eq_some.mpr ⟨rfl, ⟨ha, hb, hface⟩, ?_⟩⟩
    simpa [familyOf?, ha, hb, Constraint.needsFasteners] using hneeded

theorem joins_of_mem_qualifyingJoints
    (h : j ∈ qualifyingJoints instances constraints placements) : j.Joins instances placements := by
  obtain ⟨c, -, hj⟩ := List.mem_filterMap.mp h
  exact (joint?_eq_some.mp hj).2.1

/-- The joints come from the qualifying constraints, in their order. -/
theorem map_constraint_qualifyingJoints :
    (qualifyingJoints instances constraints placements).map (·.constraint) =
      constraints.filter (·.Qualifies instances placements) := by
  rw [qualifyingJoints]
  induction constraints with
  | nil => rfl
  | cons c cs ih =>
    cases hj : joint? instances placements c with
    | none =>
      have hc : ¬ c.Qualifies instances placements := by simp [← joint?_isSome, hj]
      rw [List.filterMap_cons_none hj, List.filter_cons_of_neg (by simpa using hc), ih]
    | some j =>
      have hc : c.Qualifies instances placements := by simp [← joint?_isSome, hj]
      rw [List.filterMap_cons_some hj, List.filter_cons_of_pos (by simpa using hc), List.map_cons,
        ih, (joint?_eq_some.mp hj).1]

end Qualifying

section Once

variable {joints : List Joint} {cs : List Constraint} {c : Constraint}

/-- Comparing ids singles out the preferred constraint. -/
theorem filter_preferred? (hids : (cs.map (·.id)).Nodup) :
    cs.filter (fun c ↦ (preferred? cs).any (·.id == c.id)) = (preferred? cs).toList := by
  cases h : preferred? cs with
  | none => simp
  | some c =>
    simp only [Option.any_some, Bool.beq_comm (a := c.id)]
    exact filter_key_eq_singleton hids (mem_of_preferred? h)

/-- Each pair keeps the connection of its preferred constraint, if any constraint joins it. -/
theorem joining_connections (hids : ((joints.map (·.constraint)).map (·.id)).Nodup)
    (p : Sym2 String) :
    joining ((connections joints).map (·.constraint)) p =
      (preferred? (joining (joints.map (·.constraint)) p)).toList := by
  have hchosen : (connections joints).map (·.constraint) =
      (joints.map (·.constraint)).filter fun c ↦
        (preferred? (joining (joints.map (·.constraint)) c.sides)).any (·.id == c.id) := by
    rw [connections, List.filter_map]
    simp only [findChoice?_choices]
    rfl
  rw [hchosen]
  generalize joints.map (·.constraint) = cs at hids ⊢
  -- the constraints of a pair have the same sides, so one choice decides about all of them
  have hpair : ∀ c ∈ joining cs p, c.sides = p := fun c hc ↦ (mem_joining.mp hc).2
  calc joining (cs.filter fun c ↦ (preferred? (joining cs c.sides)).any (·.id == c.id)) p
      = (joining cs p).filter fun c ↦ (preferred? (joining cs c.sides)).any (·.id == c.id) := by
        rw [joining, joining, List.filter_filter, List.filter_filter]
        simp only [Bool.and_comm]
    _ = (joining cs p).filter fun c ↦ (preferred? (joining cs p)).any (·.id == c.id) :=
        List.filter_congr fun c hc ↦ by rw [hpair c hc]
    _ = (preferred? (joining cs p)).toList :=
        filter_preferred? (hids.sublist (List.filter_sublist.map _))

end Once

/-- The number of bolts that a constraint asks for, or the default. -/
def Constraint.boltCount (c : Constraint) (policy : FastenerPolicy Float) : Nat :=
  ((c.parameters.fasteners.bind (·.boltCount)).getD policy.defaultBoltCount).toNat

/-- The constraint of a connection asks for a gasket, or the families of its sides seal. -/
abbrev Joint.Seals (j : Joint) : Prop :=
  (j.constraint.parameters.fasteners.bind (·.gasket)).isSome ∨
    isSealingInterface j.a.family j.b.family

/-- The ids and families of the fasteners of a connection, bolts numbered from one before the
gasket. -/
def Joint.parts (j : Joint) (policy : FastenerPolicy Float) : List (String × Family) :=
  (List.range (j.constraint.boltCount policy)).map
      (fun i ↦ (j.constraint.id ++ "-BOLT-" ++ Decimal.natText (i + 1), .bolt)) ++
    if j.Seals then [(j.constraint.id ++ "-GASKET", .gasket)] else []

/-- What a connection adds: its parts, each as an instance and a placement that agree and that name
the connection. -/
structure Joint.Adds (j : Joint) (policy : FastenerPolicy Float)
    (added : List (Instance × Placement)) : Prop where
  parts : added.map (fun x ↦ (x.1.id, x.1.family)) = j.parts policy
  id_eq : ∀ x ∈ added, x.1.id = x.2.instanceId
  pose_eq : ∀ x ∈ added, x.1.pose = x.2.pose
  source_eq : ∀ x ∈ added,
    x.2.source = .synthesized j.constraint.id ∧ x.1.connectionId = some j.constraint.id

section Adds

variable (j : Joint) (policy : FastenerPolicy Float)

theorem boltCount_toNat : (j.boltCount policy).toNat = j.constraint.boltCount policy := by
  rw [Joint.boltCount, Joint.request, Constraint.boltCount]
  cases j.constraint.parameters.fasteners <;> rfl

theorem hasGasket_iff : j.hasGasket ↔ j.Seals := by
  rw [Joint.hasGasket, Bool.or_eq_true, Joint.Seals, Joint.request]
  cases j.constraint.parameters.fasteners <;> rfl

/-- There are as many places as bolts. -/
theorem length_boltPlaces {α : Type} [Add α] [Mul α] [Div α] [Neg α] [OfNat α 0] [OfNat α 1]
    [NatCast α] [Trigonometry α] (policy : FastenerPolicy α) (face : Pose α) (dn : α)
    (count : Nat) : (policy.boltPlaces face dn count).length = count := by
  rw [FastenerPolicy.boltPlaces, boltCircle, List.length_map, List.length_map, List.length_range]

/-- Every fastener of a joint comes from `fastenerAt`. -/
theorem exists_fastenerAt {x : Instance × Placement} (hx : x ∈ j.fasteners policy) :
    ∃ id partId family role dn place, x = j.fastenerAt id partId family role dn place := by
  rw [Joint.fasteners, List.mem_append] at hx
  obtain hbolt | hgasket := hx
  · obtain ⟨i, hi, rfl⟩ := List.mem_mapIdx.mp hbolt
    exact ⟨_, _, _, _, _, _, rfl⟩
  · rw [Joint.gasket] at hgasket
    split at hgasket
    · exact ⟨_, _, _, _, _, _, List.mem_singleton.mp hgasket⟩
    · cases hgasket

theorem map_bolts :
    (j.bolts policy).map (fun x ↦ (x.1.id, x.1.family)) =
      (List.range (j.constraint.boltCount policy)).map fun i ↦
        (j.constraint.id ++ "-BOLT-" ++ Decimal.natText (i + 1), .bolt) := by
  apply List.ext_getElem
  · rw [List.length_map, Joint.bolts, List.length_mapIdx, length_boltPlaces, boltCount_toNat,
      List.length_map, List.length_range]
  · intro i hi hi'
    simp only [Joint.bolts, List.getElem_map, List.getElem_mapIdx, List.getElem_range]
    rfl

theorem map_gasket :
    (j.gasket policy).map (fun x ↦ (x.1.id, x.1.family)) =
      if j.Seals then [(j.constraint.id ++ "-GASKET", .gasket)] else [] := by
  rw [Joint.gasket]
  by_cases h : j.Seals
  · rw [if_pos ((hasGasket_iff j).mpr h), if_pos h]
    rfl
  · rw [if_neg (mt (hasGasket_iff j).mp h), if_neg h]
    rfl

/-- The fasteners of a joint are its parts. -/
theorem adds_fasteners : j.Adds policy (j.fasteners policy) where
  parts := by rw [Joint.fasteners, List.map_append, map_bolts, map_gasket, Joint.parts]
  id_eq x hx := by
    obtain ⟨_, _, _, _, _, _, rfl⟩ := exists_fastenerAt j policy hx
    rfl
  pose_eq x hx := by
    obtain ⟨_, _, _, _, _, _, rfl⟩ := exists_fastenerAt j policy hx
    rfl
  source_eq x hx := by
    obtain ⟨_, _, _, _, _, _, rfl⟩ := exists_fastenerAt j policy hx
    exact ⟨rfl, rfl⟩

end Adds

/-- Some joints are the connections of constraints, and their fasteners are all that there are. -/
structure Fastened (instances : List Instance) (constraints : List Constraint)
    (placements : List Placement) (policy : FastenerPolicy Float) (connected : List Joint) :
    Prop where
  fasteners : synthesize instances constraints placements policy =
    connected.flatMap (·.fasteners policy)
  adds : ∀ j ∈ connected, j.Adds policy (j.fasteners policy)
  joins : ∀ j ∈ connected, j.Joins instances placements
  /-- connections stand in the order of the constraints -/
  order : (connected.map (·.constraint)).Sublist constraints
  /-- a pair has the connection of its preferred qualifying constraint and no other -/
  once : ∀ p, joining (connected.map (·.constraint)) p =
    (preferred? (joining (constraints.filter (·.Qualifies instances placements)) p)).toList
  /-- no pair with a qualifying constraint is left out -/
  covers : ∀ c ∈ constraints, c.Qualifies instances placements →
    ∃ j ∈ connected, j.constraint.sides = c.sides

section Fastened

variable (instances : List Instance) {constraints : List Constraint} (placements : List Placement)

/-- The connections of a pair among those that are made. -/
theorem joining_qualifyingJoints (hids : (constraints.map (·.id)).Nodup) (p : Sym2 String) :
    joining ((connections (qualifyingJoints instances constraints placements)).map (·.constraint))
        p =
      (preferred? (joining (constraints.filter (·.Qualifies instances placements)) p)).toList := by
  rw [joining_connections, map_constraint_qualifyingJoints]
  rw [map_constraint_qualifyingJoints]
  exact hids.sublist (List.filter_sublist.map _)

/-- Leaving out the rest keeps the order of the constraints. -/
theorem map_constraint_connections_sublist :
    ((connections (qualifyingJoints instances constraints placements)).map
      (·.constraint)).Sublist constraints := by
  have hsub : ((connections (qualifyingJoints instances constraints placements)).map
      (·.constraint)).Sublist (constraints.filter (·.Qualifies instances placements)) := by
    rw [← map_constraint_qualifyingJoints]
    exact List.filter_sublist.map _
  exact hsub.trans List.filter_sublist

/-- A qualifying constraint has a connection between its sides. -/
theorem exists_connection {c : Constraint} (hc : c ∈ constraints)
    (hqualifies : c.Qualifies instances placements) :
    ∃ j ∈ connections (qualifyingJoints instances constraints placements),
      j.constraint.sides = c.sides := by
  let joints := qualifyingJoints instances constraints placements
  have hmem : c ∈ joining (joints.map (·.constraint)) c.sides := by
    rw [map_constraint_qualifyingJoints]
    exact mem_joining.mpr ⟨List.mem_filter.mpr ⟨hc, by simpa using hqualifies⟩, rfl⟩
  obtain ⟨d, hd⟩ := Option.isSome_iff_exists.mp (preferred?_isSome.mpr (List.ne_nil_of_mem hmem))
  obtain ⟨hjoints, hsides⟩ := mem_joining.mp (mem_of_preferred? hd)
  obtain ⟨j, hj, rfl⟩ := List.mem_map.mp hjoints
  refine ⟨j, List.mem_filter.mpr ⟨hj, ?_⟩, hsides⟩
  rw [findChoice?_choices, hsides, hd]
  exact beq_self_eq_true j.constraint.id

end Fastened

/-- Every pair with a qualifying constraint is fastened exactly once, whatever the order of the
constraints and the direction of each. -/
theorem fastened_connections (instances : List Instance) (constraints : List Constraint)
    (placements : List Placement) (policy : FastenerPolicy Float)
    (hids : (constraints.map (·.id)).Nodup) :
    Fastened instances constraints placements policy
      (connections (qualifyingJoints instances constraints placements)) where
  fasteners := rfl
  adds j _ := adds_fasteners j policy
  joins _ hj := joins_of_mem_qualifyingJoints (List.mem_filter.mp hj).1
  order := map_constraint_connections_sublist instances placements
  once p := joining_qualifyingJoints instances placements hids p
  covers _ hc hqualifies := exists_connection instances placements hc hqualifies

/-- Of a pair joined in both directions the later constraint is fastened because it asks for it, and
a pair that no constraint asks for has its first. -/
theorem fastened_connections_opposite :
    let instances : List Instance :=
      [{ id := "A", partId := "FL-50", name := "Flange", family := .flange },
       { id := "B", partId := "FL-50", name := "Flange", family := .flange },
       { id := "C", partId := "FL-80", name := "Flange", family := .flange }]
    let placements : List Placement :=
      instances.map fun i ↦ ⟨i.id, ⟨.zero, .zero⟩, .base⟩
    let constraints :=
      [Constraint.manual 0 "A" "B" .concentric {}, Constraint.manual 1 "B" "C" .coincident {},
       Constraint.manual 2 "B" "A" .coincident { fasteners := some { boltCount := some 2 } },
       Constraint.manual 3 "C" "B" .distance {}]
    (constraints.map (·.id)).Nodup ∧
      Fastened instances constraints placements .default
        (connections (qualifyingJoints instances constraints placements)) ∧
      (connections (qualifyingJoints instances constraints placements)).map (·.constraint.id) =
        ["C002", "C003"] := by
  intro instances placements constraints
  have hids : (constraints.map (·.id)).Nodup := by decide
  exact ⟨hids, fastened_connections instances constraints placements .default hids, by decide⟩

end PipingAssembly
