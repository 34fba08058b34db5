import PipingAssembly.Proofs.Solver.Trails

/-!
# How far placements spread

Passes place exactly the instances that usable constraints connect to the base. The bound on passes
is never what stops them, since at most as many passes are run as there are instances. What is left
gets the slots of the grid in order.
-/

namespace PipingAssembly

/-- Placements have spread as far as the constraints connect the instances. -/
structure Solution.Spreads (s : Solution) (instances : List Instance)
    (constraints : List Constraint) (policy : SolverPolicy Float) : Prop where
  /-- one placement for each instance, in order -/
  ids_eq : s.placements.map (·.instanceId) = idsOf instances
  /-- one of the instances is the base, unless there are none -/
  base : instances ≠ [] →
    ∃ b ∈ instances, s.base = some b.id ∧ ⟨b.id, .origin, .base⟩ ∈ s.placements
  /-- exactly what is connected to the base is placed by constraints -/
  constraint_iff : ∀ p ∈ s.placements, s.base ≠ some p.instanceId →
    ((∃ constraintId originId, p.source = .constraint constraintId originId) ↔
      ∃ b, s.base = some b ∧ Connected instances constraints b p.instanceId)
  /-- all else is on the grid -/
  isFallback : ∀ p ∈ s.placements, s.base ≠ some p.instanceId →
    (¬ ∃ constraintId originId, p.source = .constraint constraintId originId) →
      p.isFallback = true
  /-- the slots of the grid are numbered in the order of the instances -/
  grid : ∀ slot p, (s.placements.filter (·.isFallback))[slot]? = some p →
    let columns := max policy.gridColumns.toNat 1
    (∃ w : UInt64, w.toNat = slot ∧ p.source = .fallback w) ∧
      p.pose = ⟨⟨Float.ofNat (slot % columns) * policy.gridSpacing,
        Float.ofNat (slot / columns) * policy.gridSpacing, 0⟩, .zero⟩
  /-- no more passes are run than there are instances -/
  passes_le : s.passes ≤ instances.length

section Reach

variable {instances : List Instance} {constraints : List Constraint} {policy : SolverPolicy Float}

theorem PlacedFrom.adjacent {p o : Placement} (h : PlacedFrom instances constraints policy p o) :
    Adjacent instances constraints o.instanceId p.instanceId := by
  obtain ⟨c, hc, husable, -, -, -, -, ⟨ho, hp, -⟩ | ⟨ho, hp, -⟩⟩ := h
  · exact ⟨c, hc, husable, Or.inl ⟨ho, hp⟩⟩
  · exact ⟨c, hc, husable, Or.inr ⟨hp, ho⟩⟩

/-- The end of a trail is connected to its start. -/
theorem Trail.connected {p : Placement} {origins : List Placement}
    (h : Trail instances constraints policy p origins) :
    ∃ b ∈ p :: origins, b.source = .base ∧
      Connected instances constraints b.instanceId p.instanceId := by
  induction origins generalizing p with
  | nil =>
    obtain ⟨hsource, -⟩ | ⟨o, rest, hcons, -⟩ := h.cases
    · exact ⟨p, List.mem_cons_self, hsource, .refl⟩
    · cases hcons
  | cons o origins ih =>
    obtain ⟨-, hnil⟩ | ⟨o', rest, hcons, hpo, hrest⟩ := h.cases
    · cases hnil
    · cases hcons
      obtain ⟨b, hb, hsource, hconnected⟩ := ih hrest
      exact ⟨b, List.mem_cons_of_mem p hb, hsource, hconnected.tail hpo.adjacent⟩

/-- With a product of 64-bit words that does not overflow there may be a pass for each instance. -/
theorem length_le_passBound (hpasses : 1 ≤ policy.passesPerPart) {count : Nat}
    (hbound : policy.passesPerPart.toNat * count < UInt64.size) :
    count ≤ passBound policy count := by
  have hpos : 1 ≤ policy.passesPerPart.toNat := UInt64.le_iff_toNat_le.mp hpasses
  have hle : count ≤ policy.passesPerPart.toNat * count := Nat.le_mul_of_pos_left count hpos
  have hcount : (UInt64.ofNat count).toNat = count :=
    UInt64.toNat_ofNat_of_lt' (Nat.lt_of_le_of_lt hle hbound)
  rw [passBound, UInt64.toNat_mul, hcount, Nat.mod_eq_of_lt hbound]
  exact hle

/-- After the passes each link has both sides placed or neither. -/
theorem settled_spread (constraints : List Constraint)
    (hbound : instances.length ≤ passBound policy instances.length) :
    (spread instances constraints policy).2.Settled (links instances constraints) ∧
      (spread instances constraints policy).1 ≤ instances.length := by
  have hlabels := labelled_initialSlots instances (baseOf instances constraints)
  have hholds : (initialSlots instances (baseOf instances constraints)).Holds
      (links instances constraints) := hlabels.holds
  have hlength : (initialSlots instances (baseOf instances constraints)).length =
      instances.length := by
    rw [hlabels.length_eq, List.length_map]
  obtain ⟨hsettled, hpasses⟩ :=
    Slots.run_settled instances policy (passBound policy instances.length) 0 hholds (by omega)
  exact ⟨hsettled, by rw [spread]; omega⟩

/-- The instance with an id has been placed. -/
def Slots.Placed (slots : Slots) (ids : List String) (id : String) : Prop :=
  ∃ i p, ids[i]? = some id ∧ slots.placed? i = some p

theorem Slots.placed_iff_isSome {slots : Slots} {ids : List String} (hids : ids.Nodup) {i : Nat}
    {id : String} (hi : ids[i]? = some id) :
    slots.Placed ids id ↔ (slots.placed? i).isSome = true := by
  rw [Option.isSome_iff_exists]
  constructor
  · rintro ⟨j, p, hj, hp⟩
    have hlt : i < ids.length := (List.getElem?_eq_some_iff.mp hi).1
    have hij : i = j := (List.getElem?_inj hlt hids).mp (hi.trans hj.symm)
    exact ⟨p, hij ▸ hp⟩
  · rintro ⟨p, hp⟩
    exact ⟨i, p, hi, hp⟩

/-- Where the links are settled a usable constraint has both sides placed or neither. -/
theorem Slots.Settled.placed_iff {slots : Slots}
    (hsettled : slots.Settled (links instances constraints)) (hids : (idsOf instances).Nodup)
    {c : Constraint} (hc : c ∈ constraints) (husable : c.Usable instances) :
    slots.Placed (idsOf instances) c.entityA ↔ slots.Placed (idsOf instances) c.entityB := by
  obtain ⟨l, hl, rfl⟩ := exists_mem_links hc husable
  have hjoins := (joins_of_mem_links hl).2
  rw [placed_iff_isSome hids hjoins.source, placed_iff_isSome hids hjoins.target, hsettled l hl]

/-- So all that is connected to something placed is placed. -/
theorem Slots.Settled.placed_of_connected {slots : Slots}
    (hsettled : slots.Settled (links instances constraints)) (hids : (idsOf instances).Nodup)
    {x y : String} (hx : slots.Placed (idsOf instances) x)
    (h : Connected instances constraints x y) : slots.Placed (idsOf instances) y := by
  induction h with
  | refl => exact hx
  | tail _ hstep ih =>
    obtain ⟨c, hc, husable, ⟨rfl, rfl⟩ | ⟨rfl, rfl⟩⟩ := hstep
    · exact (hsettled.placed_iff hids hc husable).mp ih
    · exact (hsettled.placed_iff hids hc husable).mpr ih

/-- An instance is placed by the passes exactly if it is connected to the base. -/
theorem placed_spread_iff (hids : (idsOf instances).Nodup)
    (hbound : instances.length ≤ passBound policy instances.length) (hne : instances ≠ [])
    (y : String) :
    (spread instances constraints policy).2.Placed (idsOf instances) y ↔
      ∃ b, (solution instances constraints policy).base = some b ∧
        Connected instances constraints b y := by
  obtain ⟨b, inst, hb, hinst, hbase, hplaced⟩ := exists_base hne constraints policy
  constructor
  · rintro ⟨i, p, hi, hp⟩
    have hlabels := (labelled_spread instances constraints policy).1
    have htraced := traced_spread instances constraints policy hids
    obtain ⟨origins, htrail, horigins⟩ := htraced.trail i p hp
    obtain ⟨q, hq, hsource, hconnected⟩ := htrail.connected
    have hqplaced : ∃ j, (spread instances constraints policy).2.placed? j = some q := by
      cases List.mem_cons.mp hq with
      | inl hq => exact ⟨i, hq ▸ hp⟩
      | inr hq => exact horigins q hq
    obtain ⟨j, hj⟩ := hqplaced
    obtain ⟨hbj, -⟩ := htraced.base_eq j q hj hsource
    have hqb : q = ⟨inst.id, .origin, .base⟩ := by
      rw [hb] at hbj
      cases hbj
      exact Option.some.inj (hj.symm.trans hplaced)
    have hpid : p.instanceId = y := Option.some.inj ((hlabels.id_eq i p hp).symm.trans hi)
    rw [hqb, hpid] at hconnected
    exact ⟨inst.id, hbase, hconnected⟩
  · rintro ⟨x, hx, hconnected⟩
    rw [hbase] at hx
    cases hx
    refine (settled_spread constraints hbound).1.placed_of_connected hids ?_ hconnected
    exact ⟨b, _, by rw [List.getElem?_map, hinst]; rfl, hplaced⟩

/-- What the passes have placed is the base or has been placed by a constraint. -/
theorem source_of_placed? (hids : (idsOf instances).Nodup) {i : Nat} {p : Placement}
    (hp : (spread instances constraints policy).2.placed? i = some p) :
    p.isFallback = false ∧
      ((solution instances constraints policy).base = some p.instanceId ∨
        ∃ constraintId originId, p.source = .constraint constraintId originId) := by
  have htraced := traced_spread instances constraints policy hids
  obtain ⟨origins, htrail, -⟩ := htraced.trail i p hp
  obtain ⟨hsource, -⟩ | ⟨o, rest, -, ⟨c, -, -, hsource, -⟩, -⟩ := htrail.cases
  · refine ⟨by rw [Placement.isFallback, hsource], Or.inl ?_⟩
    have hid := (labelled_spread instances constraints policy).1.id_eq i p hp
    rw [List.getElem?_map] at hid
    rw [solution, (htraced.base_eq i p hp hsource).1, Option.bind_some, hid]
  · exact ⟨by rw [Placement.isFallback, hsource], Or.inr ⟨_, _, hsource⟩⟩

/-- Placements of one instance are the same. -/
theorem eq_of_instanceId_eq (hids : (idsOf instances).Nodup) {p q : Placement}
    (hp : p ∈ (solution instances constraints policy).placements)
    (hq : q ∈ (solution instances constraints policy).placements)
    (h : p.instanceId = q.instanceId) : p = q :=
  List.inj_on_of_nodup_map (nodup_placements hids) hp hq h

/-- A placement that is not the base comes from a constraint exactly if constraints connect its
instance to the base. -/
theorem source_constraint_iff (hids : (idsOf instances).Nodup)
    (hbound : instances.length ≤ passBound policy instances.length) {p : Placement}
    (hp : p ∈ (solution instances constraints policy).placements)
    (hnotbase : (solution instances constraints policy).base ≠ some p.instanceId) :
    (∃ constraintId originId, p.source = .constraint constraintId originId) ↔
      ∃ b, (solution instances constraints policy).base = some b ∧
        Connected instances constraints b p.instanceId := by
  have hne : instances ≠ [] := by
    rintro rfl
    cases hp
  rw [← placed_spread_iff hids hbound hne]
  constructor
  · rintro ⟨constraintId, originId, hsource⟩
    obtain ⟨i, hi⟩ | hfallback := mem_placements_cases hp
    · exact ⟨i, p, (labelled_spread instances constraints policy).1.id_eq i p hi, hi⟩
    · rw [Placement.isFallback, hsource] at hfallback
      cases hfallback
  · rintro ⟨i, q, hi, hq⟩
    have hid := (labelled_spread instances constraints policy).1.id_eq i q hq
    have hpq : p = q :=
      eq_of_instanceId_eq hids hp (mem_placements_of_placed? hq)
        (Option.some.inj (hi.symm.trans hid))
    rw [hpq] at hnotbase ⊢
    exact (source_of_placed? hids hq).2.resolve_left hnotbase

/-- The grid has no more slots than there are instances. -/
theorem slot_lt {slot : Nat} {p : Placement}
    (hslot : ((solution instances constraints policy).placements.filter
      (·.isFallback))[slot]? = some p) : slot < instances.length := by
  calc slot < ((solution instances constraints policy).placements.filter (·.isFallback)).length :=
        (List.getElem?_eq_some_iff.mp hslot).1
    _ ≤ (solution instances constraints policy).placements.length := List.length_filter_le _ _
    _ = instances.length := length_placements instances constraints policy

/-- Solving instances with distinct ids succeeds and spreads placements over all that is connected
to the base: one pass for each part is always enough, however the constraints are ordered and
directed. -/
theorem exists_solve_spreads (instances : List Instance) (constraints : List Constraint)
    (policy : SolverPolicy Float) (hids : (idsOf instances).Nodup)
    (hpasses : 1 ≤ policy.passesPerPart)
    (hbound : policy.passesPerPart.toNat * instances.length < UInt64.size) :
    ∃ s, solve instances constraints policy = .ok s ∧
      s.Spreads instances constraints policy := by
  have hle := length_le_passBound hpasses hbound
  refine ⟨_, solve_eq_ok.mpr ⟨hids, rfl⟩, map_instanceId_solution _ _ _, ?_, ?_, ?_, ?_,
    (settled_spread constraints hle).2⟩
  · intro hne
    obtain ⟨b, inst, -, hinst, hbase, hplaced⟩ := exists_base hne constraints policy
    exact ⟨inst, List.mem_of_getElem? hinst, hbase, mem_placements_of_placed? hplaced⟩
  · intro p hp hnotbase
    exact source_constraint_iff hids hle hp hnotbase
  · intro p hp hnotbase hnot
    obtain ⟨i, hi⟩ | hfallback := mem_placements_cases hp
    · exact absurd ((source_of_placed? hids hi).2.resolve_left hnotbase) hnot
    · exact hfallback
  · intro slot p hslot columns
    have hgrid := getElem?_filter_fillGrid policy
      (fun i q hq ↦ (source_of_placed? hids hq).1) (k := 0) hslot
    rw [Nat.zero_add] at hgrid
    refine ⟨⟨UInt64.ofNat slot, ?_, hgrid.1⟩, hgrid.2⟩
    have hpos : 1 ≤ policy.passesPerPart.toNat := UInt64.le_iff_toNat_le.mp hpasses
    apply UInt64.toNat_ofNat_of_lt'
    calc slot < instances.length := slot_lt hslot
      _ ≤ policy.passesPerPart.toNat * instances.length := Nat.le_mul_of_pos_left _ hpos
      _ < UInt64.size := hbound

end Reach

/-- Of four instances three are connected, one of them against the direction of its constraint and
only in a second pass. The last one goes to the grid. -/
theorem exists_solve_spreads_chain :
    let instances : List Instance :=
      [{ id := "A", partId := "PP-50", name := "Pipe", family := .pipe },
       { id := "B", partId := "FL-50", name := "Flange", family := .flange },
       { id := "C", partId := "VL-50", name := "Valve", family := .valve },
       { id := "D", partId := "NT-16", name := "Nut", family := .nut }]
    let constraints :=
      [Constraint.manual 0 "C" "B" .screw {}, Constraint.manual 1 "A" "B" .concentric {},
       Constraint.manual 2 "D" "E" .other {}]
    let policy := SolverPolicy.default
    (idsOf instances).Nodup ∧ 1 ≤ policy.passesPerPart ∧
      policy.passesPerPart.toNat * instances.length < UInt64.size ∧
      ∃ s, solve instances constraints policy = .ok s ∧
        s.Spreads instances constraints policy := by
  intro instances constraints policy
  have hids : (idsOf instances).Nodup := by decide
  have hpasses : 1 ≤ policy.passesPerPart := by decide
  have hbound : policy.passesPerPart.toNat * instances.length < UInt64.size := by decide
  exact ⟨hids, hpasses, hbound,
    exists_solve_spreads instances constraints policy hids hpasses hbound⟩

end PipingAssembly
