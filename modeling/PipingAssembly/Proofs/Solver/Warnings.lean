import PipingAssembly.Proofs.Solver.Solution

/-!
# What solving warns about

Each side of a constraint that names no instance is reported once for the id of its constraint, in
the order in which these sides first come up. After them comes one warning for each instance on the
grid. A constraint that cannot be used has no part in anything else: without it the same instances
are placed in the same way, in as many passes.
-/

namespace PipingAssembly

/-! ### Unknown sides -/

/-- The sides of constraints in order, the source before the target, with the ids of the
constraints. -/
def sidesOf (constraints : List Constraint) : List (String × String) :=
  constraints.flatMap fun c ↦ [(c.id, c.entityA), (c.id, c.entityB)]

/-- Some sides are those that name no instance: each one once, in the order in which they first come
up. -/
structure ReportsUnknown (instances : List Instance) (constraints : List Constraint)
    (sides : List (String × String)) : Prop where
  mem_iff : ∀ e, e ∈ sides ↔ e ∈ sidesOf constraints ∧ e.2 ∉ idsOf instances
  nodup : sides.Nodup
  sorted : sides.Pairwise fun e f ↦ (sidesOf constraints).idxOf e < (sidesOf constraints).idxOf f

section Unknown

variable (instances : List Instance) (constraints : List Constraint)

/-- An id without an index is that of no instance. -/
theorem instanceIndex?_eq_none_iff {id : String} :
    instanceIndex? instances id = none ↔ id ∉ idsOf instances := by
  constructor
  · intro hnone hid
    obtain ⟨i, hi⟩ := exists_instanceIndex? hid
    rw [hnone] at hi
    cases hi
  · intro hid
    cases hindex : instanceIndex? instances id with
    | none => rfl
    | some i => exact absurd (List.mem_of_getElem? (getElem?_of_instanceIndex? hindex)) hid

theorem unknownEndpoints_eq :
    unknownEndpoints instances constraints =
      ((sidesOf constraints).filter fun e ↦ (instanceIndex? instances e.2).isNone).eraseDups := by
  rw [unknownEndpoints, sidesOf, List.filter_flatMap]

theorem reportsUnknown_unknownEndpoints :
    ReportsUnknown instances constraints (unknownEndpoints instances constraints) := by
  have hsorted := pairwise_idxOf_eraseDups_filter
    (fun e ↦ (instanceIndex? instances e.2).isNone) (sidesOf constraints)
  rw [← unknownEndpoints_eq] at hsorted
  refine ⟨fun e ↦ ?_, hsorted.imp fun hlt heq ↦ ?_, hsorted⟩
  · rw [unknownEndpoints_eq, List.mem_eraseDups, List.mem_filter, Option.isNone_iff_eq_none,
      instanceIndex?_eq_none_iff]
  · rw [heq] at hlt
    exact Nat.lt_irrefl _ hlt

end Unknown

/-! ### Constraints that cannot be used -/

instance (c : Constraint) (instances : List Instance) : Decidable (c.Usable instances) :=
  decidable_of_iff
    (c.entityA ∈ idsOf instances ∧ c.entityB ∈ idsOf instances ∧ c.entityA ≠ c.entityB)
    ⟨fun h ↦ ⟨h.1, h.2.1, h.2.2⟩, fun h ↦ ⟨h.source_mem, h.target_mem, h.ne⟩⟩

section Usable

variable (instances : List Instance) (constraints : List Constraint) (policy : SolverPolicy Float)

/-- The links are those of the constraints that can be used. -/
theorem links_filter_usable :
    links instances (constraints.filter fun c ↦ c.Usable instances) =
      links instances constraints := by
  rw [links, links, List.filterMap_filter]
  refine List.filterMap_congr fun c hc ↦ ?_
  split
  · rfl
  · next hunusable =>
    symm
    refine Option.eq_none_iff_forall_ne_some.mpr fun l hl ↦ hunusable ?_
    have hlink : l ∈ links instances [c] :=
      List.mem_filterMap.mpr ⟨c, List.mem_singleton_self c, hl⟩
    obtain ⟨hmem, hjoins⟩ := joins_of_mem_links hlink
    rw [← List.mem_singleton.mp hmem]
    exact decide_eq_true hjoins.usable

/-- Constraints that cannot be used do not change the placements before the grid is filled. -/
theorem spread_filter_usable :
    spread instances (constraints.filter fun c ↦ c.Usable instances) policy =
      spread instances constraints policy := by
  rw [spread, spread, baseOf, baseOf, links_filter_usable]

end Usable

/-! ### Warnings about the grid -/

/-- A warning tells which slot of the grid a placement has, and where that is. -/
def Warning.TellsOf (w : Warning) (p : Placement) : Prop :=
  ∃ slot, p.source = .fallback slot ∧
    w = .fallbackPlacement p.instanceId slot p.pose.position

/-- There is one warning for each placement on the grid, in their order. -/
theorem forall₂_fallbackWarning? (ps : List Placement) :
    List.Forall₂ Warning.TellsOf (ps.filterMap (·.fallbackWarning?))
      (ps.filter (·.isFallback)) := by
  induction ps with
  | nil => exact .nil
  | cons p ps ih =>
    cases hsource : p.source with
    | fallback slot =>
      have hwarning : p.fallbackWarning? =
          some (.fallbackPlacement p.instanceId slot p.pose.position) := by
        rw [Placement.fallbackWarning?, hsource]
      have hfallback : p.isFallback = true := by
        rw [Placement.isFallback, hsource]
      rw [List.filterMap_cons_some hwarning, List.filter_cons_of_pos hfallback]
      exact .cons ⟨slot, hsource, rfl⟩ ih
    | base | constraint | synthesized =>
      have hwarning : p.fallbackWarning? = none := by
        rw [Placement.fallbackWarning?, hsource]
      have hfallback : ¬ p.isFallback = true := by
        simp [Placement.isFallback, hsource]
      rw [List.filterMap_cons_none hwarning, List.filter_cons_of_neg hfallback]
      exact ih

/-- With distinct ids solving warns about the sides that name no instance, each one once for a
constraint id and in the order in which they first come up, and then about the placements on the
grid, in the order of the instances. Without the constraints that name an unknown instance, or the
same one twice, it gives the same placements and the same base after as many passes. -/
theorem warnings_solve (instances : List Instance) (constraints : List Constraint)
    (policy : SolverPolicy Float) (hids : (idsOf instances).Nodup) :
    ∃ s sides grid, solve instances constraints policy = .ok s ∧
      s.warnings = sides.map (fun e ↦ .unknownEndpoint e.1 e.2) ++ grid ∧
      ReportsUnknown instances constraints sides ∧
      s.placements.map (·.instanceId) = idsOf instances ∧
      List.Forall₂ Warning.TellsOf grid (s.placements.filter (·.isFallback)) ∧
      ∃ t, solve instances (constraints.filter fun c ↦ c.Usable instances) policy = .ok t ∧
        t.placements = s.placements ∧ t.base = s.base ∧ t.passes = s.passes := by
  refine ⟨solution instances constraints policy, _, _, solve_eq_ok.mpr ⟨hids, rfl⟩, rfl,
    reportsUnknown_unknownEndpoints instances constraints, map_instanceId_solution _ _ _,
    forall₂_fallbackWarning? _,
    solution instances (constraints.filter fun c ↦ c.Usable instances) policy,
    solve_eq_ok.mpr ⟨hids, rfl⟩, ?_, ?_, ?_⟩
  · rw [solution, solution, spread_filter_usable]
  · rw [solution, solution, baseOf, baseOf, links_filter_usable]
  · rw [solution, solution, spread_filter_usable]

/-- Two constraints share an id and an unknown target, one names two unknown instances and another
joins an instance to itself. The third instance cannot be reached. -/
theorem warnings_solve_ghosts :
    let flange (id : String) : Instance := { id, partId := "FL-50", name := "Flange" }
    let instances := ["A", "B", "C"].map flange
    let joint (id a b : String) : Constraint :=
      { id, entityA := a, entityB := b, type := .concentric, ruleId := "R", ruleName := "R"
        confidence := 1 }
    let constraints := [joint "C2" "A" "X", joint "C1" "C" "C", joint "C2" "B" "X",
      joint "C1" "X" "Y", joint "C3" "B" "A"]
    (idsOf instances).Nodup ∧
      ∃ s sides grid, solve instances constraints .default = .ok s ∧
        s.warnings = sides.map (fun e ↦ .unknownEndpoint e.1 e.2) ++ grid ∧
        ReportsUnknown instances constraints sides ∧
        s.placements.map (·.instanceId) = idsOf instances ∧
        List.Forall₂ Warning.TellsOf grid (s.placements.filter (·.isFallback)) ∧
        ∃ t, solve instances [joint "C3" "B" "A"] .default = .ok t ∧
          t.placements = s.placements ∧ t.base = s.base ∧ t.passes = s.passes := by
  intro flange instances joint constraints
  have hids : (idsOf instances).Nodup := by decide
  have hkept : constraints.filter (fun c ↦ c.Usable instances) = [joint "C3" "B" "A"] := rfl
  have h := warnings_solve instances constraints .default hids
  rw [hkept] at h
  exact ⟨hids, h⟩

end PipingAssembly
