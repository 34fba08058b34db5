import PipingAssembly.Proofs.Fasteners.Connections
import PipingAssembly.Proofs.Solver.Solution

/-!
# Connections between placed sides

Only the target of a constraint is asked to be placed before it gets fasteners. A constraint whose
source has no placement may thus have a connection, but never in place of another one: the
constraints of a pair have the same two sides, so either all of them have both sides placed or none.
-/

namespace PipingAssembly

/-- Both sides of a constraint are among some ids. -/
def Constraint.SidesIn (c : Constraint) (ids : List String) : Prop :=
  c.entityA ∈ ids ∧ c.entityB ∈ ids

instance (c : Constraint) (ids : List String) : Decidable (c.SidesIn ids) :=
  inferInstanceAs (Decidable (_ ∧ _))

/-- Both sides of a constraint are instances that have been placed. -/
def Constraint.Stands (c : Constraint) (instances : List Instance) (placements : List Placement) :
    Prop :=
  c.SidesIn (instances.map (·.id)) ∧ c.SidesIn (placements.map (·.instanceId))

instance (c : Constraint) (instances : List Instance) (placements : List Placement) :
    Decidable (c.Stands instances placements) :=
  inferInstanceAs (Decidable (_ ∧ _))

/-- The direction of a constraint does not matter for what its sides are among. -/
theorem Constraint.sidesIn_congr {c d : Constraint} (h : c.sides = d.sides) (ids : List String) :
    c.SidesIn ids ↔ d.SidesIn ids := by
  unfold sides at h
  unfold SidesIn
  rcases Sym2.eq_iff.mp h with ⟨ha, hb⟩ | ⟨ha, hb⟩
  · rw [ha, hb]
  · rw [ha, hb, and_comm]

section Placed

variable {instances : List Instance} {placements : List Placement}

theorem Constraint.stands_congr {c d : Constraint} (h : c.sides = d.sides) :
    c.Stands instances placements ↔ d.Stands instances placements :=
  and_congr (sidesIn_congr h _) (sidesIn_congr h _)

/-- A qualifying constraint lacks at most the placement of its source. -/
theorem Constraint.Qualifies.stands_iff {c : Constraint} (h : c.Qualifies instances placements) :
    c.Stands instances placements ↔ c.entityA ∈ placements.map (·.instanceId) := by
  constructor
  · intro hstands
    exact hstands.2.1
  · intro hsource
    exact ⟨⟨h.source_mem, h.target_mem⟩, hsource, h.target_placed⟩

theorem qualifies_of_mem_connections {constraints : List Constraint} {j : Joint}
    (h : j ∈ connections (qualifyingJoints instances constraints placements)) :
    j.constraint ∈ constraints ∧ j.constraint.Qualifies instances placements := by
  have hmem := List.mem_map_of_mem (f := (·.constraint)) (List.mem_of_mem_filter h)
  rw [map_constraint_qualifyingJoints, List.mem_filter, decide_eq_true_eq] at hmem
  exact hmem

/-! ### Leaving constraints out -/

section Filter

variable {keep : Constraint → Bool}

/-- The joints of the constraints that are kept. -/
theorem qualifyingJoints_filter (constraints : List Constraint) :
    qualifyingJoints instances (constraints.filter keep) placements =
      (qualifyingJoints instances constraints placements).filter (keep ·.constraint) := by
  unfold qualifyingJoints
  induction constraints with
  | nil => rfl
  | cons c cs ih =>
    cases hj : joint? instances placements c with
    | none =>
      rw [List.filterMap_cons_none hj, ← ih, List.filter_cons]
      split
      · rw [List.filterMap_cons_none hj]
      · rfl
    | some j =>
      obtain rfl := (joint?_eq_some.mp hj).1
      rw [List.filterMap_cons_some hj, List.filter_cons, List.filter_cons, ← ih]
      split
      · rw [List.filterMap_cons_some hj]
      · rfl

variable (hkeep : ∀ {c d : Constraint}, c.sides = d.sides → keep c = keep d)
include hkeep

/-- A pair that is kept has all its constraints. -/
theorem joining_filter {c : Constraint} (hc : keep c = true) (cs : List Constraint) :
    joining (cs.filter keep) c.sides = joining cs c.sides := by
  unfold joining
  rw [List.filter_filter]
  apply List.filter_congr
  intro d _
  by_cases hd : d.sides = c.sides
  · simp [hd, hkeep hd, hc]
  · simp [hd]

/-- Leaving out whole pairs leaves out their connections and no others. -/
theorem connections_filter (joints : List Joint) :
    connections (joints.filter (keep ·.constraint)) =
      (connections joints).filter (keep ·.constraint) := by
  have hmap : (joints.filter (keep ·.constraint)).map (·.constraint) =
      (joints.map (·.constraint)).filter keep := by
    rw [List.filter_map]
    rfl
  simp only [connections, findChoice?_choices, hmap, List.filter_filter]
  apply List.filter_congr
  intro j _
  cases hj : keep j.constraint with
  | false => rw [Bool.and_false, Bool.false_and]
  | true => rw [joining_filter hkeep hj, Bool.and_true, Bool.true_and]

end Filter

/-- The connections between placed sides are those that there are without all other constraints. -/
theorem filter_stands_connections (constraints : List Constraint) :
    (connections (qualifyingJoints instances constraints placements)).filter
        (·.constraint.Stands instances placements) =
      connections (qualifyingJoints instances (constraints.filter (·.Stands instances placements))
        placements) := by
  let keep : Constraint → Bool := fun c ↦ c.Stands instances placements
  have hkeep : ∀ {c d : Constraint}, c.sides = d.sides → keep c = keep d :=
    fun h ↦ decide_eq_decide.mpr (Constraint.stands_congr h)
  rw [qualifyingJoints_filter]
  exact (connections_filter hkeep _).symm

end Placed

/-- Every connection is of a constraint between instances whose target is placed. Those between
placed sides are what there is without all other constraints, and there are others exactly if some
qualifying constraint has a source that is not placed. -/
theorem standing_connections (instances : List Instance) (constraints : List Constraint)
    (placements : List Placement) (policy : FastenerPolicy Float) :
    let made := connections (qualifyingJoints instances constraints placements)
    let standing := constraints.filter (·.Stands instances placements)
    synthesize instances constraints placements policy = made.flatMap (·.fasteners policy) ∧
    (∀ j ∈ made, j.constraint ∈ constraints ∧
      j.constraint.SidesIn (instances.map (·.id)) ∧
      j.constraint.entityB ∈ placements.map (·.instanceId)) ∧
    synthesize instances standing placements policy =
      (made.filter (·.constraint.Stands instances placements)).flatMap (·.fasteners policy) ∧
    ((∀ j ∈ made, j.constraint.Stands instances placements) ↔
      ∀ c ∈ constraints, c.Qualifies instances placements →
        c.entityA ∈ placements.map (·.instanceId)) := by
  intro made standing
  refine ⟨rfl, ?_, ?_, ?_⟩
  · intro j hj
    obtain ⟨hmem, hqualifies⟩ := qualifies_of_mem_connections hj
    exact ⟨hmem, ⟨hqualifies.source_mem, hqualifies.target_mem⟩, hqualifies.target_placed⟩
  · rw [filter_stands_connections]
    rfl
  · constructor
    · intro hall c hc hqualifies
      obtain ⟨j, hj, hsides⟩ := exists_connection instances placements hc hqualifies
      apply hqualifies.stands_iff.mp
      exact (Constraint.stands_congr hsides).mp (hall j hj)
    · intro hplaced j hj
      obtain ⟨hmem, hqualifies⟩ := qualifies_of_mem_connections hj
      exact hqualifies.stands_iff.mpr (hplaced _ hmem hqualifies)

/-- Two flanges of which only the second is placed are connected all the same. -/
theorem standing_connections_unplacedSource :
    let instances : List Instance :=
      [{ id := "FL-A", partId := "FL-50", name := "Flange", family := .flange },
       { id := "FL-B", partId := "FL-50", name := "Flange", family := .flange }]
    let placements : List Placement := [⟨"FL-B", .origin, .base⟩]
    let constraints := [Constraint.manual 0 "FL-A" "FL-B" .concentric {}]
    let made := connections (qualifyingJoints instances constraints placements)
    made.map (·.constraint.id) = ["C001"] ∧
      (∃ j ∈ made, ¬ j.constraint.Stands instances placements) ∧
      synthesize instances (constraints.filter (·.Stands instances placements)) placements
        .default = [] := by
  intro instances placements constraints made
  have hmade : made.map (·.constraint.id) = ["C001"] := by decide
  obtain ⟨-, -, hstanding, hiff⟩ :=
    standing_connections instances constraints placements .default
  have hnone : made.filter (·.constraint.Stands instances placements) = [] := by decide
  refine ⟨hmade, ?_, ?_⟩
  · by_contra hall
    push Not at hall
    have hsource := hiff.mp hall _ List.mem_cons_self (by decide)
    exact absurd hsource (by decide)
  · rw [hstanding, hnone]
    rfl

/-- After all instances have been placed every connection is between placed sides. -/
theorem stands_of_solve {instances : List Instance} {constraints : List Constraint}
    {policy : SolverPolicy Float} {s : Solution} (h : solve instances constraints policy = .ok s)
    {j : Joint} (hj : j ∈ connections (qualifyingJoints instances constraints s.placements)) :
    j.constraint.Stands instances s.placements := by
  obtain ⟨-, rfl⟩ := solve_eq_ok.mp h
  have hqualifies := (qualifies_of_mem_connections hj).2
  rw [hqualifies.stands_iff, map_instanceId_solution]
  exact hqualifies.source_mem

end PipingAssembly
