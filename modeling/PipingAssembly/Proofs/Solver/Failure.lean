import PipingAssembly.Proofs.Solver.Solution

/-!
# When solving fails

The base, the passes and the grid fill the slot of every instance with a placement of its own id,
whichever of several instances with one id the constraints find. So no id is without a placement,
and an id has as many of them as there are instances with it. Solving fails over the ids that occur
more than once, and reports how many there are.
-/

namespace PipingAssembly

/-- The ids that occur more than once. -/
def repeatedIds (ids : List String) : Finset String := ids.toFinset.filter fun id ↦ 2 ≤ ids.count id

/-- Placements of exactly the instances are incomplete over the ids that occur more than once. -/
theorem incomplete?_self_eq_some_iff {ids : List String} {e : Incomplete} :
    incomplete? ids ids = some e ↔ ¬ ids.Nodup ∧ e = ⟨0, (repeatedIds ids).card⟩ := by
  have hmissing : (ids.toFinset.filter fun id ↦ ids.count id = 0).card = 0 := by
    rw [Finset.card_eq_zero, Finset.filter_eq_empty_iff]
    intro id hid
    exact Nat.ne_of_gt (List.count_pos_iff.mpr (List.mem_toFinset.mp hid))
  rw [incomplete?_eq_some_iff, ← incomplete?_eq_none_iff, incomplete?_self, hmissing, repeatedIds]

/-- Solving fails exactly if an id occurs more than once. Then no placement is missing, and as many
ids are reported as there are such ids. Otherwise each placement has the id of the instance at its
place. -/
theorem outcome_solve (instances : List Instance) (constraints : List Constraint)
    (policy : SolverPolicy Float) :
    (∀ e, solve instances constraints policy = .error e ↔
        (∃ id, 2 ≤ (idsOf instances).count id) ∧
          e = ⟨0, (repeatedIds (idsOf instances)).card⟩) ∧
      ∀ s, solve instances constraints policy = .ok s →
        s.placements.length = instances.length ∧
          ∀ k : Nat, s.placements[k]?.map Placement.instanceId = instances[k]?.map Instance.id := by
  have hrepeated : (∃ id, 2 ≤ (idsOf instances).count id) ↔ ¬ (idsOf instances).Nodup := by
    rw [List.nodup_iff_count]
    push Not
    rfl
  constructor
  · intro e
    rw [hrepeated, ← incomplete?_self_eq_some_iff, solve_eq]
    cases incomplete? (idsOf instances) (idsOf instances) with
    | none => exact ⟨nofun, nofun⟩
    | some e' => rw [Except.error.injEq, Option.some.injEq]
  · intro s hs
    obtain ⟨-, rfl⟩ := solve_eq_ok.mp hs
    refine ⟨length_placements _ _ _, fun k ↦ ?_⟩
    rw [← List.getElem?_map, ← List.getElem?_map, map_instanceId_solution]

/-- Of six instances two have one id and three another; four with ids of their own are placed. -/
theorem outcome_solve_repeated :
    let flange (id : String) : Instance := { id, partId := "FL-50", name := "Flange" }
    let constraints :=
      [Constraint.manual 0 "A" "B" .concentric {}, Constraint.manual 1 "C" "A" .screw {}]
    solve (["A", "B", "A", "C", "B", "B"].map flange) constraints .default = .error ⟨0, 2⟩ ∧
      ∃ s, solve (["A", "B", "C", "D"].map flange) constraints .default = .ok s ∧
        s.placements.length = 4 ∧ s.placements[3]?.map Placement.instanceId = some "D" := by
  intro flange constraints
  have hrepeated := outcome_solve (["A", "B", "A", "C", "B", "B"].map flange) constraints .default
  have hdistinct := outcome_solve (["A", "B", "C", "D"].map flange) constraints .default
  refine ⟨(hrepeated.1 _).mpr ⟨⟨"A", by decide⟩, by decide⟩, ?_⟩
  have hsolve : solve (["A", "B", "C", "D"].map flange) constraints .default =
      .ok (solution (["A", "B", "C", "D"].map flange) constraints .default) :=
    solve_eq_ok.mpr ⟨by decide, rfl⟩
  obtain ⟨hlength, hids⟩ := hdistinct.2 _ hsolve
  exact ⟨_, hsolve, hlength, hids 3⟩

end PipingAssembly
