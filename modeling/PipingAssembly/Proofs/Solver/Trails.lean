import PipingAssembly.Proofs.Lists
import PipingAssembly.Proofs.Solver.Solution

/-!
# From every placement back to the base

A solution has exactly one base, at the origin. A placement that names a constraint and an instance
has its pose by that constraint from the placement of that instance. Going from such a placement to
the one it names, and on from there, leads to the base without meeting an instance twice.
-/

namespace PipingAssembly

section Trails

variable {instances : List Instance} {constraints : List Constraint} {policy : SolverPolicy Float}

private theorem isFallback_of_source {p : Placement} {source : PlacementSource}
    (h : p.source = source) (hsource : ∀ slot, source ≠ .fallback slot) : p.isFallback = false := by
  rw [Placement.isFallback, h]
  cases source with
  | fallback slot => exact absurd rfl (hsource slot)
  | _ => rfl

theorem nodup_placements (hids : (idsOf instances).Nodup) :
    ((solution instances constraints policy).placements.map (·.instanceId)).Nodup := by
  rw [map_instanceId_solution]
  exact hids

/-- Exactly one placement has the base for its source. -/
theorem filter_base (hids : (idsOf instances).Nodup) (hne : instances ≠ []) :
    ∃ b ∈ instances, (solution instances constraints policy).base = some b.id ∧
      (solution instances constraints policy).placements.filter (·.source = .base) =
        [⟨b.id, ⟨.zero, .zero⟩, .base⟩] := by
  obtain ⟨b, inst, hb, hinst, hbase, hplaced⟩ := exists_base hne constraints policy
  refine ⟨inst, List.mem_of_getElem? hinst, hbase, ?_⟩
  apply filter_eq_singleton (List.Nodup.of_map _ (nodup_placements hids))
    (mem_placements_of_placed? hplaced)
  intro p hp
  rw [decide_eq_true_eq]
  constructor
  · intro hsource
    obtain ⟨i, hi⟩ | hfallback := mem_placements_cases hp
    · have htraced := traced_spread instances constraints policy hids
      obtain ⟨hbi, -⟩ := htraced.base_eq i p hi hsource
      rw [hb] at hbi
      cases hbi
      exact Option.some.inj (hi.symm.trans hplaced)
    · rw [isFallback_of_source hsource (by simp)] at hfallback
      cases hfallback
  · rintro rfl
    rfl

end Trails

end PipingAssembly
