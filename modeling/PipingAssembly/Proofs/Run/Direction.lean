import PipingAssembly.Proofs.Fasteners.Connections
import PipingAssembly.Proofs.Run.Outcome
import PipingAssembly.Proofs.Solver.Base
import PipingAssembly.Proofs.Solver.Trails

/-!
# The base of a run

Whether a run takes its constraints from a catalog or from an exchange file, they lead from an
instance to a later one. So the base is the first instance that a constraint names, no constraint
joins an instance to itself, and the solver never meets an instance that it does not know.
-/

namespace PipingAssembly

/-! ### Warnings that are not about constraints -/

theorem exists_of_mem_dnMismatches {instances : List Instance} {constraints : List Constraint}
    {w : Warning} (h : w ∈ dnMismatches instances constraints) :
    ∃ id a dnA b dnB, w = .dnMismatch id a dnA b dnB := by
  obtain ⟨c, -, hc⟩ := List.mem_filterMap.mp h
  simp only [Option.bind_eq_bind, Option.bind_eq_some_iff, Option.ite_none_left_eq_some,
    Option.some.injEq] at hc
  obtain ⟨_, -, dnA, -, _, -, dnB, -, -, hw⟩ := hc
  exact ⟨c.id, c.entityA, dnA, c.entityB, dnB, hw.symm⟩

theorem exists_of_fallbackWarning? {p : Placement} {w : Warning}
    (h : p.fallbackWarning? = some w) :
    ∃ id slot position, w = .fallbackPlacement id slot position := by
  rw [Placement.fallbackWarning?] at h
  split at h
  · exact ⟨_, _, _, (Option.some.inj h).symm⟩
  · cases h

theorem exists_of_partGeometry {meshes : Option MeshSource} {i : Instance} {w : Warning}
    (h : (partGeometry meshes i).2 = some w) :
    ∃ partId reason, w = .geometryUnavailable partId reason := by
  rw [partGeometry] at h
  split at h
  · cases h
  · exact ⟨_, _, (Option.some.inj h).symm⟩
  · cases h

/-! ### Runs -/

/-- The first instance of a run that a constraint names, or without constraints the first instance.
-/
def Run.anchor? (r : Run) : Option Instance :=
  if r.constraints.isEmpty then r.instances.head?
  else r.instances.find? fun i ↦ r.constraints.any (·.touches i.id)

/-- A run spreads from its anchor along constraints that lead to later instances. -/
structure Run.Directed (r : Run) : Prop where
  /-- the anchor is the base of the report, and it alone has the placement of a base -/
  base : ∃ b, r.anchor? = some b ∧ r.report.base = some b.id ∧
    r.placements.filter (·.source = .base) = [⟨b.id, .origin, .base⟩]
  leadsOn : ∀ c ∈ r.constraints, c.LeadsOn (idsOf r.instances)
  irreflexive : ∀ c ∈ r.constraints, c.entityA ≠ c.entityB
  /-- no side of a constraint is reported as unknown, neither by the run nor with its scene -/
  known : ∀ constraintId instanceId, .unknownEndpoint constraintId instanceId ∉ r.warnings ∧
    ∀ meshes, .unknownEndpoint constraintId instanceId ∉ (r.exportScene meshes).2.warnings

namespace RunContext

variable {c : RunContext} {instances : List Instance} {constraints : List Constraint}

/-- Whatever a context generates leads to later instances. -/
theorem Generates.rising {mode : Mode} (h : c.Generates mode instances constraints)
    (hids : (idsOf instances).Nodup) : Rising (idsOf instances) constraints := by
  cases h with
  | catalog hparts =>
    rw [idsOf_map_ofPart]
    exact rising_generateCatalog c.parts c.rules c.policy.matching
  | exchange text hinstances => exact (consecutive_generateSequential hids).rising

section Finished

variable {name : String} {mode : Mode} {warnings : List Warning}

/-- What is added has placements of its own kind. -/
theorem source_of_mem_added {p : Placement}
    (hp : p ∈ (c.added instances constraints).map (·.2)) :
    ∃ connectionId, p.source = .synthesized connectionId := by
  obtain ⟨x, hx, rfl⟩ := List.mem_map.mp hp
  obtain ⟨j, -, hj⟩ := List.mem_flatMap.mp hx
  exact ⟨_, ((adds_fasteners j _).source_eq x hj).1⟩

/-- No base is added. -/
theorem filter_base_finished :
    (c.finished name mode instances constraints warnings).placements.filter (·.source = .base) =
      (solution instances constraints c.policy.solver).placements.filter (·.source = .base) := by
  have hnone : ((c.added instances constraints).map (·.2)).filter (·.source = .base) = [] := by
    refine List.filter_eq_nil_iff.mpr fun p hp ↦ ?_
    obtain ⟨connectionId, hsource⟩ := source_of_mem_added hp
    simp [hsource]
  rw [finished, List.filter_append, hnone, List.append_nil]

private theorem anchor?_finished :
    (c.finished name mode instances constraints warnings).anchor? =
      let all := instances ++ (c.added instances constraints).map (·.1)
      if constraints.isEmpty then all.head?
      else all.find? fun i ↦ constraints.any (·.touches i.id) :=
  rfl

/-- The anchor is the base of the solution. -/
theorem exists_anchor (hrise : Rising (idsOf instances) constraints)
    (hids : (idsOf instances).Nodup) (hne : instances ≠ []) :
    ∃ b, (c.finished name mode instances constraints warnings).anchor? = some b ∧
      (solution instances constraints c.policy.solver).base = some b.id := by
  cases constraints with
  | nil =>
    obtain ⟨b, hhead, hbase⟩ := exists_base_of_nil hne
    refine ⟨b, ?_, ?_⟩
    · rw [anchor?_finished, List.isEmpty_nil, if_pos rfl, List.head?_append, hhead]
      rfl
    · rw [solution, hbase, Option.bind_some, ← List.head?_eq_getElem?, hhead]
      rfl
  | cons d ds =>
    obtain ⟨i, b, hbase, hb, hfirst⟩ := exists_base_of_ne_nil hrise hids (List.cons_ne_nil d ds)
    refine ⟨b, ?_, ?_⟩
    · rw [anchor?_finished, List.isEmpty_cons, if_neg Bool.false_ne_true, List.find?_append, hfirst]
      rfl
    · rw [solution, hbase, Option.bind_some, hb]
      rfl

/-- After the warnings given before there are those of solving and those about nominal diameters. -/
theorem mem_warnings_finished {w : Warning}
    (h : w ∈ (c.finished name mode instances constraints warnings).warnings) :
    w ∈ warnings ∨ (∃ e ∈ unknownEndpoints instances constraints, w = .unknownEndpoint e.1 e.2) ∨
      (∃ id slot position, w = .fallbackPlacement id slot position) ∨
      ∃ id a dnA b dnB, w = .dnMismatch id a dnA b dnB := by
  rw [finished, solution, List.mem_append, List.mem_append, List.mem_append] at h
  obtain (hbefore | hunknown | hgrid) | hdn := h
  · exact Or.inl hbefore
  · obtain ⟨e, he, hw⟩ := List.mem_map.mp hunknown
    exact Or.inr (Or.inl ⟨e, he, hw.symm⟩)
  · obtain ⟨p, -, hp⟩ := List.mem_filterMap.mp hgrid
    exact Or.inr (Or.inr (Or.inl (exists_of_fallbackWarning? hp)))
  · exact Or.inr (Or.inr (Or.inr (exists_of_mem_dnMismatches hdn)))

/-- Where all constraints lead to later instances no side of them is unknown. -/
theorem unknownEndpoint_notMem_finished (hrise : Rising (idsOf instances) constraints)
    (hids : (idsOf instances).Nodup)
    (hwarnings : ∀ w ∈ warnings, ∃ file, w = .emptyExchangeFile file)
    (constraintId instanceId : String) :
    .unknownEndpoint constraintId instanceId ∉
      (c.finished name mode instances constraints warnings).warnings := by
  intro h
  obtain hbefore | ⟨e, he, -⟩ | ⟨_, _, _, hw⟩ | ⟨_, _, _, _, _, hw⟩ := mem_warnings_finished h
  · obtain ⟨file, hfile⟩ := hwarnings _ hbefore
    cases hfile
  · rw [hrise.unknownEndpoints_eq_nil hids] at he
    cases he
  · cases hw
  · cases hw

end Finished

/-- Writing a scene warns about meshes only. -/
theorem unknownEndpoint_notMem_exportScene {r : Run} {constraintId instanceId : String}
    (h : .unknownEndpoint constraintId instanceId ∉ r.warnings) (meshes : Option MeshSource) :
    .unknownEndpoint constraintId instanceId ∉ (r.exportScene meshes).2.warnings := by
  intro hmem
  obtain hmem | hmem := List.mem_append.mp hmem
  · exact h hmem
  · obtain ⟨i, -, hi⟩ := List.mem_filterMap.mp hmem
    obtain ⟨_, _, hw⟩ := exists_of_partGeometry hi
    cases hw

/-- Every run is directed, from a catalog and from an exchange file alike. -/
theorem Yields.directed {r : Run} (h : c.Yields r) : r.Directed := by
  obtain ⟨name, mode, instances, constraints, warnings, hgenerates, hids, rfl, hwarnings⟩ :=
    h.exists_generates
  have hrise := hgenerates.rising hids
  refine ⟨?_, fun d hd ↦ ?_, fun d hd ↦ (hrise.leadsOn hids hd).ne,
    fun constraintId instanceId ↦ ?_⟩
  · obtain ⟨b, hanchor, hbase⟩ := exists_anchor hrise hids hgenerates.ne_nil
    obtain ⟨b', -, hbase', hfilter⟩ := filter_base hids hgenerates.ne_nil
    refine ⟨b, hanchor, hbase, ?_⟩
    rw [hbase] at hbase'
    rw [filter_base_finished, hfilter, Option.some.inj hbase']
    rfl
  · rw [finished, idsOf_append]
    exact (hrise.leadsOn hids hd).append _
  · have hunknown : .unknownEndpoint constraintId instanceId ∉
        (c.finished name mode instances constraints warnings).warnings :=
      unknownEndpoint_notMem_finished hrise hids hwarnings constraintId instanceId
    exact ⟨hunknown, unknownEndpoint_notMem_exportScene hunknown⟩

/-- A valve comes first in the catalog, but no rule names it: the base is the flange behind it. -/
theorem directed_flanges :
    let rule : Rule :=
      { id := "R-FLANGES", name := "Flanges"
        condition := .both { field := "family", value := some "flange" }
        action := { type := .coincident } }
    let c : RunContext :=
      { parts := [{ id := "V-50", family := .valve }, { id := "F-50", family := .flange },
          { id := "F-80", family := .flange }]
        rules := [rule] }
    ∃ r, c.Yields r ∧ r.Directed ∧ r.report.base = some "F-50" := by
  intro rule c
  let r := c.finished "catalog" .catalog (c.parts.map .ofPart)
    (generateCatalog c.parts c.rules c.policy.matching) []
  have hrun : c.runCatalog = .ok r :=
    assembleCatalog_eq_ok.mpr
      ⟨List.cons_ne_nil _ _, rfl, finish_eq_ok.mpr ⟨rfl, rfl, by decide, rfl⟩⟩
  have hyields : c.Yields r := .catalog hrun
  exact ⟨r, hyields, hyields.directed, by decide⟩

end RunContext

end PipingAssembly
