import PipingAssembly.Proofs.Run.Lookups

/-!
# The counts of a run

The instances of a run are its base, those placed through a constraint, those on the grid and those
that were added. The counts are taken at several places: from what is added, from the entries of the
report, and from the warnings of the solver. They agree wherever no id occurs twice, since then each
entry has the placement of its own instance.
-/

namespace PipingAssembly

/-- Whether a placement was found through a constraint. -/
def PlacementSource.isConstraint : PlacementSource → Bool
  | constraint _ _ => true
  | _ => false

/-- Whether a placement came with its instance, which was added. -/
def PlacementSource.isSynthesized : PlacementSource → Bool
  | synthesized _ => true
  | _ => false

/-- Whether a warning is about an instance on the grid. -/
def Warning.isFallbackPlacement : Warning → Bool
  | fallbackPlacement _ _ _ => true
  | _ => false

/-- What a run counts, and what its report lists, is what it holds. -/
structure Run.Accounted (r : Run) : Prop where
  /-- the report has one entry for each instance, in order -/
  ids : r.report.entries.map (·.instanceId) = idsOf r.instances
  /-- the placement of an instance is the one at its place -/
  aligned : r.placements.map (·.instanceId) = idsOf r.instances
  /-- each entry has the placement of its own instance -/
  entries : r.report.entries =
    List.zipWith (ReportEntry.placed r.constraints) r.instances r.placements
  /-- and the ids of the constraints that name it, in order -/
  named : ∀ e ∈ r.report.entries,
    e.constraints = (r.constraints.filter (·.touches e.instanceId)).map (·.id)
  instances : r.statistics.instances = r.instances.length
  /-- one instance is the base, and each of the others is counted once -/
  partition : r.statistics.instances =
    1 + r.statistics.placedByConstraint + r.statistics.fallback + r.statistics.synthesized
  placedByConstraint : r.statistics.placedByConstraint =
    r.placements.countP (·.source.isConstraint)
  fallback : r.statistics.fallback = r.placements.countP (·.isFallback)
  synthesized : r.statistics.synthesized = r.instances.countP (·.isSynthesized)
  /-- there is a warning for each instance on the grid, and no other one of its kind -/
  fallbackWarnings : r.statistics.fallback = r.warnings.countP (·.isFallbackPlacement)
  constraints : r.statistics.constraints = r.constraints.length
  warnings : r.statistics.warnings = r.warnings.length

/-! ### Placements by their sources -/

/-- Each placement has one of four sources. -/
theorem length_eq_sum_countP (ps : List Placement) :
    ps.length = ps.countP (·.source = .base) + ps.countP (·.source.isConstraint) +
      ps.countP (·.isFallback) + ps.countP (·.source.isSynthesized) := by
  induction ps with
  | nil => rfl
  | cons p ps ih =>
    simp only [List.length_cons, List.countP_cons, Placement.isFallback, ih]
    cases p.source <;>
      simp [PlacementSource.isConstraint, PlacementSource.isSynthesized] <;>
      omega

/-- The warnings about placements are those about the ones on the grid. -/
theorem countP_fallbackWarning? (ps : List Placement) :
    (ps.filterMap (·.fallbackWarning?)).countP (·.isFallbackPlacement) =
      ps.countP (·.isFallback) := by
  rw [List.countP_filterMap]
  apply List.countP_congr
  intro p _
  rw [Placement.fallbackWarning?, Placement.isFallback]
  cases p.source <;> simp [Warning.isFallbackPlacement]

/-- The solver warns about each instance on the grid. -/
theorem countP_warnings_solution (instances : List Instance) (constraints : List Constraint)
    (policy : SolverPolicy Float) :
    (solution instances constraints policy).warnings.countP (·.isFallbackPlacement) =
      (solution instances constraints policy).placements.countP (·.isFallback) := by
  rw [solution, List.countP_append, countP_fallbackWarning?, Nat.add_eq_right]
  refine List.countP_eq_zero.mpr fun w hw ↦ ?_
  obtain ⟨_, -, rfl⟩ := List.mem_map.mp hw
  exact Bool.false_ne_true

/-! ### Entries -/

section Entries

variable {is : List Instance} {ps : List Placement} (constraints : List Constraint)

/-- The entries with a constraint or a connection but without a role are those of instances that
were placed through a constraint. -/
theorem countP_placedBy (hlength : ps.length ≤ is.length)
    (h : ∀ x ∈ is.zip ps, x.1.isSynthesized = x.2.source.isSynthesized) :
    (List.zipWith (ReportEntry.placed constraints) is ps).countP
        (fun e ↦ e.placedBy.isSome && e.role.isNone) =
      ps.countP (·.source.isConstraint) := by
  refine countP_zipWith hlength fun x hx ↦ ?_
  have hrole : x.1.role.isNone = !x.2.source.isSynthesized := by
    rw [← h x hx, Instance.isSynthesized, Option.not_isSome]
  change (x.2.source.placedBy?.isSome && x.1.role.isNone) = x.2.source.isConstraint
  rw [hrole]
  cases x.2.source <;> rfl

theorem countP_fallback (hlength : ps.length ≤ is.length) :
    (List.zipWith (ReportEntry.placed constraints) is ps).countP (·.fallback) =
      ps.countP (·.isFallback) :=
  countP_zipWith hlength fun _ _ ↦ rfl

end Entries

/-! ### Instances with their placements -/

namespace RunContext

variable {c : RunContext} {name : String} {mode : Mode} {instances : List Instance}
  {constraints : List Constraint} {warnings : List Warning}

/-- What a context solves was not added by it. -/
theorem Generates.isSynthesized_eq_false (h : c.Generates mode instances constraints)
    {i : Instance} (hi : i ∈ instances) : i.isSynthesized = false := by
  cases h with
  | catalog hparts =>
    obtain ⟨p, -, rfl⟩ := List.mem_map.mp hi
    rfl
  | exchange text hinstances => exact isSynthesized_extracted hi

theorem isSynthesized_of_mem_placements (hids : (idsOf instances).Nodup) {p : Placement}
    (hp : p ∈ (solution instances constraints c.policy.solver).placements) :
    p.source.isSynthesized = false := by
  have hne := source_ne_synthesized hids hp
  revert hne
  cases p.source with
  | synthesized connectionId => exact fun hne ↦ absurd rfl (hne connectionId)
  | base | constraint constraintId origin | fallback slot => exact fun _ ↦ rfl

section Finished

variable {r : Run} (hr : r = c.finished name mode instances constraints warnings)
  (hids : (idsOf instances).Nodup) (hplain : ∀ i ∈ instances, i.isSynthesized = false)

include hr

include hplain in
/-- The instances that tell what they are for are those that were added. -/
theorem countP_instances :
    r.instances.countP (·.isSynthesized) = (c.added instances constraints).length := by
  rw [hr, finished, countP_append_of_forall hplain fun i hi ↦ isSynthesized_of_mem_map_added hi,
    List.length_map]

include hids in
/-- So are the placements that came with their instances. -/
theorem countP_placements :
    r.placements.countP (·.source.isSynthesized) = (c.added instances constraints).length := by
  have hadded : ∀ p ∈ (c.added instances constraints).map (·.2),
      p.source.isSynthesized = true := by
    intro p hp
    obtain ⟨connectionId, hsource⟩ := source_of_mem_added hp
    rw [hsource]
    rfl
  rw [hr, finished,
    countP_append_of_forall (fun p hp ↦ isSynthesized_of_mem_placements hids hp) hadded,
    List.length_map]

include hids hplain in
/-- An instance was added exactly if its placement came with it. -/
theorem isSynthesized_of_mem_zip {x : Instance × Placement}
    (hx : x ∈ r.instances.zip r.placements) : x.1.isSynthesized = x.2.source.isSynthesized := by
  rw [hr, finished, List.zip_append (length_placements _ _ _).symm, List.mem_append] at hx
  obtain hx | hx := hx
  · obtain ⟨hi, hp⟩ := List.of_mem_zip hx
    rw [hplain x.1 hi, isSynthesized_of_mem_placements hids hp]
  · obtain ⟨hi, hp⟩ := List.of_mem_zip hx
    obtain ⟨connectionId, hsource⟩ := source_of_mem_added hp
    rw [isSynthesized_of_mem_map_added hi, hsource]
    rfl

include hids in
/-- There is one base. -/
theorem countP_base (hne : instances ≠ []) : r.placements.countP (·.source = .base) = 1 := by
  obtain ⟨b, -, -, hfilter⟩ := filter_base hids hne
  rw [hr, List.countP_eq_length_filter, filter_base_finished, hfilter]
  rfl

/-- Nothing but the solver warns about instances on the grid. -/
theorem countP_warnings (hwarnings : ∀ w ∈ warnings, ∃ file, w = .emptyExchangeFile file) :
    r.warnings.countP (·.isFallbackPlacement) = r.placements.countP (·.isFallback) := by
  have hbefore : warnings.countP (·.isFallbackPlacement) = 0 :=
    List.countP_eq_zero.mpr fun w hw ↦ by
      obtain ⟨file, rfl⟩ := hwarnings w hw
      exact Bool.false_ne_true
  have hdn : (dnMismatches instances constraints).countP (·.isFallbackPlacement) = 0 :=
    List.countP_eq_zero.mpr fun w hw ↦ by
      obtain ⟨_, _, _, _, _, rfl⟩ := exists_of_mem_dnMismatches hw
      exact Bool.false_ne_true
  have hadded : ((c.added instances constraints).map (·.2)).countP (·.isFallback) = 0 :=
    List.countP_eq_zero.mpr fun p hp ↦ by
      obtain ⟨connectionId, hsource⟩ := source_of_mem_added hp
      simp [Placement.isFallback, hsource]
  rw [hr, finished, List.countP_append, List.countP_append, List.countP_append, hbefore, hdn,
    hadded, countP_warnings_solution, Nat.zero_add]

include hids hplain in
/-- What a run with distinct ids counts is what it holds. -/
theorem accounted_finished (hne : instances ≠ [])
    (hwarnings : ∀ w ∈ warnings, ∃ file, w = .emptyExchangeFile file)
    (hnodup : (idsOf r.instances).Nodup) : r.Accounted := by
  have haligned : r.placements.map (·.instanceId) = idsOf r.instances := by
    rw [hr]
    exact aligned_finished
  have hlength : r.placements.length = r.instances.length := by
    simpa using congrArg List.length haligned
  have hof : r.report.entries =
      r.instances.map (ReportEntry.of r.constraints r.placements) := by rw [hr]; rfl
  have hentries : r.report.entries =
      List.zipWith (ReportEntry.placed r.constraints) r.instances r.placements := by
    subst hr
    exact (findsOwn_of_nodup hnodup).report
  have hconstraint :
      r.statistics.placedByConstraint = r.placements.countP (·.source.isConstraint) := by
    rw [← countP_placedBy r.constraints hlength.le fun _ ↦ isSynthesized_of_mem_zip hr hids hplain,
      ← hentries, hr]
    rfl
  have hgrid : r.statistics.fallback = r.placements.countP (·.isFallback) := by
    rw [← countP_fallback r.constraints hlength.le, ← hentries, hr]
    rfl
  have hadded : r.statistics.synthesized = (c.added instances constraints).length := by
    rw [hr]
    rfl
  have hall : r.statistics.instances = r.instances.length := by rw [hr]; rfl
  have hpartition : r.statistics.instances = 1 + r.statistics.placedByConstraint +
      r.statistics.fallback + r.statistics.synthesized := by
    rw [hall, ← hlength, hconstraint, hgrid, hadded, ← countP_base hr hids hne,
      ← countP_placements hr hids]
    exact length_eq_sum_countP r.placements
  exact
    { ids := by
        rw [hof, List.map_map]
        rfl
      aligned := haligned
      entries := hentries
      named := by
        rw [hof]
        intro e he
        obtain ⟨i, -, rfl⟩ := List.mem_map.mp he
        rfl
      instances := hall
      partition := hpartition
      placedByConstraint := hconstraint
      fallback := hgrid
      synthesized := hadded.trans (countP_instances hr hplain).symm
      fallbackWarnings := hgrid.trans (countP_warnings hr hwarnings).symm
      constraints := by rw [hr]; rfl
      warnings := by rw [hr]; rfl }

end Finished

/-- The instances of an exchange file have ids of another form than those that are added. -/
theorem Yields.nodup_of_exchange {r : Run} (h : c.Yields r) (hmode : r.mode = .exchange) :
    (idsOf r.instances).Nodup := by
  obtain ⟨name, mode, instances, constraints, warnings, hgenerates, hids, rfl, -⟩ :=
    h.exists_generates
  cases hgenerates with
  | catalog hparts => cases hmode
  | exchange text hinstances =>
    exact (identified_of_finish hids (fun _ ↦ sign_mem_extracted)
      (numbered_generateSequential _ _ _ _) rfl rfl rfl).instances

/-- In a run over a catalog an id occurs twice only if a part has the id of an added instance. -/
theorem Yields.nodup_of_catalog {r : Run} (h : c.Yields r) (hmode : r.mode = .catalog) :
    (idsOf r.instances).Nodup ↔ r.Fresh c.parts := by
  obtain ⟨name, mode, instances, constraints, warnings, hgenerates, hids, rfl, -⟩ :=
    h.exists_generates
  cases hgenerates with
  | catalog hparts =>
    rw [idsOf_map_ofPart] at hids
    exact nodup_finishedCatalog_iff hids
  | exchange text hinstances => cases hmode

/-- Every run whose ids are distinct accounts for what it holds. Those over exchange files are
such runs, and those over catalogs where no part has the id of an added instance. -/
theorem Yields.accounted {r : Run} (h : c.Yields r) :
    (r.mode = .exchange → (idsOf r.instances).Nodup) ∧
      (r.mode = .catalog → ((idsOf r.instances).Nodup ↔ r.Fresh c.parts)) ∧
      ((idsOf r.instances).Nodup → r.Accounted) := by
  refine ⟨h.nodup_of_exchange, h.nodup_of_catalog, fun hnodup ↦ ?_⟩
  obtain ⟨name, mode, instances, constraints, warnings, hgenerates, hids, hr, hwarnings⟩ :=
    h.exists_generates
  exact accounted_finished hr hids (fun _ ↦ hgenerates.isSynthesized_eq_false) hgenerates.ne_nil
    hwarnings hnodup

/-- A valve is left to the grid, and two flanges with different nominal diameters get bolts and a
gasket. -/
theorem accounted_flanges :
    let rule : Rule :=
      { id := "R-FLANGES", name := "Flanges"
        condition := .both { field := "family", value := some "flange" }
        action := { type := .coincident } }
    let c : RunContext :=
      { parts := [{ id := "V-50", family := .valve },
          { id := "F-50", family := .flange, dn := some 50 },
          { id := "F-80", family := .flange, dn := some 80 }]
        rules := [rule] }
    let statistics : Statistics :=
      { catalogParts := 3, rules := 1, instances := 8, synthesized := 5, constraints := 1
        placedByConstraint := 1, fallback := 1, passes := 2, warnings := 2 }
    ∃ r, c.Yields r ∧ r.mode = .catalog ∧ (idsOf r.instances).Nodup ∧ r.Accounted ∧
      r.statistics = statistics := by
  intro rule c statistics
  let r := c.finished "catalog" .catalog (c.parts.map .ofPart)
    (generateCatalog c.parts c.rules c.policy.matching) []
  have hrun : c.runCatalog = .ok r :=
    assembleCatalog_eq_ok.mpr
      ⟨List.cons_ne_nil _ _, rfl, finish_eq_ok.mpr ⟨rfl, rfl, by decide, rfl⟩⟩
  have hyields : c.Yields r := .catalog hrun
  have hids : (idsOf r.instances).Nodup := by decide
  exact ⟨r, hyields, rfl, hids, hyields.accounted.2.2 hids, by decide⟩

end RunContext

end PipingAssembly
