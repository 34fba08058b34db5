import PipingAssembly.Proofs.Results
import PipingAssembly.Proofs.Solver.Solution
import PipingAssembly.Run.Basic

/-!
# What a run gives

A run gives the solution of its instances and constraints, the fasteners that are added to it and
the report on both. It succeeds unless the deadline passes or an id occurs twice. All runs come to
this from two kinds of input: the parts of the catalog, and the instances of an exchange file.
-/

namespace PipingAssembly

namespace RunContext

/-- What is added to instances and their placements before a run ends. -/
def added (c : RunContext) (instances : List Instance) (constraints : List Constraint) :
    List (Instance × Placement) :=
  synthesize instances constraints (solution instances constraints c.policy.solver).placements
    c.policy.fasteners

/-- The run that solving instances and constraints ends in. -/
def finished (c : RunContext) (name : String) (mode : Mode) (instances : List Instance)
    (constraints : List Constraint) (warnings : List Warning) : Run :=
  let s := solution instances constraints c.policy.solver
  let added := c.added instances constraints
  let all := instances ++ added.map (·.1)
  let placements := s.placements ++ added.map (·.2)
  let report := Report.build s.base s.passes all constraints placements
  let warnings := warnings ++ s.warnings ++ dnMismatches instances constraints
  { name, mode, instances := all, constraints, placements, report, warnings
    statistics := {
      catalogParts := c.parts.length
      rules := c.rules.length
      instances := all.length
      synthesized := added.length
      constraints := constraints.length
      placedByConstraint := report.entries.countP fun e ↦ e.placedBy.isSome && e.role.isNone
      fallback := report.fallbackCount
      passes := report.passes
      warnings := warnings.length } }

section Finish

variable {c : RunContext} {instances : List Instance} {constraints : List Constraint} {r : Run}

/-- What comes after a checkpoint has a result if the deadline has not passed. -/
theorem checkpoint_bind_eq_ok {stage : Stage} {next : Unit → Except RunError Run} :
    c.checkpoint stage >>= next = .ok r ↔ c.isPast stage = false ∧ next () = .ok r := by
  rw [checkpoint]
  cases c.isPast stage with
  | true => exact ⟨nofun, nofun⟩
  | false => exact ⟨fun h ↦ ⟨rfl, h⟩, fun h ↦ h.2⟩

/-- Before the deadline exactly the instances with distinct ids have a run. -/
theorem finish_eq_ok {name : String} {mode : Mode} {warnings : List Warning} :
    c.finish name mode instances constraints warnings = .ok r ↔
      c.isPast .solve = false ∧ c.isPast .fasteners = false ∧ (idsOf instances).Nodup ∧
        r = c.finished name mode instances constraints warnings := by
  rw [finish, checkpoint_bind_eq_ok]
  simp only [bind_eq_ok_iff (x := Except.mapError _ _), mapError_eq_ok_iff, solve_eq_ok,
    checkpoint_bind_eq_ok]
  constructor
  · rintro ⟨hsolve, _, ⟨hids, rfl⟩, hfasteners, hr⟩
    exact ⟨hsolve, hfasteners, hids, (Except.ok.inj hr).symm⟩
  · rintro ⟨hsolve, hfasteners, hids, rfl⟩
    exact ⟨hsolve, _, ⟨hids, rfl⟩, hfasteners, rfl⟩

/-- Without a deadline a run over instances with distinct ids ends, and adds fasteners to them. -/
theorem exists_finish (hdeadline : ∀ stage, c.isPast stage = false)
    (hids : (idsOf instances).Nodup) (name : String) (mode : Mode) (warnings : List Warning) :
    ∃ r, c.finish name mode instances constraints warnings = .ok r ∧ r.mode = mode ∧
      r.instances = instances ++ (c.added instances constraints).map (·.1) ∧
      r.constraints = constraints ∧
      r.placements = (solution instances constraints c.policy.solver).placements ++
        (c.added instances constraints).map (·.2) :=
  ⟨_, finish_eq_ok.mpr ⟨hdeadline _, hdeadline _, hids, rfl⟩, rfl, rfl, rfl, rfl⟩

/-- A catalog has a run if it has parts. -/
theorem assembleCatalog_eq_ok {name : String} {warnings : List Warning} :
    c.assembleCatalog name warnings = .ok r ↔
      c.parts ≠ [] ∧ c.isPast .generate = false ∧
        c.finish name .catalog (c.parts.map .ofPart)
          (generateCatalog c.parts c.rules c.policy.matching) warnings = .ok r := by
  rw [assembleCatalog]
  by_cases hparts : c.parts = []
  · simp [hparts, bind, Except.bind]
  · simp [hparts, checkpoint_bind_eq_ok]

/-- Without a deadline the parts of a catalog have a run if their ids are distinct. -/
theorem runCatalog_eq_ok (hdeadline : ∀ stage, c.isPast stage = false) (hparts : c.parts ≠ [])
    (hids : (idsOf (c.parts.map .ofPart)).Nodup) :
    c.runCatalog = .ok (c.finished "catalog" .catalog (c.parts.map .ofPart)
      (generateCatalog c.parts c.rules c.policy.matching) []) :=
  assembleCatalog_eq_ok.mpr
    ⟨hparts, hdeadline _, finish_eq_ok.mpr ⟨hdeadline _, hdeadline _, hids, rfl⟩⟩

/-- An exchange file with instances has a run over these, and one without gives way to the catalog.
-/
theorem runExchange_eq_ok {text name : String} :
    c.runExchange text name = .ok r ↔
      c.isPast .parse = false ∧
        ((Exchange.Assembly.read text).instances = [] ∧
            c.assembleCatalog name [.emptyExchangeFile name] = .ok r ∨
          (Exchange.Assembly.read text).instances ≠ [] ∧ c.isPast .generate = false ∧
            let instances := (Exchange.Assembly.read text).instances.map c.withCatalogEntry
            c.finish name .exchange instances
              (generateSequential instances c.parts c.rules c.policy.matching) [] = .ok r) := by
  rw [runExchange, checkpoint_bind_eq_ok]
  by_cases hnone : (Exchange.Assembly.read text).instances = []
  · by_cases hparts : c.parts = []
    · simp [hnone, hparts, assembleCatalog_eq_ok]
    · simp [hnone, hparts]
  · simp [hnone, checkpoint_bind_eq_ok]

end Finish

/-- What the runs of a context solve: the parts of its catalog with the constraints between all
pairs, and the instances of an exchange file with the constraints between neighbours. -/
inductive Generates (c : RunContext) : Mode → List Instance → List Constraint → Prop
  | catalog (hparts : c.parts ≠ []) :
    c.Generates .catalog (c.parts.map .ofPart)
      (generateCatalog c.parts c.rules c.policy.matching)
  | exchange (text : String) (hinstances : (Exchange.Assembly.read text).instances ≠ []) :
    c.Generates .exchange ((Exchange.Assembly.read text).instances.map c.withCatalogEntry)
      (generateSequential ((Exchange.Assembly.read text).instances.map c.withCatalogEntry) c.parts
        c.rules c.policy.matching)

/-- The results of a context: of a run over its catalog, or over an exchange file. -/
inductive Yields (c : RunContext) (r : Run) : Prop
  | catalog (h : c.runCatalog = .ok r)
  | exchange (text name : String) (h : c.runExchange text name = .ok r)

section Yields

variable {c : RunContext} {r : Run}

theorem Generates.ne_nil {mode : Mode} {instances : List Instance} {constraints : List Constraint}
    (h : c.Generates mode instances constraints) : instances ≠ [] := by
  cases h with
  | catalog hparts => exact mt List.map_eq_nil_iff.mp hparts
  | exchange text hinstances => exact mt List.map_eq_nil_iff.mp hinstances

private theorem exists_generates_of_assembleCatalog {name : String} {warnings : List Warning}
    (h : c.assembleCatalog name warnings = .ok r) :
    ∃ mode instances constraints, c.Generates mode instances constraints ∧
      (idsOf instances).Nodup ∧ r = c.finished name mode instances constraints warnings := by
  obtain ⟨hparts, -, h⟩ := assembleCatalog_eq_ok.mp h
  obtain ⟨-, -, hids, hr⟩ := finish_eq_ok.mp h
  exact ⟨_, _, _, .catalog hparts, hids, hr⟩

/-- Every result is that of solving what the context generates. Before that the only warning is that
an exchange file has no products. -/
theorem Yields.exists_generates (h : c.Yields r) :
    ∃ name mode instances constraints warnings, c.Generates mode instances constraints ∧
      (idsOf instances).Nodup ∧ r = c.finished name mode instances constraints warnings ∧
      ∀ w ∈ warnings, ∃ file, w = .emptyExchangeFile file := by
  cases h with
  | catalog h =>
    obtain ⟨mode, instances, constraints, hgenerates, hids, hr⟩ :=
      exists_generates_of_assembleCatalog h
    exact ⟨_, mode, instances, constraints, _, hgenerates, hids, hr, nofun⟩
  | exchange text name h =>
    obtain ⟨-, ⟨-, h⟩ | ⟨hinstances, -, h⟩⟩ := runExchange_eq_ok.mp h
    · obtain ⟨mode, instances, constraints, hgenerates, hids, hr⟩ :=
        exists_generates_of_assembleCatalog h
      exact ⟨_, mode, instances, constraints, _, hgenerates, hids, hr, fun w hw ↦
        ⟨name, List.mem_singleton.mp hw⟩⟩
    · obtain ⟨-, -, hids, hr⟩ := finish_eq_ok.mp h
      exact ⟨_, _, _, _, _, .exchange text hinstances, hids, hr, nofun⟩

end Yields

end RunContext

end PipingAssembly
