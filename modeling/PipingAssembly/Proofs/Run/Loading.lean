import PipingAssembly.Proofs.Run.Lookups
import PipingAssembly.Proofs.Store.History

/-!
# Loading a catalog for a run

Nothing keeps two files of a project from declaring the same part. Loading passes over files that
declare none and over parts declared before, in the order of the files, and a database that was
rebuilt from the files gives the same parts. So the parts of a run have different ids, and solving
them cannot fail.
-/

namespace PipingAssembly

/-! ### First declarations -/

/-- The part that the file at a place declares. -/
def declaredPart? (files : Files) (path : Path) : Option Part :=
  (recordAt? files path).bind Part.ofValue?

namespace Project

/-- The part with an id in the first file that declares one, in the order of loading. -/
def firstPart? (p : Project) (files : Files) (id : String) : Option Part :=
  ((files.yamlFiles p.partsDir).find? fun path ↦ (declaredPart? files path).any (·.id == id)).bind
    (declaredPart? files)

/-- The parts of a project are those that are declared first. -/
theorem mem_allParts_iff {p : Project} {files : Files} {q : Part} :
    q ∈ p.allParts files ↔ p.firstPart? files q.id = some q := by
  rw [allParts, sortParts, List.mem_mergeSort, mem_firstOfEach_iff, loadAll_fst,
    List.find?_filterMap]
  rfl

/-- No two parts of a project have one id. -/
theorem rising_allParts (p : Project) (files : Files) :
    (p.allParts files).Pairwise fun q q' ↦ q.id < q'.id := by
  have hdistinct : (p.allParts files).Pairwise fun q q' ↦ q.id ≠ q'.id :=
    List.pairwise_map.mp (((List.mergeSort_perm _ _).map _).nodup_iff.mpr
      (nodup_firstOfEach Part.id _))
  refine ((pairwise_sortParts _).and hdistinct).imp fun {q q'} h ↦ ?_
  exact Std.lt_of_le_of_ne (of_decide_eq_true h.1) h.2

/-- Whether parts are those of a selection that the files of a project declare first, in the order
of ids. -/
structure Selects (p : Project) (files : Files) (f : PartFilter) (parts : List Part) : Prop where
  rising : parts.Pairwise fun q q' ↦ q.id < q'.id
  mem_iff (q : Part) : q ∈ parts ↔ f.accepts q = true ∧ p.firstPart? files q.id = some q

theorem selects_allParts (p : Project) (files : Files) (f : PartFilter) :
    p.Selects files f (f.select (p.allParts files)) where
  rising := (p.rising_allParts files).filter f.accepts
  mem_iff q := by rw [PartFilter.select, List.mem_filter, mem_allParts_iff, and_comm]

theorem Selects.nodup {p : Project} {files : Files} {f : PartFilter} {parts : List Part}
    (h : p.Selects files f parts) : (parts.map (·.id)).Nodup :=
  List.pairwise_map.mpr (h.rising.imp Std.ne_of_lt)

/-! ### Stores of a project -/

/-- The stores that hold the catalog of a project: the files, and a database that a sync has just
rebuilt from them. -/
inductive Serves (p : Project) (files : Files) : CatalogStore → Prop
  | ofFiles : p.Serves files (.ofFiles p files)
  | rebuilt {now : String} {d : Database} {stats : SyncStats} {files' : Files}
      (hsync : p.syncDatabase files now = .ok (d, stats, files')) (hrebuilt : stats.rebuilt = true) :
      p.Serves files (.database d)

variable {p : Project} {files : Files} {store : CatalogStore}

theorem mirrors_of_syncDatabase {now : String} {d : Database} {stats : SyncStats} {files' : Files}
    (hsync : p.syncDatabase files now = .ok (d, stats, files')) (hrebuilt : stats.rebuilt = true) :
    d.Mirrors (p.allParts files) (p.allRules files) := by
  rcases syncDatabase_eq_ok hsync with ⟨stored, opened, -, hstored, -, -⟩
  rw [allParts_eq_partsOf, allRules_eq_rulesOf]
  exact Database.mirrors_of_rebuilt hstored hrebuilt

theorem Serves.parts (h : p.Serves files store) (f : PartFilter) :
    store.parts f = .ok (f.select (p.allParts files)) := by
  cases h with
  | ofFiles => rfl
  | rebuilt hsync hrebuilt =>
    have hkeys : ∀ q ∈ p.allParts files, KeysRise q.metadata := by
      rw [allParts_eq_partsOf]
      exact p.keysRise_partsOf _
    exact (mirrors_of_syncDatabase hsync hrebuilt).selectParts (pairwise_sortParts _) hkeys f

/-- The files always give their active rules, and a database does unless it holds a floating-point
number that does not survive a text. -/
theorem Serves.exists_of_activeRules_eq_error (h : p.Serves files store) {e : StoreError}
    (herror : store.activeRules = .error e) :
    store ≠ .ofFiles p files ∧
      ∃ r ∈ p.allRules files, r.isActive = true ∧ ∃ x ∈ r.floats, ¬ReadsBack x := by
  cases h with
  | ofFiles => cases herror
  | rebuilt hsync hrebuilt =>
    refine ⟨nofun, ?_⟩
    have hmirrors := mirrors_of_syncDatabase hsync hrebuilt
    by_contra hnone
    push Not at hnone
    have hrules := (hmirrors.activeRules_eq_ok_iff (pairwise_sortRules _)).mpr hnone
    rw [CatalogStore.activeRules, hrules] at herror
    cases herror

end Project

/-! ### Runs over what was loaded -/

namespace RunContext

variable {c : RunContext} {e : RunError}

theorem eq_cancelled_of_checkpoint {stage : Stage} (h : c.checkpoint stage = .error e) :
    e = .cancelled stage := by
  rw [checkpoint] at h
  split at h
  · exact (Except.error.inj h).symm
  · cases h

/-- Over instances with different ids a run ends unless the deadline passes. -/
theorem exists_cancelled_of_finish {name : String} {mode : Mode} {instances : List Instance}
    {constraints : List Constraint} {warnings : List Warning} (hids : (idsOf instances).Nodup)
    (h : c.finish name mode instances constraints warnings = .error e) :
    ∃ stage, e = .cancelled stage := by
  rw [finish, solve_eq_ok.mpr ⟨hids, rfl⟩] at h
  rcases bind_eq_error_iff.mp h with hsolve | ⟨-, -, h⟩
  · exact ⟨.solve, eq_cancelled_of_checkpoint hsolve⟩
  · rcases bind_eq_error_iff.mp h with hsolution | ⟨_, -, h⟩
    · cases hsolution
    · rcases bind_eq_error_iff.mp h with hfasteners | ⟨-, -, h⟩
      · exact ⟨.fasteners, eq_cancelled_of_checkpoint hfasteners⟩
      · cases h

/-- A run over parts with different ids fails only for want of parts or as the deadline passes. -/
theorem cause_of_runCatalog (hids : (c.parts.map (·.id)).Nodup) (h : c.runCatalog = .error e) :
    (c.parts = [] ∧ e = .noPartData) ∨ ∃ stage, e = .cancelled stage := by
  rw [runCatalog, assembleCatalog] at h
  split at h
  case isTrue hempty => exact Or.inl ⟨List.isEmpty_iff.mp hempty, (Except.error.inj h).symm⟩
  case isFalse =>
    right
    rcases bind_eq_error_iff.mp h with hgenerate | ⟨-, -, h⟩
    · exact ⟨.generate, eq_cancelled_of_checkpoint hgenerate⟩
    · rw [← idsOf_map_ofPart] at hids
      exact exists_cancelled_of_finish hids h

/-- What is loaded from a store of a project are the parts of the selection that its files declare
first, in the order of ids, with the rules of the store. Only rules whose numbers a database has lost
keep it from loading. A run over what was loaded never lacks a placement, whatever the deadline. -/
theorem load_of_serves {p : Project} {files : Files} {store : CatalogStore}
    (h : p.Serves files store) (f : PartFilter) (policy : Policy) :
    ∃ parts, p.Selects files f parts ∧
      (load store f policy = store.activeRules.map fun rules ↦ { parts, rules, policy }) ∧
      (∀ e, load store f policy = .error e → store ≠ .ofFiles p files ∧
        ∃ r ∈ p.allRules files, r.isActive = true ∧ ∃ x ∈ r.floats, ¬ReadsBack x) ∧
      ∀ c, load store f policy = .ok c →
        (∀ isPast e, { c with isPast }.runCatalog ≠ .error (.placementIncomplete e)) ∧
        (parts ≠ [] → ∃ r, c.runCatalog = .ok r ∧
          r.placements.map (·.instanceId) = idsOf r.instances) := by
  have hselects := p.selects_allParts files f
  refine ⟨f.select (p.allParts files), hselects, ?_⟩
  rw [load, h.parts f]
  cases hrules : store.activeRules with
  | error e =>
    exact ⟨rfl, fun _ _ ↦ h.exists_of_activeRules_eq_error hrules, nofun⟩
  | ok rules =>
    refine ⟨rfl, nofun, fun c hc ↦ ?_⟩
    cases hc
    refine ⟨fun isPast e he ↦ ?_, fun hparts ↦ ?_⟩
    · rcases cause_of_runCatalog hselects.nodup he with ⟨-, hcause⟩ | ⟨stage, hcause⟩
      · cases hcause
      · cases hcause
    · have hids : (idsOf ((f.select (p.allParts files)).map .ofPart)).Nodup := by
        rw [idsOf_map_ofPart]
        exact hselects.nodup
      exact ⟨_, assembleCatalog_eq_ok.mpr ⟨hparts, rfl, finish_eq_ok.mpr ⟨rfl, rfl, hids, rfl⟩⟩,
        aligned_finished⟩

/-- A project in which two files declare one part and a third one declares none. -/
private def doubledFiles : Files :=
  ⟨[(["catalog"], .directory), (["catalog", "parts"], .directory),
    (["catalog", "parts", "A.yaml"], .file (.text "part_id: P-1\ndn: 50\n")),
    (["catalog", "parts", "B.yaml"], .file (.text "part_id: P-1\ndn: 80\n")),
    (["catalog", "parts", "C.yaml"], .file (.text "dn: 80\n")),
    (["catalog", "rules"], .directory)]⟩

private theorem exists_serves_doubledFiles :
    ∃ d, Project.Serves ⟨[]⟩ doubledFiles (.database d) := by
  have hrebuilt : ((Project.mk []).syncDatabase doubledFiles "2024-05-01").toOption.any
      (·.2.1.rebuilt) = true := by
    decide +kernel
  rcases exists_ok_of_any hrebuilt with ⟨result, hsync, hresult⟩
  exact ⟨_, .rebuilt hsync hresult⟩

/-- Of a part that two files declare a database has the first one, and a run over it does not fail
in solving. -/
theorem load_of_serves_doubled :
    (Project.firstPart? ⟨[]⟩ doubledFiles "P-1").map (·.dn) = some (some 50) ∧
    ∃ d, Project.Serves ⟨[]⟩ doubledFiles (.database d) ∧
      ∃ parts, Project.Selects ⟨[]⟩ doubledFiles {} parts ∧
        ∀ c, load (.database d) {} {} = .ok c → ∀ isPast e,
          { c with isPast }.runCatalog ≠ .error (.placementIncomplete e) := by
  refine ⟨by decide +kernel, ?_⟩
  obtain ⟨d, hserves⟩ := exists_serves_doubledFiles
  obtain ⟨parts, hselects, -, -, hrun⟩ := load_of_serves hserves {} {}
  exact ⟨d, hserves, parts, hselects, fun c hc ↦ (hrun c hc).1⟩

end RunContext

end PipingAssembly
