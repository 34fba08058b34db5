import PipingAssembly.Proofs.Run.Outcome
import PipingAssembly.Proofs.Scene.References

/-!
# Writing the scene of a run again

Writing a scene touches the states of report entries, the warnings and their count. The scene is
made of none of these, so each time it is the same one, with the same warnings about meshes. The
entries of placed instances become exported the first time and stay so, and the report was made of
the placements that the objects of the scene are made of.
-/

namespace PipingAssembly

/-- How far a state is from the first one. -/
def PlacementState.rank : PlacementState → Nat
  | unplaced => 0
  | placed => 1
  | exported => 2

/-- An entry after its scene has been written. -/
def ReportEntry.written (e : ReportEntry) : ReportEntry :=
  if e.state = .placed then { e with state := .exported } else e

namespace Run

/-- A run after its scene has been written some number of times. -/
def afterExports (r : Run) (meshes : Option MeshSource) : Nat → Run
  | 0 => r
  | n + 1 => ((r.afterExports meshes n).exportScene meshes).2

/-- A run without what its scene is not made of: the states of the entries, the warnings and their
count. -/
def withoutStates (r : Run) : Run :=
  { r with
    report := { r.report with entries := r.report.entries.map ({ · with state := .unplaced }) }
    warnings := []
    statistics := { r.statistics with warnings := 0 } }

/-- Whether the report is made of the instances and the placements of the run. -/
def Reported (r : Run) : Prop :=
  r.report.entries = r.instances.map (ReportEntry.of r.constraints r.placements)

/-- The warnings about the meshes of a run: one for each part id in the scene for which the source
fails, where it is first used. -/
def meshWarnings (r : Run) (meshes : Option MeshSource) : List Warning :=
  ((r.exportScene meshes).1.objects.map (·.partId)).eraseDups.filterMap fun partId ↦
    (meshFailure? meshes partId).map fun e ↦ .geometryUnavailable partId e.message

/-- What becomes of a run whose scene is written any number of times from one source of meshes. -/
structure Reexports (r : Run) (meshes : Option MeshSource) : Prop where
  scene (n : Nat) :
    ((r.afterExports meshes n).exportScene meshes).1 = (r.exportScene meshes).1
  /-- from the first time on an entry is exported exactly if its instance has an object -/
  exported (n : Nat) :
    List.Forall₂
      (fun i e ↦ e.instanceId = i.id ∧
        (e.state = .exported ↔ ∃ o ∈ (r.exportScene meshes).1.objects, o.name = i.id))
      r.instances (r.afterExports meshes (n + 1)).report.entries
  /-- no entry ever goes back -/
  rank_le {m n : Nat} (h : m ≤ n) :
    List.Forall₂ (fun e f ↦ e.state.rank ≤ f.state.rank)
      (r.afterExports meshes m).report.entries (r.afterExports meshes n).report.entries
  warnings (n : Nat) :
    (r.afterExports meshes n).warnings =
      r.warnings ++ (List.replicate n (r.meshWarnings meshes)).flatten
  count (n : Nat) :
    (r.afterExports meshes (n + 1)).statistics.warnings =
      (r.afterExports meshes (n + 1)).warnings.length
  frame (n : Nat) : (r.afterExports meshes n).withoutStates = r.withoutStates

end Run

/-! ### Entries -/

/-- No entry waits for a second time. -/
theorem ReportEntry.state_written_ne (e : ReportEntry) : e.written.state ≠ .placed := by
  rw [written]
  split
  next => exact nofun
  next h => exact h

theorem ReportEntry.written_written (e : ReportEntry) : e.written.written = e.written := by
  rw [written, if_neg e.state_written_ne]

theorem ReportEntry.rank_le_written (e : ReportEntry) : e.state.rank ≤ e.written.state.rank := by
  rw [written]
  split
  next h =>
    rw [h]
    exact Nat.le_succ 1
  next => exact Nat.le_refl _

/-- The entry of an instance becomes exported if the instance is placed. -/
theorem ReportEntry.state_written_of (constraints : List Constraint) (placements : List Placement)
    (i : Instance) :
    (ReportEntry.of constraints placements i).written.state = .exported ↔
      i.id ∈ placements.map (·.instanceId) := by
  rw [← findPlacement?_isSome]
  cases h : findPlacement? placements i.id <;> simp [ReportEntry.of, written, h]

/-! ### One more time -/

namespace Run

variable (r : Run) (meshes : Option MeshSource)

theorem withoutStates_exportScene : (r.exportScene meshes).2.withoutStates = r.withoutStates := by
  have hentries : (r.report.entries.map ReportEntry.written).map
        (fun e ↦ { e with state := PlacementState.unplaced }) =
      r.report.entries.map fun e ↦ { e with state := PlacementState.unplaced } := by
    rw [List.map_map]
    refine List.map_congr_left fun e _ ↦ ?_
    rw [Function.comp_apply, ReportEntry.written]
    split <;> rfl
  rw [withoutStates, withoutStates, ← hentries]
  rfl

variable {r} in
/-- Runs that differ in nothing else have the same scene. -/
theorem exportScene_congr {s : Run} (h : r.withoutStates = s.withoutStates) :
    (r.exportScene meshes).1 = (s.exportScene meshes).1 := by
  have hscene : ∀ x : Run, (x.exportScene meshes).1 = (x.withoutStates.exportScene meshes).1 :=
    fun _ ↦ rfl
  rw [hscene r, hscene s, h]

theorem warnings_snd_exportScene :
    (r.exportScene meshes).2.warnings = r.warnings ++ r.meshWarnings meshes := by
  rw [meshWarnings, exportScene]
  exact congrArg (r.warnings ++ ·) (warnings_exportScene _ _ _ _)

/-! ### Any number of times -/

theorem withoutStates_afterExports (n : Nat) :
    (r.afterExports meshes n).withoutStates = r.withoutStates := by
  induction n with
  | zero => rfl
  | succ n ih => rw [afterExports, withoutStates_exportScene, ih]

theorem scene_afterExports (n : Nat) :
    ((r.afterExports meshes n).exportScene meshes).1 = (r.exportScene meshes).1 :=
  exportScene_congr meshes (r.withoutStates_afterExports meshes n)

theorem warnings_afterExports (n : Nat) :
    (r.afterExports meshes n).warnings =
      r.warnings ++ (List.replicate n (r.meshWarnings meshes)).flatten := by
  induction n with
  | zero => rw [afterExports, List.replicate_zero, List.flatten_nil, List.append_nil]
  | succ n ih =>
    have hsame : (r.afterExports meshes n).meshWarnings meshes = r.meshWarnings meshes := by
      rw [meshWarnings, scene_afterExports, ← meshWarnings]
    rw [afterExports, warnings_snd_exportScene, hsame, ih, List.replicate_succ',
      List.flatten_concat, List.append_assoc]

/-- The first time decides the states. -/
theorem entries_afterExports (n : Nat) :
    (r.afterExports meshes (n + 1)).report.entries = r.report.entries.map ReportEntry.written := by
  induction n with
  | zero => rfl
  | succ n ih =>
    change (r.afterExports meshes (n + 1)).report.entries.map ReportEntry.written = _
    rw [ih, List.map_map]
    exact List.map_congr_left fun e _ ↦ e.written_written

theorem rank_le_afterExports {m n : Nat} (h : m ≤ n) :
    List.Forall₂ (fun e f : ReportEntry ↦ e.state.rank ≤ f.state.rank)
      (r.afterExports meshes m).report.entries (r.afterExports meshes n).report.entries := by
  cases n with
  | zero =>
    rw [Nat.le_zero.mp h]
    exact List.forall₂_same.mpr fun _ _ ↦ Nat.le_refl _
  | succ n =>
    rw [entries_afterExports]
    cases m with
    | zero =>
      exact List.forall₂_map_right_iff.mpr
        (List.forall₂_same.mpr fun e _ ↦ e.rank_le_written)
    | succ m =>
      rw [entries_afterExports]
      exact List.forall₂_same.mpr fun _ _ ↦ Nat.le_refl _

/-- The scene has an object of exactly the placed instances. -/
theorem exists_object_iff {i : Instance} (hi : i ∈ r.instances) :
    (∃ o ∈ (r.exportScene meshes).1.objects, o.name = i.id) ↔
      i.id ∈ r.placements.map (·.instanceId) := by
  have hnames : (r.exportScene meshes).1.objects.map (·.name) =
      idsOf (placedInstances r.instances r.placements) :=
    map_name_objects _ _ _ _
  rw [← List.mem_map, hnames, List.mem_map]
  constructor
  · rintro ⟨j, hj, hid⟩
    exact hid ▸ of_decide_eq_true (List.mem_filter.mp hj).2
  · exact fun h ↦ ⟨i, List.mem_filter.mpr ⟨hi, decide_eq_true h⟩, rfl⟩

variable {r} in
/-- A run whose report is made of its placements keeps its scene however often it is written, and
its entries agree with the objects. -/
theorem Reported.reexported (h : r.Reported) : r.Reexports meshes where
  scene := r.scene_afterExports meshes
  exported n := by
    rw [entries_afterExports, h, List.map_map, List.forall₂_map_right_iff, List.forall₂_same]
    intro i hi
    rw [exists_object_iff _ _ hi]
    refine ⟨?_, ReportEntry.state_written_of _ _ i⟩
    rw [Function.comp_apply, ReportEntry.written]
    split <;> rfl
  rank_le := r.rank_le_afterExports meshes
  warnings := r.warnings_afterExports meshes
  count _ := rfl
  frame := r.withoutStates_afterExports meshes

end Run

namespace RunContext

variable {c : RunContext}

/-- However often the scene of a run is written, from a catalog or from an exchange file, it stays
the same and agrees with the report, and nothing but warnings about meshes is added. -/
theorem Yields.reexports {r : Run} (h : c.Yields r) (meshes : Option MeshSource) :
    r.Reexports meshes := by
  obtain ⟨name, mode, instances, constraints, warnings, -, -, rfl, -⟩ := h.exists_generates
  have hreported : (c.finished name mode instances constraints warnings).Reported := rfl
  exact hreported.reexported meshes

/-- The source has no mesh for a flange and fails for the valve. Written three times, the scene adds
three warnings about the valve. -/
theorem reexports_flanges :
    let rule : Rule :=
      { id := "R-FLANGES", name := "Flanges"
        condition := .both { field := "family", value := some "flange" }
        action := { type := .coincident } }
    let c : RunContext :=
      { parts := [{ id := "V-50", family := .valve }, { id := "F-50", family := .flange },
          { id := "F-80", family := .flange }]
        rules := [rule] }
    let meshes : Option MeshSource := some fun partId ↦
      if partId = "V-50" then .error (.unreadable "V-50.json") else .ok none
    ∃ r, c.Yields r ∧ r.Reexports meshes ∧
      r.report.entries.map (·.state) = List.replicate 8 .placed ∧
      (r.afterExports meshes 3).report.entries.map (·.state) = List.replicate 8 .exported ∧
      (r.meshWarnings meshes).map (·.message) =
        ["no mesh for V-50 (cannot read V-50.json); using a primitive"] ∧
      (r.afterExports meshes 3).statistics.warnings = r.statistics.warnings + 3 := by
  intro rule c meshes
  let r := c.finished "catalog" .catalog (c.parts.map .ofPart)
    (generateCatalog c.parts c.rules c.policy.matching) []
  have hrun : c.runCatalog = .ok r :=
    runCatalog_eq_ok (fun _ ↦ rfl) (List.cons_ne_nil _ _) (by decide)
  have hyields : c.Yields r := .catalog hrun
  exact ⟨r, hyields, hyields.reexports meshes, by decide, by decide, by decide, by decide⟩

end RunContext

end PipingAssembly
