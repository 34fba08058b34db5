import PipingAssembly.Proofs.Run.Direction
import PipingAssembly.Proofs.Run.Ids

/-!
# Looking up placements in a run over a catalog

The instances of a catalog keep the ids of its parts, and what is added to them gets ids made from
those of constraints. Nothing keeps a part from having an id of that form. As long as no part has
one, no id of the run occurs twice and every look-up by an id finds the placement of the instance
itself. Where a part has the id of an instance that was added, the run answers with the placement of
the part and the report and the scene with the other one, each of them for both instances.
-/

namespace PipingAssembly

/-- The id of a bolt or of a gasket of a generated constraint. -/
def IsFastenerId (id : String) : Prop :=
  ∃ index, id = Constraint.idFor index ++ "-GASKET" ∨
    ∃ n, id = Constraint.idFor index ++ "-BOLT-" ++ Decimal.natText (n + 1)

/-- What a report tells of an instance with its placement. -/
def ReportEntry.placed (constraints : List Constraint) (i : Instance) (p : Placement) :
    ReportEntry where
  instanceId := i.id
  partId := i.partId
  pose := p.pose
  placedBy := p.source.placedBy?
  constraints := (constraints.filter (·.touches i.id)).map (·.id)
  fallback := p.isFallback
  role := i.role
  state := .placed

namespace Run

/-- Each instance has its own placement wherever placements are looked up by ids. -/
structure FindsOwn (r : Run) : Prop where
  placement : List.Forall₂ (fun i p ↦ r.placement? i.id = some p) r.instances r.placements
  report : r.report.entries =
    List.zipWith (ReportEntry.placed r.constraints) r.instances r.placements
  scene : ∀ meshes, (r.exportScene meshes).1.objects =
    List.zipWith sceneObject r.instances r.placements

/-- No instance that was added has the id of a part. -/
def Fresh (r : Run) (parts : List Part) : Prop :=
  ∀ i ∈ r.instances, i.isSynthesized = true → ∀ p ∈ parts, p.id ≠ i.id

/-- What the ids of a run over some parts are good for. -/
structure Lookups (r : Run) (parts : List Part) : Prop where
  front : ∃ synthesized, r.instances = parts.map .ofPart ++ synthesized ∧
    ∀ i ∈ synthesized, i.isSynthesized = true
  /-- the placement of an instance is the one at its place -/
  aligned : r.placements.map (·.instanceId) = idsOf r.instances
  nodup_iff : (idsOf r.instances).Nodup ↔ r.Fresh parts
  findsOwn_iff : r.FindsOwn ↔ r.Fresh parts
  fresh : (∀ p ∈ parts, ¬ IsFastenerId p.id) → r.Fresh parts
  /-- of a part and an added instance with its id the run finds the placement of the part, the
  report and the scene that of the added instance, and these are not the same -/
  clash : ∀ (j k : Nat) (i x : Instance), r.instances[j]? = some i → r.instances[k]? = some x →
    i.isSynthesized = false → x.isSynthesized = true → i.id = x.id →
      ∃ p q, r.placements[j]? = some p ∧ r.placements[k]? = some q ∧ p ≠ q ∧
        r.placement? x.id = some p ∧ findPlacement? r.placements x.id = some q

end Run

/-! ### Placements in the order of their instances -/

section Aligned

variable {instances : List Instance} {placements : List Placement}

/-- Where every placement is found by its own id, every instance finds the placement at its place.
-/
theorem forall₂_of_aligned (find : String → Option Placement)
    (haligned : placements.map (·.instanceId) = idsOf instances)
    (hfind : ∀ p ∈ placements, find p.instanceId = some p) :
    List.Forall₂ (fun i p ↦ find i.id = some p) instances placements := by
  induction placements generalizing instances with
  | nil =>
    cases instances with
    | nil => exact .nil
    | cons i is => cases haligned
  | cons p ps ih =>
    cases instances with
    | nil => cases haligned
    | cons i is =>
      have hid : p.instanceId = i.id := (List.cons.inj haligned).1
      refine .cons (hid ▸ hfind p List.mem_cons_self)
        (ih (List.cons.inj haligned).2 fun q hq ↦ hfind q (List.mem_cons_of_mem p hq))

theorem ReportEntry.of_eq_placed {constraints : List Constraint} {i : Instance} {p : Placement}
    (h : findPlacement? placements i.id = some p) :
    ReportEntry.of constraints placements i = .placed constraints i p := by
  rw [ReportEntry.of, h]
  rfl

variable {is : List Instance} {ps : List Placement}

theorem map_reportEntry_of (constraints : List Constraint)
    (h : List.Forall₂ (fun i p ↦ findPlacement? placements i.id = some p) is ps) :
    is.map (ReportEntry.of constraints placements) =
      List.zipWith (ReportEntry.placed constraints) is ps := by
  induction h with
  | nil => rfl
  | cons hp _ ih =>
    rw [List.map_cons, List.zipWith_cons_cons, ReportEntry.of_eq_placed hp, ih]

theorem objects_exportScene (name : String) (meshes : Option MeshSource)
    (h : List.Forall₂ (fun i p ↦ findPlacement? placements i.id = some p) is ps) :
    (exportScene name is placements meshes).1.objects = List.zipWith sceneObject is ps := by
  rw [exportScene]
  induction h with
  | nil => rfl
  | cons hp _ ih =>
    dsimp only at ih ⊢
    simp only [List.filterMap_cons, hp, Option.map_some, List.map_cons, List.zipWith_cons_cons, ih]

end Aligned

namespace RunContext

/-- The passes and the grid make no placement of the kind of those that are added. -/
theorem source_ne_synthesized {instances : List Instance} {constraints : List Constraint}
    {policy : SolverPolicy Float} (hids : (idsOf instances).Nodup) {p : Placement}
    (hp : p ∈ (solution instances constraints policy).placements) (connectionId : String) :
    p.source ≠ .synthesized connectionId := by
  intro hsource
  obtain ⟨i, hi⟩ | hgrid := mem_placements_cases hp
  · obtain ⟨origins, htrail, -⟩ := (traced_spread instances constraints policy hids).trail i p hi
    obtain ⟨hbase, -⟩ | ⟨o, -, -, ⟨d, -, -, hfrom, -⟩, -⟩ := htrail.cases
    · rw [hsource] at hbase
      cases hbase
    · rw [hsource] at hfrom
      cases hfrom
  · rw [Placement.isFallback, hsource] at hgrid
    cases hgrid

/-- The ids of what is added are ids of bolts and gaskets. -/
theorem isFastenerId_of_mem_added (c : RunContext) (instances : List Instance)
    {constraints : List Constraint} (hnumbered : Numbered constraints) {x : Instance}
    (hx : x ∈ (c.added instances constraints).map (·.1)) : IsFastenerId x.id := by
  obtain ⟨joints, hids, hjoints⟩ := c.map_id_added instances constraints
  have hid : x.id ∈ joints.flatMap (·.fastenerIds c.policy.fasteners) :=
    hids ▸ List.mem_map_of_mem hx
  obtain ⟨j, hj, hid⟩ := List.mem_flatMap.mp hid
  obtain ⟨index, hindex⟩ := hnumbered.exists_idFor (hjoints.subset (List.mem_map_of_mem hj))
  refine ⟨index, ?_⟩
  rw [Joint.fastenerIds_eq, List.mem_append] at hid
  obtain hbolt | hgasket := hid
  · obtain ⟨n, -, hn⟩ := List.mem_map.mp hbolt
    exact Or.inr ⟨n, by rw [← hn, Joint.boltId, hindex]⟩
  · split at hgasket
    · exact Or.inl (by rw [List.mem_singleton.mp hgasket, Joint.gasketId, hindex])
    · cases hgasket

section Solved

variable {c : RunContext} {name : String} {mode : Mode} {instances : List Instance}
  {constraints : List Constraint} {warnings : List Warning}

theorem aligned_finished :
    (c.finished name mode instances constraints warnings).placements.map (·.instanceId) =
      idsOf (c.finished name mode instances constraints warnings).instances :=
  c.map_instanceId_finished instances constraints

/-- The placement of an instance has its place and its id. -/
theorem exists_placement {k : Nat} {i : Instance}
    (hi : (c.finished name mode instances constraints warnings).instances[k]? = some i) :
    ∃ p, (c.finished name mode instances constraints warnings).placements[k]? = some p ∧
      p.instanceId = i.id := by
  have hids : ((c.finished name mode instances constraints warnings).placements.map
      (·.instanceId))[k]? = some i.id := by
    rw [aligned_finished, List.getElem?_map, hi]
    rfl
  rw [List.getElem?_map] at hids
  exact Option.map_eq_some_iff.mp hids

/-- Where no id of a run occurs twice every instance finds its own placement. -/
theorem findsOwn_of_nodup
    (hnodup : (idsOf (c.finished name mode instances constraints warnings).instances).Nodup) :
    (c.finished name mode instances constraints warnings).FindsOwn := by
  have hids := hnodup
  rw [← aligned_finished] at hids
  have hlast :=
    forall₂_of_aligned
      (findPlacement? (c.finished name mode instances constraints warnings).placements)
      aligned_finished fun p hp ↦ getLast?_filter_key_append hids hp []
  exact
    { placement := forall₂_of_aligned
        (c.finished name mode instances constraints warnings).placement? aligned_finished
        fun p hp ↦ find?_key hids hp
      report := map_reportEntry_of _ hlast
      scene := fun meshes ↦ objects_exportScene name meshes hlast }

end Solved

section Finished

variable (c : RunContext) (name : String) (warnings : List Warning)

/-- What a run over the catalog ends in. -/
abbrev finishedCatalog : Run :=
  c.finished name .catalog (c.parts.map .ofPart)
    (generateCatalog c.parts c.rules c.policy.matching) warnings

/-- What is added to the catalog. -/
abbrev addedToCatalog : List (Instance × Placement) :=
  c.added (c.parts.map .ofPart) (generateCatalog c.parts c.rules c.policy.matching)

theorem mem_finishedCatalog {i : Instance} :
    i ∈ (c.finishedCatalog name warnings).instances ↔
      (∃ p ∈ c.parts, i = .ofPart p) ∨ i ∈ c.addedToCatalog.map (·.1) := by
  rw [finishedCatalog, finished, List.mem_append, List.mem_map]
  simp only [eq_comm]

variable {c name warnings}

theorem isSynthesized_iff {i : Instance} (hi : i ∈ (c.finishedCatalog name warnings).instances) :
    i.isSynthesized = true ↔ i ∈ c.addedToCatalog.map (·.1) := by
  constructor
  · intro h
    obtain ⟨p, -, rfl⟩ | hadded := (mem_finishedCatalog c name warnings).mp hi
    · cases h
    · exact hadded
  · intro h
    exact isSynthesized_of_mem_map_added h

/-- No id occurs twice exactly if no added instance has the id of a part. -/
theorem nodup_finishedCatalog_iff (hparts : (c.parts.map (·.id)).Nodup) :
    (idsOf (c.finishedCatalog name warnings).instances).Nodup ↔
      (c.finishedCatalog name warnings).Fresh c.parts := by
  have hadded : (idsOf (c.addedToCatalog.map (·.1))).Nodup :=
    c.nodup_added _ (numbered_generateCatalog _ _ _)
  rw [finishedCatalog, finished, idsOf_append, idsOf_map_ofPart, List.nodup_append]
  constructor
  · rintro ⟨-, -, hdisjoint⟩ i hi hsynthesized p hp
    exact hdisjoint p.id (List.mem_map_of_mem hp) i.id
      (List.mem_map_of_mem ((isSynthesized_iff hi).mp hsynthesized))
  · intro hfresh
    refine ⟨hparts, hadded, fun id hid id' hid' ↦ ?_⟩
    obtain ⟨p, hp, rfl⟩ := List.mem_map.mp hid
    obtain ⟨i, hi, rfl⟩ := List.mem_map.mp hid'
    have hmem := (mem_finishedCatalog c name warnings).mpr (Or.inr hi)
    exact hfresh i hmem ((isSynthesized_iff hmem).mpr hi) p hp

/-- The parts come before what was added. -/
theorem isSynthesized_getElem? {k : Nat} {i : Instance}
    (hi : (c.finishedCatalog name warnings).instances[k]? = some i) :
    i.isSynthesized = decide (c.parts.length ≤ k) := by
  rw [finishedCatalog, finished, List.getElem?_append, List.length_map] at hi
  split at hi
  · next hlt =>
    obtain ⟨p, -, rfl⟩ := List.mem_map.mp (List.mem_of_getElem? hi)
    rw [decide_eq_false (Nat.not_le_of_lt hlt)]
    rfl
  · next hge =>
    rw [decide_eq_true (Nat.le_of_not_lt hge)]
    exact isSynthesized_of_mem_map_added (List.mem_of_getElem? hi)

/-- So do their placements. -/
theorem placements_getElem? (k : Nat) :
    (c.finishedCatalog name warnings).placements[k]? =
      if k < c.parts.length then
        (solution (c.parts.map .ofPart) (generateCatalog c.parts c.rules c.policy.matching)
          c.policy.solver).placements[k]?
      else (c.addedToCatalog.map (·.2))[k - c.parts.length]? := by
  rw [finishedCatalog, finished, List.getElem?_append, length_placements, List.length_map]

/-- Where an added instance has the id of a part, one look-up finds the placement of the part and
the other one that of the added instance. -/
theorem clash_finishedCatalog (hparts : (c.parts.map (·.id)).Nodup) {j k : Nat} {i x : Instance}
    (hi : (c.finishedCatalog name warnings).instances[j]? = some i)
    (hx : (c.finishedCatalog name warnings).instances[k]? = some x)
    (hpart : i.isSynthesized = false) (hadded : x.isSynthesized = true) (hid : i.id = x.id) :
    ∃ p q, (c.finishedCatalog name warnings).placements[j]? = some p ∧
      (c.finishedCatalog name warnings).placements[k]? = some q ∧ p ≠ q ∧
      (c.finishedCatalog name warnings).placement? x.id = some p ∧
      findPlacement? (c.finishedCatalog name warnings).placements x.id = some q := by
  have hids : (idsOf (c.parts.map .ofPart)).Nodup := by rwa [idsOf_map_ofPart]
  obtain ⟨p, hp, hpid⟩ := exists_placement hi
  obtain ⟨q, hq, hqid⟩ := exists_placement hx
  refine ⟨p, q, hp, hq, ?_⟩
  have hp' := hp
  have hq' := hq
  rw [isSynthesized_getElem? hi, decide_eq_false_iff_not, Nat.not_le] at hpart
  rw [isSynthesized_getElem? hx, decide_eq_true_eq] at hadded
  rw [placements_getElem?, if_pos hpart] at hp'
  rw [placements_getElem?, if_neg (Nat.not_lt_of_le hadded)] at hq'
  have hpmem := List.mem_of_getElem? hp'
  have hqmem := List.mem_of_getElem? hq'
  have hqs : ((c.addedToCatalog.map (·.2)).map (·.instanceId)).Nodup := by
    rw [map_instanceId_added]
    exact c.nodup_added _ (numbered_generateCatalog _ _ _)
  refine ⟨?_, ?_, ?_⟩
  · rintro rfl
    obtain ⟨connectionId, hsource⟩ := source_of_mem_added hqmem
    exact source_ne_synthesized hids hpmem connectionId hsource
  · rw [← hid, ← hpid]
    exact find?_key_append (nodup_placements hids) hpmem _
  · rw [← hqid]
    exact getLast?_filter_key_append hqs hqmem _

/-- An added instance with the id of a part does not find its own placement. -/
theorem fresh_of_findsOwn (hparts : (c.parts.map (·.id)).Nodup)
    (h : (c.finishedCatalog name warnings).FindsOwn) :
    (c.finishedCatalog name warnings).Fresh c.parts := by
  intro x hx hsynthesized part hpart hid
  obtain ⟨k, hk⟩ := List.mem_iff_getElem?.mp hx
  obtain ⟨j, hj⟩ := List.mem_iff_getElem?.mp
    ((mem_finishedCatalog c name warnings).mpr (Or.inl ⟨part, hpart, rfl⟩))
  obtain ⟨p, q, -, hq, hne, hfind, -⟩ := clash_finishedCatalog hparts hj hk rfl hsynthesized hid
  obtain ⟨hklt, rfl⟩ := List.getElem?_eq_some_iff.mp hk
  obtain ⟨hqlt, rfl⟩ := List.getElem?_eq_some_iff.mp hq
  have hown := (List.forall₂_iff_get.mp h.placement).2 k hklt hqlt
  exact hne (Option.some.inj (hfind.symm.trans hown))

/-- Where no part has the id of a bolt or a gasket none has that of an added instance. -/
theorem fresh_of_notFastenerId (h : ∀ p ∈ c.parts, ¬ IsFastenerId p.id) :
    (c.finishedCatalog name warnings).Fresh c.parts := by
  intro i hi hsynthesized p hp hid
  apply h p hp
  rw [hid]
  exact c.isFastenerId_of_mem_added _ (numbered_generateCatalog _ _ _)
    ((isSynthesized_iff hi).mp hsynthesized)

end Finished

/-- A run over a catalog keeps its instances apart, and finds for each of them its own placement,
exactly if no part has the id of an instance that is added. Nothing but the names of the parts sees
to that. -/
theorem lookups_of_runCatalog {c : RunContext} {r : Run} (h : c.runCatalog = .ok r) :
    r.Lookups c.parts := by
  obtain ⟨-, -, hfinish⟩ := assembleCatalog_eq_ok.mp h
  obtain ⟨-, -, hids, rfl⟩ := finish_eq_ok.mp hfinish
  have hparts : (c.parts.map (·.id)).Nodup := by rwa [idsOf_map_ofPart] at hids
  exact
    { front := ⟨_, rfl, fun _ hi ↦ isSynthesized_of_mem_map_added hi⟩
      aligned := aligned_finished
      nodup_iff := nodup_finishedCatalog_iff hparts
      findsOwn_iff := ⟨fresh_of_findsOwn hparts, fun hfresh ↦
        findsOwn_of_nodup ((nodup_finishedCatalog_iff hparts).mpr hfresh)⟩
      fresh := fresh_of_notFastenerId
      clash := fun _ _ _ _ hi hx ↦ clash_finishedCatalog hparts hi hx }

/-- The gasket between two flanges gets the id of a third part. -/
theorem lookups_gasket :
    let rule : Rule :=
      { id := "R-FLANGES", name := "Flanges"
        condition := .both { field := "family", value := some "flange" }
        action := { type := .coincident } }
    let c : RunContext :=
      { parts := [{ id := "F-50", family := .flange }, { id := "F-80", family := .flange },
          { id := "C001-GASKET" }]
        rules := [rule]
        policy := { fasteners := { FastenerPolicy.default with defaultBoltCount := 0 } } }
    (c.parts.map (·.id)).Nodup ∧ ∃ r, c.runCatalog = .ok r ∧ r.Lookups c.parts ∧
      idsOf r.instances = ["F-50", "F-80", "C001-GASKET", "C001-GASKET"] ∧
      (r.placement? "C001-GASKET").map (·.source) = some (.fallback 0) ∧
      (findPlacement? r.placements "C001-GASKET").map (·.source) = some (.synthesized "C001") := by
  intro rule c
  have hrun : c.runCatalog = .ok (c.finishedCatalog "catalog" []) :=
    assembleCatalog_eq_ok.mpr
      ⟨List.cons_ne_nil _ _, rfl, finish_eq_ok.mpr ⟨rfl, rfl, by decide, rfl⟩⟩
  exact ⟨by decide, _, hrun, lookups_of_runCatalog hrun, by decide, by decide, by decide⟩

end RunContext

end PipingAssembly
