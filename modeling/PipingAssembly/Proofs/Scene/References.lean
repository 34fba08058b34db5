import PipingAssembly.Proofs.Catalog.Firsts
import PipingAssembly.Proofs.Fasteners.Connections
import PipingAssembly.Proofs.Part.Entries
import PipingAssembly.Scene.Codec

/-!
# References in a scene

A scene is made by going through the instances once. Each one with a placement becomes an object,
and the first object of a part brings the geometry and the material that all its objects refer to.
So each of these lists has one entry for every part id among the objects: no reference is dangling
and no entry is idle.
-/

namespace PipingAssembly

/-- The instances that have a placement, in order. -/
def placedInstances (instances : List Instance) (placements : List Placement) : List Instance :=
  instances.filter fun i ↦ decide (i.id ∈ placements.map (·.instanceId))

/-- The first placed instance of each part id, in order. -/
def shownInstances (instances : List Instance) (placements : List Placement) : List Instance :=
  firstOfEach (·.partId) (placedInstances instances placements)

/-- Whether a geometry is a shape that stands for a part without a mesh. -/
def Geometry.isPrimitive : Geometry → Bool
  | box .. => true
  | cylinder .. => true
  | mesh .. => false

/-- Why the source of meshes fails for a part id, if it does. -/
def meshFailure? (meshes : Option MeshSource) (partId : String) : Option MeshError :=
  match meshes.map fun source : MeshSource ↦ source partId with
  | some (.error e) => some e
  | _ => none

/-! ### Shared lists -/

/-- Whether a list of a scene, with the ids of its entries, is what objects refer to: it has one
entry for each of their part ids, in the order of part ids. -/
structure SharedBy {α : Type} (entries : List (String × α)) (uuid : α → String)
    (objects : List SceneObject) (reference : SceneObject → String) : Prop where
  ordered : KeysRise entries
  mem_keys_iff (partId : String) :
    partId ∈ entries.map Prod.fst ↔ partId ∈ objects.map (·.partId)
  distinct : (entries.map fun e ↦ uuid e.2).Nodup
  /-- an object refers to the entry of its part and to no other one -/
  refers : ∀ o ∈ objects, ∃ a, (o.partId, a) ∈ entries ∧
    ∀ e ∈ entries, uuid e.2 = reference o ↔ e = (o.partId, a)
  /-- no entry is idle -/
  used : ∀ e ∈ entries, ∃ o ∈ objects, o.partId = e.1 ∧ reference o = uuid e.2

/-- Entries whose ids are their part ids behind a mark are shared by objects of these parts. -/
theorem sharedBy_sortEntries {α : Type} {uuid : α → String} {objects : List SceneObject}
    {reference : SceneObject → String} {mark : String} {entry : Instance → α}
    {shown : List Instance} (huuid : ∀ i, uuid (entry i) = mark ++ i.partId)
    (href : ∀ o ∈ objects, reference o = mark ++ o.partId)
    (hshown : ∀ partId, partId ∈ shown.map (·.partId) ↔ partId ∈ objects.map (·.partId))
    (hnodup : (shown.map (·.partId)).Nodup) :
    SharedBy (sortEntries (shown.map fun i ↦ (i.partId, entry i))) uuid objects reference := by
  have hkeys : (shown.map fun i ↦ (i.partId, entry i)).map Prod.fst = shown.map (·.partId) :=
    List.map_map
  have hperm := sortEntries_perm (hkeys ▸ hnodup)
  have hrise := keysRise_sortEntries (shown.map fun i ↦ (i.partId, entry i))
  generalize sortEntries (shown.map fun i ↦ (i.partId, entry i)) = entries at hperm hrise
  have hmem : ∀ partId, partId ∈ entries.map Prod.fst ↔ partId ∈ objects.map (·.partId) := by
    intro partId
    rw [(hperm.map Prod.fst).mem_iff, hkeys, hshown]
  have hmark : ∀ e ∈ entries, uuid e.2 = mark ++ e.1 := by
    intro e he
    rcases List.mem_map.mp (hperm.mem_iff.mp he) with ⟨i, -, rfl⟩
    exact huuid i
  refine ⟨hrise, hmem, ?_, fun o ho ↦ ?_, fun e he ↦ ?_⟩
  · have huuids : entries.map (fun e ↦ uuid e.2) = (entries.map Prod.fst).map (mark ++ ·) := by
      rw [List.map_map]
      exact List.map_congr_left hmark
    rw [huuids]
    exact hrise.nodup.map fun _ _ ↦ (String.append_right_inj mark).mp
  · rcases List.mem_map.mp ((hmem o.partId).mpr (List.mem_map_of_mem ho)) with ⟨own, hown, hpart⟩
    refine ⟨own.2, hpart ▸ hown, fun e he ↦ ?_⟩
    rw [hmark e he, href o ho, String.append_right_inj, ← hpart]
    exact ⟨fun heq ↦ List.inj_on_of_nodup_map hrise.nodup he hown heq, fun heq ↦ heq ▸ rfl⟩
  · rcases List.mem_map.mp ((hmem e.1).mp (List.mem_map_of_mem he)) with ⟨o, ho, hpart⟩
    exact ⟨o, ho, hpart, by rw [href o ho, hmark e he, hpart]⟩

/-! ### Geometries of parts -/

theorem primitiveGeometry_uuid (uuid : String) (i : Instance) :
    (primitiveGeometry uuid i).uuid = uuid := by
  rw [primitiveGeometry]
  cases i.family <;> dsimp only <;> repeat' split
  all_goals rfl

theorem isPrimitive_primitiveGeometry (uuid : String) (i : Instance) :
    (primitiveGeometry uuid i).isPrimitive = true := by
  rw [primitiveGeometry]
  cases i.family <;> dsimp only <;> repeat' split
  all_goals rfl

/-- The geometry of a part is its mesh where the source has one, and else a primitive. -/
theorem partGeometry_fst (meshes : Option MeshSource) (i : Instance) :
    (partGeometry meshes i).1 =
      match meshes.map fun source : MeshSource ↦ source i.partId with
      | some (.ok (some m)) => .mesh ("geo-" ++ i.partId) m
      | _ => primitiveGeometry ("geo-" ++ i.partId) i := by
  rw [partGeometry]
  rcases meshes.map (fun source : MeshSource ↦ source i.partId) with _ | _ | _ | _ <;> rfl

theorem partGeometry_uuid (meshes : Option MeshSource) (i : Instance) :
    (partGeometry meshes i).1.uuid = "geo-" ++ i.partId := by
  rw [partGeometry_fst]
  split
  · rfl
  · exact primitiveGeometry_uuid _ i

theorem partGeometry_snd (meshes : Option MeshSource) (i : Instance) :
    (partGeometry meshes i).2 =
      (meshFailure? meshes i.partId).map fun e ↦ .geometryUnavailable i.partId e.message := by
  rw [partGeometry, meshFailure?]
  rcases meshes.map (fun source : MeshSource ↦ source i.partId) with _ | _ | _ | _ <;> rfl

/-- A primitive stands for a part whose mesh fails. -/
theorem isPrimitive_partGeometry {meshes : Option MeshSource} {i : Instance}
    (h : (meshFailure? meshes i.partId).isSome = true) :
    (partGeometry meshes i).1.isPrimitive = true := by
  rw [partGeometry_fst]
  split
  case h_1 m hm =>
    rw [meshFailure?, hm] at h
    cases h
  case h_2 => exact isPrimitive_primitiveGeometry _ i

/-! ### Exported scenes -/

section Export

variable (name : String) (instances : List Instance) (placements : List Placement)
  (meshes : Option MeshSource)

/-- The placed instances with their placements. -/
private def placedPairs : List (Instance × Placement) :=
  instances.filterMap fun i ↦ (findPlacement? placements i.id).map (i, ·)

private theorem map_fst_placedPairs :
    (placedPairs instances placements).map (·.1) = placedInstances instances placements := by
  rw [placedPairs, List.map_filterMap, placedInstances, ← List.filterMap_eq_filter]
  apply List.filterMap_congr
  intro i _
  by_cases hplaced : i.id ∈ placements.map (·.instanceId)
  · rcases Option.isSome_iff_exists.mp (findPlacement?_isSome.mpr hplaced) with ⟨p, hp⟩
    simp [hp, Option.guard, hplaced]
  · have hnone : findPlacement? placements i.id = none :=
      Option.not_isSome_iff_eq_none.mp (mt findPlacement?_isSome.mp hplaced)
    simp [hnone, Option.guard, hplaced]

theorem firstOfEachPart_eq (is : List Instance) : firstOfEachPart is = firstOfEach (·.partId) is := by
  induction is with
  | nil => rfl
  | cons i is ih => rw [firstOfEachPart, firstOfEach, ih]

/-- The scene and the warnings are made of the first instances of the parts. -/
private theorem exportScene_eq :
    exportScene name instances placements meshes =
      ⟨⟨name,
        sortEntries ((shownInstances instances placements).map fun i ↦
          (i.partId, (partGeometry meshes i).1)),
        sortEntries ((shownInstances instances placements).map fun i ↦
          (i.partId, ⟨"mat-" ++ i.partId, partColor i.partId⟩)),
        (placedPairs instances placements).map fun x ↦ sceneObject x.1 x.2⟩,
        (shownInstances instances placements).filterMap fun i ↦ (partGeometry meshes i).2⟩ := by
  rw [shownInstances, ← map_fst_placedPairs, ← firstOfEachPart_eq]
  rfl

private theorem geometries_exportScene :
    (exportScene name instances placements meshes).1.geometries =
      sortEntries ((shownInstances instances placements).map fun i ↦
        (i.partId, (partGeometry meshes i).1)) := by
  rw [exportScene_eq]

private theorem materials_exportScene :
    (exportScene name instances placements meshes).1.materials =
      sortEntries ((shownInstances instances placements).map fun i ↦
        (i.partId, ⟨"mat-" ++ i.partId, partColor i.partId⟩)) := by
  rw [exportScene_eq]

/-- There is one object for each placed instance, in order. -/
theorem forall₂_objects :
    List.Forall₂ (fun i o ↦ ∃ p, findPlacement? placements i.id = some p ∧ o = sceneObject i p)
      (placedInstances instances placements)
      (exportScene name instances placements meshes).1.objects := by
  rw [exportScene_eq, ← map_fst_placedPairs, List.forall₂_map_left_iff, List.forall₂_map_right_iff,
    List.forall₂_same]
  intro x hx
  rcases List.mem_filterMap.mp hx with ⟨i, -, hi⟩
  rcases Option.map_eq_some_iff.mp hi with ⟨p, hp, rfl⟩
  exact ⟨p, hp, rfl⟩

theorem map_partId_objects :
    (exportScene name instances placements meshes).1.objects.map (·.partId) =
      (placedInstances instances placements).map (·.partId) := by
  rw [exportScene_eq, ← map_fst_placedPairs, List.map_map, List.map_map]
  rfl

theorem map_name_objects :
    (exportScene name instances placements meshes).1.objects.map (·.name) =
      (placedInstances instances placements).map (·.id) := by
  rw [exportScene_eq, ← map_fst_placedPairs, List.map_map, List.map_map]
  rfl

theorem map_partId_shownInstances :
    (shownInstances instances placements).map (·.partId) =
      ((exportScene name instances placements meshes).1.objects.map (·.partId)).eraseDups := by
  rw [shownInstances, map_firstOfEach, map_partId_objects]

theorem warnings_exportScene :
    (exportScene name instances placements meshes).2 =
      ((exportScene name instances placements meshes).1.objects.map (·.partId)).eraseDups.filterMap
        fun partId ↦ (meshFailure? meshes partId).map fun e ↦
          .geometryUnavailable partId e.message := by
  rw [← map_partId_shownInstances, exportScene_eq, List.filterMap_map]
  exact List.filterMap_congr fun (i : Instance) _ ↦ partGeometry_snd meshes i

variable {name instances placements meshes}

theorem references_of_mem_objects {o : SceneObject}
    (h : o ∈ (exportScene name instances placements meshes).1.objects) :
    o.geometry = "geo-" ++ o.partId ∧ o.material = "mat-" ++ o.partId := by
  rw [exportScene_eq] at h
  rcases List.mem_map.mp h with ⟨x, -, rfl⟩
  exact ⟨rfl, rfl⟩

/-- A list with one entry for the first instance of each part is shared by the objects. -/
theorem sharedBy_objects {α : Type} {uuid : α → String} {reference : SceneObject → String}
    {mark : String} {entry : Instance → α} (huuid : ∀ i, uuid (entry i) = mark ++ i.partId)
    (href : ∀ o ∈ (exportScene name instances placements meshes).1.objects,
      reference o = mark ++ o.partId) :
    SharedBy (sortEntries ((shownInstances instances placements).map fun i ↦ (i.partId, entry i)))
      uuid (exportScene name instances placements meshes).1.objects reference := by
  apply sharedBy_sortEntries huuid href
  · intro partId
    rw [map_partId_shownInstances name instances placements meshes, List.mem_eraseDups]
  · exact nodup_firstOfEach Instance.partId _

theorem sharedBy_geometries :
    SharedBy (exportScene name instances placements meshes).1.geometries Geometry.uuid
      (exportScene name instances placements meshes).1.objects (·.geometry) := by
  rw [geometries_exportScene]
  exact sharedBy_objects (partGeometry_uuid meshes) fun o ho ↦ (references_of_mem_objects ho).1

theorem sharedBy_materials :
    SharedBy (exportScene name instances placements meshes).1.materials Material.uuid
      (exportScene name instances placements meshes).1.objects (·.material) := by
  rw [materials_exportScene]
  exact sharedBy_objects (fun _ ↦ rfl) fun o ho ↦ (references_of_mem_objects ho).2

/-- The marks keep the ids of geometries and those of materials apart. -/
theorem uuid_ne_uuid {g : String × Geometry} {m : String × Material}
    (hg : g ∈ (exportScene name instances placements meshes).1.geometries)
    (hm : m ∈ (exportScene name instances placements meshes).1.materials) :
    g.2.uuid ≠ m.2.uuid := by
  rcases sharedBy_geometries.used g hg with ⟨o, ho, -, hgeometry⟩
  rcases sharedBy_materials.used m hm with ⟨o', ho', -, hmaterial⟩
  rw [← hgeometry, ← hmaterial, (references_of_mem_objects ho).1,
    (references_of_mem_objects ho').2]
  intro heq
  have hchars := congrArg String.toList heq
  rw [String.toList_append, String.toList_append] at hchars
  exact absurd (List.cons.inj hchars).1 (by decide)

/-- A geometry is that of the first placed instance of its part. -/
theorem exists_of_mem_geometries {e : String × Geometry}
    (h : e ∈ (exportScene name instances placements meshes).1.geometries) :
    ∃ i, (placedInstances instances placements).find? (·.partId == i.partId) = some i ∧
      e = (i.partId, (partGeometry meshes i).1) := by
  have hnodup : (((shownInstances instances placements).map fun i ↦
      (i.partId, (partGeometry meshes i).1)).map Prod.fst).Nodup := by
    rw [List.map_map]
    exact nodup_firstOfEach Instance.partId _
  rw [geometries_exportScene, (sortEntries_perm hnodup).mem_iff] at h
  rcases List.mem_map.mp h with ⟨i, hi, rfl⟩
  exact ⟨i, (mem_firstOfEach_iff _).mp hi, rfl⟩

end Export

/-! ### One instance after another -/

/-- A scene and its warnings with one more object. The first object of a part brings its geometry,
its material and the warning if there is one. -/
def Scene.withObject (meshes : Option MeshSource) (x : Scene × List Warning) (i : Instance)
    (p : Placement) : Scene × List Warning :=
  let (scene, warnings) := x
  let objects := scene.objects ++ [sceneObject i p]
  if i.partId ∈ scene.objects.map (·.partId) then
    (⟨scene.name, scene.geometries, scene.materials, objects⟩, warnings)
  else
    (⟨scene.name, insertSorted i.partId (partGeometry meshes i).1 scene.geometries,
      insertSorted i.partId ⟨"mat-" ++ i.partId, partColor i.partId⟩ scene.materials, objects⟩,
      warnings ++ (partGeometry meshes i).2.toList)

section Concat

variable {instances : List Instance} {placements : List Placement} {i : Instance} {p : Placement}

private theorem placedPairs_concat (hp : findPlacement? placements i.id = some p) :
    placedPairs (instances ++ [i]) placements = placedPairs instances placements ++ [(i, p)] := by
  simp [placedPairs, hp]

private theorem shownInstances_concat (instances : List Instance)
    (hp : findPlacement? placements i.id = some p) :
    shownInstances (instances ++ [i]) placements =
      if i.partId ∈ (placedInstances instances placements).map (·.partId) then
        shownInstances instances placements
      else shownInstances instances placements ++ [i] := by
  rw [shownInstances, shownInstances, ← map_fst_placedPairs, placedPairs_concat hp, List.map_append,
    map_fst_placedPairs]
  exact firstOfEach_concat _ _ _

private theorem filterMap_warning_singleton (meshes : Option MeshSource) (i : Instance) :
    [i].filterMap (fun i ↦ (partGeometry meshes i).2) = (partGeometry meshes i).2.toList := by
  rw [List.filterMap_cons]
  cases (partGeometry meshes i).2 <;> rfl

/-- One more instance is passed over if it has no placement, and else becomes one more object. -/
theorem exportScene_concat (name : String) (instances : List Instance) (i : Instance)
    (placements : List Placement) (meshes : Option MeshSource) :
    exportScene name (instances ++ [i]) placements meshes =
      match findPlacement? placements i.id with
      | none => exportScene name instances placements meshes
      | some p => Scene.withObject meshes (exportScene name instances placements meshes) i p := by
  cases hp : findPlacement? placements i.id with
  | none =>
    have hpairs : placedPairs (instances ++ [i]) placements = placedPairs instances placements := by
      simp [placedPairs, hp]
    simp only [exportScene_eq, shownInstances, ← map_fst_placedPairs, hpairs]
  | some p =>
    have hshown := shownInstances_concat instances hp
    dsimp only
    rw [Scene.withObject, map_partId_objects]
    split
    next hmem =>
      rw [if_pos hmem] at hshown
      simp only [exportScene_eq, hshown, placedPairs_concat hp, List.map_append, List.map_singleton]
    next hmem =>
      rw [if_neg hmem] at hshown
      simp only [exportScene_eq, hshown, placedPairs_concat hp, List.map_append, List.map_singleton,
        sortEntries_concat, List.filterMap_append, filterMap_warning_singleton]

end Concat

/-- A scene is made by going through the instances once. -/
theorem exportScene_eq_foldl (name : String) (instances : List Instance)
    (placements : List Placement) (meshes : Option MeshSource) :
    exportScene name instances placements meshes =
      instances.foldl (fun x i ↦
        match findPlacement? placements i.id with
        | none => x
        | some p => Scene.withObject meshes x i p) (⟨name, [], [], []⟩, []) := by
  induction instances using List.reverseRecOn with
  | nil => rfl
  | append_singleton instances i ih => rw [exportScene_concat, ih, List.foldl_concat]

/-! ### References -/

/-- Whether a scene shows the placed ones among instances, their parts being drawn by a source of
meshes, and the warnings are about the parts for which the source fails. -/
structure Scene.Shows (s : Scene) (warnings : List Warning) (instances : List Instance)
    (placements : List Placement) (meshes : Option MeshSource) : Prop where
  objects : List.Forall₂
    (fun i o ↦ ∃ p, findPlacement? placements i.id = some p ∧ o = sceneObject i p)
    (placedInstances instances placements) s.objects
  count (single : Float32 → Float) :
    ((s.toValue single).get? "metadata").bind (·.get? "object_count") =
      some (.int (placedInstances instances placements).length)
  geometries : SharedBy s.geometries Geometry.uuid s.objects (·.geometry)
  materials : SharedBy s.materials Material.uuid s.objects (·.material)
  apart : ∀ g ∈ s.geometries, ∀ m ∈ s.materials, g.2.uuid ≠ m.2.uuid
  /-- a part has its mesh if there is one, and else the primitive of its first placed instance -/
  shape : ∀ e ∈ s.geometries, ∃ i,
    (placedInstances instances placements).find? (·.partId == e.1) = some i ∧
      e.2 = match meshes.map fun source : MeshSource ↦ source e.1 with
        | some (.ok (some m)) => .mesh ("geo-" ++ e.1) m
        | _ => primitiveGeometry ("geo-" ++ e.1) i
  primitive : ∀ e ∈ s.geometries, (meshFailure? meshes e.1).isSome = true →
    e.2.isPrimitive = true
  /-- each part id for which the source fails is warned of once, where it is first used -/
  warnings : warnings = (s.objects.map (·.partId)).eraseDups.filterMap fun partId ↦
    (meshFailure? meshes partId).map fun e ↦ .geometryUnavailable partId e.message

/-- An exported scene shows the placed instances. Each object refers to one geometry and one
material, each of these is that of some object, and a part whose mesh fails has a primitive. -/
theorem shows_exportScene (name : String) (instances : List Instance) (placements : List Placement)
    (meshes : Option MeshSource) :
    (exportScene name instances placements meshes).1.Shows
      (exportScene name instances placements meshes).2 instances placements meshes := by
  have hobjects := forall₂_objects name instances placements meshes
  refine
    { objects := hobjects
      count := fun single ↦ ?_
      geometries := sharedBy_geometries
      materials := sharedBy_materials
      apart := fun g hg m hm ↦ uuid_ne_uuid hg hm
      shape := fun e he ↦ ?_
      primitive := fun e he hfails ↦ ?_
      warnings := warnings_exportScene name instances placements meshes }
  · rw [hobjects.length_eq]
    rfl
  · rcases exists_of_mem_geometries he with ⟨i, hi, rfl⟩
    exact ⟨i, hi, partGeometry_fst meshes i⟩
  · rcases exists_of_mem_geometries he with ⟨i, -, rfl⟩
    exact isPrimitive_partGeometry hfails

end PipingAssembly
