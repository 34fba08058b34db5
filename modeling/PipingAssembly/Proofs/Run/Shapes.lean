import PipingAssembly.Proofs.Run.Accounting
import PipingAssembly.Proofs.Scene.References

/-!
# What the instances of a run are drawn as

Without a source of meshes all objects of a part share the primitive of the first instance with its
part id. A primitive is made of the family, the part id and, for flanges and gaskets, the nominal
diameter. The instances that a run begins with get all of these from their part id, through the
catalog or the name of the product, so each of them is drawn as what it is. A fastener gets its part
id from a rule or from the policy, and nothing keeps a part or another joint from having the same
one: it is drawn as what comes first with that id.
-/

namespace PipingAssembly

/-- The geometry that an object of a scene refers to. -/
def Scene.shape? (s : Scene) (o : SceneObject) : Option Geometry :=
  (s.geometries.find? fun e ↦ e.2.uuid == o.geometry).map (·.2)

namespace Run

/-- Whether an object in the scene of a run without a source of meshes refers to the primitive of an
instance. -/
def Shows (r : Run) (o : SceneObject) (i : Instance) : Prop :=
  (r.exportScene none).1.shape? o = some (primitiveGeometry o.geometry i)

/-- What the object of an instance of a run refers to. -/
structure Draws (r : Run) (i : Instance) (o : SceneObject) : Prop where
  name : o.name = i.id
  partId : o.partId = i.partId
  /-- the first instance with the part id decides -/
  first : ∃ f, r.instances.find? (·.partId == i.partId) = some f ∧ r.Shows o f
  own : i.isSynthesized = false → r.Shows o i
  /-- a fastener is drawn as what it is if the first instance with its part id is of its family and,
  as a gasket, of its nominal diameter -/
  added : ∀ f, r.instances.find? (·.partId == i.partId) = some f → i.isSynthesized = true →
    f.family = i.family → (i.family = .gasket → f.dn.getD 50 = i.dn.getD 50) → r.Shows o i

end Run

/-! ### Primitives -/

/-- A primitive is made of the part id, the family and, for two families, the nominal diameter. -/
theorem primitiveGeometry_congr {i j : Instance} (uuid : String) (hpart : i.partId = j.partId)
    (hfamily : i.family = j.family)
    (hdn : j.family = .flange ∨ j.family = .gasket → i.dn.getD 50 = j.dn.getD 50) :
    primitiveGeometry uuid i = primitiveGeometry uuid j := by
  rw [primitiveGeometry, primitiveGeometry, hpart, hfamily]
  cases hj : j.family with
  | flange => rw [hdn (Or.inl hj)]
  | gasket => rw [hdn (Or.inr hj)]
  | pipe | valve | bolt | nut | other => rfl

/-- An object refers to the geometry of its part. -/
theorem Scene.shape?_eq_some {s : Scene}
    (h : SharedBy s.geometries Geometry.uuid s.objects (·.geometry)) {o : SceneObject}
    (ho : o ∈ s.objects) : ∃ g, (o.partId, g) ∈ s.geometries ∧ s.shape? o = some g := by
  obtain ⟨g, hg, hrefers⟩ := h.refers o ho
  refine ⟨g, hg, ?_⟩
  rw [shape?]
  cases hfind : s.geometries.find? fun e ↦ e.2.uuid == o.geometry with
  | none =>
    have hmissed := List.find?_eq_none.mp hfind _ hg
    rw [beq_iff_eq] at hmissed
    exact absurd ((hrefers _ hg).mpr rfl) hmissed
  | some e =>
    have huuid := List.find?_some hfind
    rw [beq_iff_eq] at huuid
    rw [(hrefers e (List.mem_of_find?_eq_some hfind)).mp huuid]
    rfl

/-- An object refers to what is made of the first placed instance with its part id. -/
theorem shape?_exportScene (name : String) (instances : List Instance)
    (placements : List Placement) (meshes : Option MeshSource) {o : SceneObject}
    (ho : o ∈ (exportScene name instances placements meshes).1.objects) :
    ∃ f, (placedInstances instances placements).find? (·.partId == o.partId) = some f ∧
      (exportScene name instances placements meshes).1.shape? o =
        some (partGeometry meshes f).1 := by
  obtain ⟨g, hg, hgeometry⟩ := Scene.shape?_eq_some sharedBy_geometries ho
  obtain ⟨f, hf, heq⟩ := exists_of_mem_geometries hg
  rw [Prod.mk.injEq] at heq
  rw [heq.2] at hgeometry
  refine ⟨f, ?_, hgeometry⟩
  rw [heq.1]
  exact hf

/-! ### Instances that a run begins with -/

/-- The name of a product tells its family and its nominal diameter. -/
theorem Exchange.Occurrence.shape_toInstance (o : Exchange.Occurrence) (n : Nat) :
    (o.toInstance n).partId = o.name ∧ (o.toInstance n).family = Family.infer o.name ∧
      (o.toInstance n).dn = Part.diameterIn o.name := by
  -- not by `rfl`, which would take the reading of diameters apart
  cases hframe : o.frame <;>
    simp only [toInstance, hframe, Instance.ofPart, Part.ofProduct, and_self]

namespace RunContext

variable {c : RunContext}

theorem partId_withCatalogEntry (c : RunContext) (i : Instance) :
    (c.withCatalogEntry i).partId = i.partId := by
  rw [withCatalogEntry]
  cases findPart? c.parts i.partId <;> rfl

/-- The catalog has one entry at most for a part id. -/
theorem withCatalogEntry_congr {i j : Instance} (hpart : i.partId = j.partId)
    (hfamily : i.family = j.family) (hdn : i.dn = j.dn) :
    (c.withCatalogEntry i).family = (c.withCatalogEntry j).family ∧
      (c.withCatalogEntry i).dn = (c.withCatalogEntry j).dn := by
  rw [withCatalogEntry, withCatalogEntry, hpart]
  cases findPart? c.parts j.partId with
  | none => exact ⟨hfamily, hdn⟩
  | some p => exact ⟨rfl, by rw [hdn]⟩

/-- What a run begins with has its family and its nominal diameter from its part id. -/
theorem Generates.shape_eq {mode : Mode} {instances : List Instance} {constraints : List Constraint}
    (h : c.Generates mode instances constraints) (hids : (idsOf instances).Nodup) {i j : Instance}
    (hi : i ∈ instances) (hj : j ∈ instances) (hpart : i.partId = j.partId) :
    i.family = j.family ∧ i.dn = j.dn := by
  cases h with
  | catalog hparts =>
    have hid : ∀ k ∈ c.parts.map Instance.ofPart, k.id = k.partId := by
      intro k hk
      obtain ⟨p, -, rfl⟩ := List.mem_map.mp hk
      rfl
    have hsame : i.id = j.id := (hid i hi).trans (hpart.trans (hid j hj).symm)
    rw [List.inj_on_of_nodup_map hids hi hj hsame]
    exact ⟨rfl, rfl⟩
  | exchange text hinstances =>
    obtain ⟨x, hx, rfl⟩ := List.mem_map.mp hi
    obtain ⟨y, hy, rfl⟩ := List.mem_map.mp hj
    rw [partId_withCatalogEntry, partId_withCatalogEntry] at hpart
    obtain ⟨o, n, rfl, -⟩ := Exchange.exists_toInstance hx
    obtain ⟨u, m, rfl, -⟩ := Exchange.exists_toInstance hy
    obtain ⟨hpart₁, hfamily₁, hdn₁⟩ := o.shape_toInstance n
    obtain ⟨hpart₂, hfamily₂, hdn₂⟩ := u.shape_toInstance m
    have hname : o.name = u.name := hpart₁.symm.trans (hpart.trans hpart₂)
    apply withCatalogEntry_congr hpart
    · rw [hfamily₁, hfamily₂, hname]
    · rw [hdn₁, hdn₂, hname]

/-! ### Instances of a run -/

section Finished

variable {name : String} {mode : Mode} {instances : List Instance} {constraints : List Constraint}
  {warnings : List Warning}

/-- A run leaves no instance out of its scene. -/
theorem placedInstances_finished :
    placedInstances (c.finished name mode instances constraints warnings).instances
        (c.finished name mode instances constraints warnings).placements =
      (c.finished name mode instances constraints warnings).instances := by
  rw [placedInstances, List.filter_eq_self]
  intro i hi
  rw [decide_eq_true_eq, aligned_finished]
  exact List.mem_map_of_mem hi

/-- The object of an instance refers to the primitive of the first instance with its part id. -/
theorem exists_shows_first {o : SceneObject}
    (ho : o ∈ ((c.finished name mode instances constraints warnings).exportScene none).1.objects) :
    ∃ f, (c.finished name mode instances constraints warnings).instances.find?
        (·.partId == o.partId) = some f ∧
      (c.finished name mode instances constraints warnings).Shows o f := by
  obtain ⟨f, hf, hgeometry⟩ := shape?_exportScene _ _ _ _ ho
  rw [placedInstances_finished] at hf
  have hpart := List.find?_some hf
  rw [beq_iff_eq] at hpart
  refine ⟨f, hf, hgeometry.trans ?_⟩
  rw [partGeometry_fst, (references_of_mem_objects ho).1, hpart]
  rfl

variable (hgenerates : c.Generates mode instances constraints)

include hgenerates

/-- Of the instances with a part id one that a run begins with comes before those it adds, and has
the same shape as all the others that it begins with. -/
theorem shape_eq_of_find?_finished (hids : (idsOf instances).Nodup) {i f : Instance}
    (hi : i ∈ (c.finished name mode instances constraints warnings).instances)
    (hown : i.isSynthesized = false)
    (hf : (c.finished name mode instances constraints warnings).instances.find?
      (·.partId == i.partId) = some f) : f.family = i.family ∧ f.dn = i.dn := by
  have hbegin : i ∈ instances := by
    obtain hbegin | hadded := List.mem_append.mp hi
    · exact hbegin
    · rw [isSynthesized_of_mem_map_added hadded] at hown
      cases hown
  have hfound : (instances.find? (·.partId == i.partId)).isSome = true :=
    List.find?_isSome.mpr ⟨i, hbegin, beq_self_eq_true _⟩
  obtain ⟨g, hg⟩ := Option.isSome_iff_exists.mp hfound
  rw [finished, List.find?_append, hg, Option.some_or, Option.some.injEq] at hf
  have hpart := List.find?_some hg
  rw [beq_iff_eq] at hpart
  exact hf ▸ hgenerates.shape_eq hids (List.mem_of_find?_eq_some hg) hbegin hpart

/-- What is added is a bolt or a gasket. -/
theorem family_of_isSynthesized {i : Instance}
    (hi : i ∈ (c.finished name mode instances constraints warnings).instances)
    (hadded : i.isSynthesized = true) : i.family = .bolt ∨ i.family = .gasket := by
  obtain hbegin | hmore := List.mem_append.mp hi
  · rw [hgenerates.isSynthesized_eq_false hbegin] at hadded
    cases hadded
  · obtain ⟨x, hx, rfl⟩ := List.mem_map.mp hmore
    obtain ⟨j, -, hj⟩ := List.mem_flatMap.mp hx
    rw [Joint.fasteners, List.mem_append] at hj
    obtain hbolt | hgasket := hj
    · obtain ⟨n, hn, rfl⟩ := List.mem_mapIdx.mp hbolt
      exact Or.inl rfl
    · rw [Joint.gasket] at hgasket
      split at hgasket
      · rw [List.mem_singleton.mp hgasket]
        exact Or.inr rfl
      · cases hgasket

/-- The object of an instance refers to the primitive of the first instance with its part id, which
is its own unless it was added under a part id that already stands for something else. -/
theorem draws_finished (hids : (idsOf instances).Nodup) :
    List.Forall₂ (c.finished name mode instances constraints warnings).Draws
      (c.finished name mode instances constraints warnings).instances
      ((c.finished name mode instances constraints warnings).exportScene none).1.objects := by
  have hobjects := forall₂_objects name
    (c.finished name mode instances constraints warnings).instances
    (c.finished name mode instances constraints warnings).placements none
  rw [placedInstances_finished] at hobjects
  rw [List.forall₂_iff_zip] at hobjects ⊢
  refine ⟨hobjects.1, fun {i o} hzip ↦ ?_⟩
  obtain ⟨hi, ho⟩ := List.of_mem_zip hzip
  obtain ⟨p, -, hobject⟩ := hobjects.2 hzip
  have hpart : o.partId = i.partId := congrArg SceneObject.partId hobject
  obtain ⟨f, hf, hshows⟩ := exists_shows_first ho
  rw [hpart] at hf
  have hfirst := List.find?_some hf
  rw [beq_iff_eq] at hfirst
  -- the first instance has the part id of this one, so only family and diameter are left
  have hsame (hfamily : f.family = i.family)
      (hdn : i.family = .flange ∨ i.family = .gasket → f.dn.getD 50 = i.dn.getD 50) :
      (c.finished name mode instances constraints warnings).Shows o i :=
    hshows.trans (congrArg some (primitiveGeometry_congr _ hfirst hfamily hdn))
  refine
    { name := congrArg SceneObject.name hobject
      partId := hpart
      first := ⟨f, hf, hshows⟩
      own := fun hown ↦ ?_
      added := fun g hg hadded hfamily hdn ↦ ?_ }
  · obtain ⟨hfamily, hdn⟩ := shape_eq_of_find?_finished hgenerates hids hi hown hf
    exact hsame hfamily fun _ ↦ by rw [hdn]
  · obtain rfl : f = g := Option.some.inj (hf.symm.trans hg)
    refine hsame hfamily fun hkind ↦ hdn ?_
    obtain hbolt | hgasket := family_of_isSynthesized hgenerates hi hadded
    · rw [hbolt] at hkind
      exact absurd hkind (by decide)
    · exact hgasket

end Finished

/-- Every instance that a run begins with is drawn as what it is, and so is every fastener under
whose part id nothing else comes first. -/
theorem Yields.draws {r : Run} (h : c.Yields r) :
    List.Forall₂ r.Draws r.instances (r.exportScene none).1.objects := by
  obtain ⟨name, mode, instances, constraints, warnings, hgenerates, hids, rfl, -⟩ :=
    h.exists_generates
  exact draws_finished hgenerates hids

/-- Two flanges get four bolts and a gasket: five parts are drawn for eight objects. -/
theorem draws_flanges :
    let rule : Rule :=
      { id := "R-FLANGES", name := "Flanges"
        condition := .both { field := "family", value := some "flange" }
        action := { type := .coincident } }
    let c : RunContext :=
      { parts := [{ id := "V-50", family := .valve }, { id := "F-50", family := .flange },
          { id := "F-80", family := .flange }]
        rules := [rule] }
    ∃ r, c.Yields r ∧ List.Forall₂ r.Draws r.instances (r.exportScene none).1.objects ∧
      (r.exportScene none).1.objects.map (·.geometry) =
        ["geo-V-50", "geo-F-50", "geo-F-80", "geo-M16", "geo-M16", "geo-M16", "geo-M16",
          "geo-DN50-RF"] := by
  intro rule c
  let r := c.finished "catalog" .catalog (c.parts.map .ofPart)
    (generateCatalog c.parts c.rules c.policy.matching) []
  have hrun : c.runCatalog = .ok r :=
    runCatalog_eq_ok (fun _ ↦ rfl) (List.cons_ne_nil _ _) (by decide)
  have hyields : c.Yields r := .catalog hrun
  exact ⟨r, hyields, hyields.draws, by decide⟩

/-- A nut that has the part id of the bolts comes first: the bolts of the flanges are drawn as the
box that stands for the nut. -/
theorem not_shows_bolt :
    let rule : Rule :=
      { id := "R-FLANGES", name := "Flanges"
        condition := .both { field := "family", value := some "flange" }
        action := { type := .coincident } }
    let c : RunContext :=
      { parts := [{ id := "M16", family := .nut }, { id := "F-50", family := .flange },
          { id := "F-80", family := .flange }]
        rules := [rule] }
    ∃ r, c.Yields r ∧ (idsOf r.instances).Nodup ∧
      ∃ x ∈ r.instances.zip (r.exportScene none).1.objects,
        x.1.family = .bolt ∧ ¬ r.Shows x.2 x.1 := by
  intro rule c
  let r := c.finished "catalog" .catalog (c.parts.map .ofPart)
    (generateCatalog c.parts c.rules c.policy.matching) []
  have hids : (idsOf (c.parts.map .ofPart)).Nodup := by decide
  have hrun : c.runCatalog = .ok r :=
    runCatalog_eq_ok (fun _ ↦ rfl) (List.cons_ne_nil _ _) hids
  have hdraws : List.Forall₂ r.Draws r.instances (r.exportScene none).1.objects :=
    draws_finished (.catalog (List.cons_ne_nil _ _)) hids
  obtain ⟨x, hx, hbolt, hpart⟩ : ∃ x ∈ r.instances.zip (r.exportScene none).1.objects,
      x.1.family = .bolt ∧ x.1.partId = "M16" :=
    ⟨(r.instances.zip (r.exportScene none).1.objects).get ⟨3, by decide⟩, List.get_mem _ _,
      by decide, by decide⟩
  have hnut : (r.instances.find? (·.partId == "M16")).map (·.family) = some .nut := by decide
  have hdistinct : (idsOf r.instances).Nodup := by decide
  refine ⟨r, .catalog hrun, hdistinct, x, hx, hbolt, fun hown ↦ ?_⟩
  clear_value r
  have hdrawn : r.Draws x.1 x.2 := (List.forall₂_iff_zip.mp hdraws).2 hx
  obtain ⟨f, hf, hshows⟩ := hdrawn.first
  rw [hpart] at hf
  rw [hf, Option.map_some, Option.some.injEq] at hnut
  have hid := List.find?_some hf
  rw [beq_iff_eq] at hid
  have hbox : primitiveGeometry x.2.geometry f = .box x.2.geometry 50 50 50 := by
    have hvalve : Text.contains (Text.upper "M16") "VALVE" = false := by decide
    have hflange : Text.contains (Text.upper "M16") "FLANGE" = false := by decide
    have hpipe : Text.contains (Text.upper "M16") "PIPE" = false := by decide
    simp only [primitiveGeometry, hnut, hid, hvalve, hflange, hpipe, Bool.false_eq_true, ite_false]
  have hcylinder : primitiveGeometry x.2.geometry x.1 = .cylinder x.2.geometry 8 60 := by
    rw [primitiveGeometry, hbolt]
  have hsame := hshows.symm.trans hown
  rw [hbox, hcylinder] at hsame
  cases hsame

end RunContext

end PipingAssembly
