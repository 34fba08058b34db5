import PipingAssembly.Proofs.Exchange.Occurrences
import PipingAssembly.Proofs.Fasteners.Connections
import PipingAssembly.Proofs.Matching.Numbering
import PipingAssembly.Proofs.Run.Outcome

/-!
# Ids in a run

Each stage of a run has its own scheme of ids. An instance of an exchange file has its name, a
number sign and a number, whatever signs the name itself holds. A constraint has a letter and
digits. A fastener has the id of its constraint, a hyphen, and what tells it from the other
fasteners of that constraint. So no two ids of a run with an exchange file are the same, and such a
run cannot fail.
-/

namespace PipingAssembly

/-! ### Fasteners -/

namespace Joint

variable (j : Joint) (policy : FastenerPolicy Float)

/-- The ids of the fasteners of a joint. -/
abbrev fastenerIds : List String := (j.fasteners policy).map fun x ↦ x.1.id

theorem fastenerIds_eq :
    j.fastenerIds policy =
      (List.range (j.constraint.boltCount policy)).map j.boltId ++
        if j.Seals then [j.gasketId] else [] := by
  have hparts := congrArg (List.map Prod.fst) (adds_fasteners j policy).parts
  rw [List.map_map, Joint.parts, List.map_append, List.map_map] at hparts
  refine hparts.trans (congrArg₂ _ rfl ?_)
  split <;> rfl

theorem toList_boltId (i : Nat) :
    (j.boltId i).toList =
      j.constraint.id.toList ++
        '-' :: ("BOLT-".toList ++ (Decimal.natText (i + 1)).toList) := by
  rw [boltId, String.toList_append, String.toList_append, List.append_assoc]
  rfl

theorem toList_gasketId :
    j.gasketId.toList = j.constraint.id.toList ++ '-' :: "GASKET".toList := by
  rw [gasketId, String.toList_append]
  rfl

/-- An id of a fastener is that of its constraint, a hyphen and a rest of capitals, digits and
hyphens. -/
theorem exists_of_mem_fastenerIds {id : String} (h : id ∈ j.fastenerIds policy) :
    ∃ rest, id.toList = j.constraint.id.toList ++ '-' :: rest ∧ '#' ∉ rest := by
  rw [fastenerIds_eq] at h
  cases List.mem_append.mp h with
  | inl h =>
    obtain ⟨i, -, rfl⟩ := List.mem_map.mp h
    refine ⟨_, j.toList_boltId i, fun hmem ↦ ?_⟩
    cases List.mem_append.mp hmem with
    | inl hmem => exact absurd hmem (by decide)
    | inr hmem => exact absurd (Decimal.isDigit_of_mem_natText hmem) (by decide)
  | inr h =>
    split at h
    · rw [List.mem_singleton.mp h]
      exact ⟨_, j.toList_gasketId, by decide⟩
    · cases h

/-- Bolts are told apart by their numbers, and the gasket is none of them. -/
theorem nodup_fastenerIds : (j.fastenerIds policy).Nodup := by
  rw [fastenerIds_eq, List.nodup_append]
  refine ⟨List.nodup_range.map fun i i' h ↦ ?_, ?_, ?_⟩
  · have hnumber := (String.append_right_inj _).mp h
    exact Nat.succ.inj (Decimal.natText_inj.mp hnumber)
  · split
    · exact List.nodup_singleton _
    · exact List.nodup_nil
  · intro bolt hbolt gasket hgasket heq
    obtain ⟨i, -, rfl⟩ := List.mem_map.mp hbolt
    split at hgasket
    · rw [List.mem_singleton.mp hgasket] at heq
      have hlist := congrArg String.toList heq
      rw [toList_boltId, toList_gasketId] at hlist
      have hrest := (List.cons.inj (List.append_cancel_left hlist)).2
      exact absurd (List.cons.inj hrest).1 (by decide)
    · cases hgasket

end Joint

section Synthesized

variable {constraints : List Constraint} (policy : FastenerPolicy Float)

private theorem hyphen_notMem_id (h : Numbered constraints) {c : Constraint}
    (hc : c ∈ constraints) : '-' ∉ c.id.toList := by
  obtain ⟨index, hindex⟩ := h.exists_idFor hc
  rw [hindex]
  exact Constraint.notMem_idFor (by decide) (by decide) index

/-- Fasteners of different joints have different ids: what stands before the first hyphen is the id
of the constraint. -/
theorem nodup_flatMap_fastenerIds (h : Numbered constraints) {joints : List Joint}
    (hjoints : (joints.map (·.constraint)).Sublist constraints) :
    (joints.flatMap (·.fastenerIds policy)).Nodup := by
  have hids : (joints.map (·.constraint.id)).Nodup := by
    have hsub := hjoints.map (·.id)
    rw [List.map_map] at hsub
    exact h.nodup.sublist hsub
  refine List.nodup_flatMap.mpr ⟨fun j _ ↦ j.nodup_fastenerIds policy, ?_⟩
  have hmem : ∀ j ∈ joints, '-' ∉ j.constraint.id.toList := fun j hj ↦
    hyphen_notMem_id h (hjoints.subset (List.mem_map_of_mem hj))
  refine (List.pairwise_map.mp hids).imp_of_mem fun {j j'} hj hj' hne id hid hid' ↦ ?_
  obtain ⟨rest, hrest, -⟩ := j.exists_of_mem_fastenerIds policy hid
  obtain ⟨rest', hrest', -⟩ := j'.exists_of_mem_fastenerIds policy hid'
  have hsame := (eq_of_append_mark (hmem j hj) (hmem j' hj') (hrest.symm.trans hrest')).1
  exact hne (String.toList_inj.mp hsame)

/-- No id of a fastener holds a number sign. -/
theorem sign_notMem_fastenerIds (h : Numbered constraints) {joints : List Joint}
    (hjoints : (joints.map (·.constraint)).Sublist constraints) {id : String}
    (hid : id ∈ joints.flatMap (·.fastenerIds policy)) : '#' ∉ id.toList := by
  obtain ⟨j, hj, hid⟩ := List.mem_flatMap.mp hid
  obtain ⟨rest, hrest, hsign⟩ := j.exists_of_mem_fastenerIds policy hid
  obtain ⟨index, hindex⟩ := h.exists_idFor (hjoints.subset (List.mem_map_of_mem hj))
  rw [hrest, hindex]
  intro hmem
  cases List.mem_append.mp hmem with
  | inl hmem => exact Constraint.notMem_idFor (by decide) (by decide) index hmem
  | inr hmem =>
    cases List.mem_cons.mp hmem with
    | inl hmem => exact absurd hmem (by decide)
    | inr hmem => exact hsign hmem

end Synthesized

/-! ### Runs -/

/-- The ids of a run tell its instances apart, and its constraints, and there is one placement for
each instance, in the same order. -/
structure Run.Identified (r : Run) : Prop where
  instances : (idsOf r.instances).Nodup
  constraints : (r.constraints.map (·.id)).Nodup
  placements : r.placements.map (·.instanceId) = idsOf r.instances

namespace RunContext

section Finish

variable {c : RunContext} {instances : List Instance} {constraints : List Constraint}

private theorem checkpoint_eq_ok (hdeadline : ∀ stage, c.isPast stage = false) (stage : Stage) :
    c.checkpoint stage = .ok () := by
  rw [checkpoint, hdeadline stage]
  rfl

/-- What is added are the fasteners of connections, in the order of the constraints. -/
theorem exists_connected (c : RunContext) (instances : List Instance)
    (constraints : List Constraint) :
    ∃ joints : List Joint, c.added instances constraints =
        joints.flatMap (·.fasteners c.policy.fasteners) ∧
      (joints.map (·.constraint)).Sublist constraints :=
  ⟨_, rfl, map_constraint_connections_sublist _ _⟩

/-- Fasteners have placements under their own ids. -/
theorem map_instanceId_added (c : RunContext) (instances : List Instance)
    (constraints : List Constraint) :
    ((c.added instances constraints).map (·.2)).map (·.instanceId) =
      idsOf ((c.added instances constraints).map (·.1)) := by
  obtain ⟨joints, hadded, -⟩ := c.exists_connected instances constraints
  rw [hadded, idsOf, List.map_map, List.map_map]
  apply List.map_congr_left
  intro x hx
  obtain ⟨j, -, hj⟩ := List.mem_flatMap.mp hx
  exact ((adds_fasteners j _).id_eq x hj).symm

/-- What is added tells what it is for. -/
theorem isSynthesized_of_mem_added (c : RunContext) (instances : List Instance)
    (constraints : List Constraint) {x : Instance × Placement}
    (hx : x ∈ c.added instances constraints) : x.1.isSynthesized = true := by
  obtain ⟨j, -, hj⟩ := List.mem_flatMap.mp hx
  obtain ⟨_, _, _, _, _, _, rfl⟩ := exists_fastenerAt j _ hj
  rfl

theorem isSynthesized_of_mem_map_added {c : RunContext} {instances : List Instance}
    {constraints : List Constraint} {i : Instance}
    (hi : i ∈ (c.added instances constraints).map (·.1)) : i.isSynthesized = true := by
  obtain ⟨x, hx, rfl⟩ := List.mem_map.mp hi
  exact c.isSynthesized_of_mem_added _ _ hx

/-- The ids of what is added are those of the fasteners. -/
theorem map_id_added (c : RunContext) (instances : List Instance) (constraints : List Constraint) :
    ∃ joints : List Joint, idsOf ((c.added instances constraints).map (·.1)) =
        joints.flatMap (·.fastenerIds c.policy.fasteners) ∧
      (joints.map (·.constraint)).Sublist constraints := by
  obtain ⟨joints, hadded, hjoints⟩ := c.exists_connected instances constraints
  refine ⟨joints, ?_, hjoints⟩
  rw [hadded, idsOf, List.map_map, List.map_flatMap]
  rfl

/-- So none of them occurs twice. -/
theorem nodup_added (c : RunContext) (instances : List Instance)
    (hnumbered : Numbered constraints) :
    (idsOf ((c.added instances constraints).map (·.1))).Nodup := by
  obtain ⟨joints, hids, hjoints⟩ := c.map_id_added instances constraints
  rw [hids]
  exact nodup_flatMap_fastenerIds _ hnumbered hjoints

/-- The instances of a solution and what is added to them have one placement each, in order. -/
theorem map_instanceId_finished (c : RunContext) (instances : List Instance)
    (constraints : List Constraint) :
    ((solution instances constraints c.policy.solver).placements ++
        (c.added instances constraints).map (·.2)).map (·.instanceId) =
      idsOf (instances ++ (c.added instances constraints).map (·.1)) := by
  rw [List.map_append, idsOf_append, map_instanceId_solution, map_instanceId_added]

/-- A run over instances whose ids hold a number sign, with constraints that have the ids of their
places, tells all it holds apart. -/
theorem identified_of_finish (hids : (idsOf instances).Nodup)
    (hsign : ∀ i ∈ instances, '#' ∈ i.id.toList) (hnumbered : Numbered constraints) {r : Run}
    (hinstances : r.instances = instances ++ (c.added instances constraints).map (·.1))
    (hconstraints : r.constraints = constraints)
    (hplacements : r.placements = (solution instances constraints c.policy.solver).placements ++
      (c.added instances constraints).map (·.2)) : r.Identified where
  instances := by
    obtain ⟨joints, hfasteners, hjoints⟩ := c.map_id_added instances constraints
    rw [hinstances, idsOf_append, List.nodup_append]
    refine ⟨hids, c.nodup_added instances hnumbered, ?_⟩
    rw [hfasteners]
    rintro id hid _ hid' rfl
    obtain ⟨i, hi, rfl⟩ := List.mem_map.mp hid
    exact sign_notMem_fastenerIds _ hnumbered hjoints hid' (hsign i hi)
  constraints := by
    rw [hconstraints]
    exact hnumbered.nodup
  placements := by
    rw [hplacements, hinstances]
    exact c.map_instanceId_finished instances constraints

/-- Without a deadline a run over an exchange file with instances solves these, with the constraints
between neighbours. -/
theorem runExchange_eq_finish {text : String} (hdeadline : ∀ stage, c.isPast stage = false)
    (hinstances : (Exchange.Assembly.read text).instances ≠ []) (name : String) :
    c.runExchange text name =
      let instances := (Exchange.Assembly.read text).instances.map c.withCatalogEntry
      c.finish name .exchange instances
        (generateSequential instances c.parts c.rules c.policy.matching) [] := by
  have hsome := List.isEmpty_eq_false_iff.mpr hinstances
  rw [runExchange, checkpoint_eq_ok hdeadline, checkpoint_eq_ok hdeadline]
  simp only [bind, Except.bind, hsome, Bool.false_eq_true, if_false]

end Finish

theorem id_withCatalogEntry (c : RunContext) (i : Instance) : (c.withCatalogEntry i).id = i.id := by
  rw [withCatalogEntry]
  split <;> rfl

theorem idsOf_map_withCatalogEntry (c : RunContext) (instances : List Instance) :
    idsOf (instances.map c.withCatalogEntry) = idsOf instances := by
  rw [idsOf, List.map_map]
  exact List.map_congr_left fun i _ ↦ c.id_withCatalogEntry i

theorem isSynthesized_withCatalogEntry (c : RunContext) (i : Instance) :
    (c.withCatalogEntry i).isSynthesized = i.isSynthesized := by
  rw [withCatalogEntry]
  split <;> rfl

/-- The instances that a run over an exchange file solves. -/
abbrev extracted (c : RunContext) (text : String) : List Instance :=
  (Exchange.Assembly.read text).instances.map c.withCatalogEntry

/-- None of their ids occurs twice. -/
theorem nodup_extracted (c : RunContext) (text : String) : (idsOf (c.extracted text)).Nodup := by
  rw [idsOf_map_withCatalogEntry]
  exact Exchange.nodup_numberOccurrences [] _

theorem sign_mem_extracted {c : RunContext} {text : String} {i : Instance}
    (hi : i ∈ c.extracted text) : '#' ∈ i.id.toList := by
  obtain ⟨j, hj, rfl⟩ := List.mem_map.mp hi
  rw [c.id_withCatalogEntry]
  exact Exchange.sign_mem_id hj

theorem isSynthesized_extracted {c : RunContext} {text : String} {i : Instance}
    (hi : i ∈ c.extracted text) : i.isSynthesized = false := by
  obtain ⟨j, hj, rfl⟩ := List.mem_map.mp hi
  rw [c.isSynthesized_withCatalogEntry]
  exact Exchange.isSynthesized_eq_false hj

/-- Without a deadline a run over an exchange file with instances ends and tells all it holds apart,
whatever names the file gives and however often: the instances of the file come first, then those
that were added. -/
theorem exists_runExchange (c : RunContext) (text name : String)
    (hdeadline : ∀ stage, c.isPast stage = false)
    (hinstances : (Exchange.Assembly.read text).instances ≠ []) :
    ∃ r, c.runExchange text name = .ok r ∧ r.mode = .exchange ∧ r.Identified ∧
      ∃ synthesized,
        r.instances =
          (Exchange.Assembly.read text).instances.map c.withCatalogEntry ++ synthesized ∧
        ∀ i ∈ synthesized, i.isSynthesized = true := by
  rw [runExchange_eq_finish hdeadline hinstances]
  obtain ⟨r, hr, hmode, hall, hconstraints, hplacements⟩ :=
    exists_finish hdeadline (c.nodup_extracted text) name .exchange []
  refine ⟨r, hr, hmode, identified_of_finish (c.nodup_extracted text) (fun _ ↦ sign_mem_extracted)
    (numbered_generateSequential _ _ _ _) hall hconstraints hplacements, _, hall, ?_⟩
  intro i hi
  obtain ⟨x, hx, rfl⟩ := List.mem_map.mp hi
  exact c.isSynthesized_of_mem_added _ _ hx

end RunContext

/-- The tokens of a product with nothing but a name. -/
private abbrev productTokens (id : Exchange.EntityId) (name : String) : List Exchange.Token :=
  [.reference id, .equals, .word "PRODUCT", .openParen, .text name, .closeParen, .semicolon]

private theorem spells_product (id : Exchange.EntityId) (name : String) :
    Exchange.Spells (productTokens id name) ⟨id, [("PRODUCT", [.text name])]⟩ :=
  ⟨_, .simple _, List.cons_ne_nil _ _, rfl⟩

private theorem tokens_flanges :
    Exchange.tokens "#1=PRODUCT('Flange#1');#2=PRODUCT('Flange');#3=PRODUCT('Flange');".toList =
      productTokens 1 "Flange#1" ++ productTokens 2 "Flange" ++ productTokens 3 "Flange" := by
  with_unfolding_all rfl

/-- Of three flanges two have the same name, and that of the first one looks like an id. A rule
joins the neighbours, so that bolts and gaskets are added. -/
theorem exists_runExchange_flanges :
    let text := "#1=PRODUCT('Flange#1');#2=PRODUCT('Flange');#3=PRODUCT('Flange');"
    let rule : Rule :=
      { id := "R-MATE", name := "Mate", condition := .mateType "fixed"
        action := { type := .coincident } }
    let c : RunContext := { parts := [], rules := [rule] }
    (∀ stage, c.isPast stage = false) ∧ (Exchange.Assembly.read text).instances ≠ [] ∧
      ∃ r, c.runExchange text "flanges" = .ok r ∧ r.mode = .exchange ∧ r.Identified ∧
        ∃ synthesized,
          r.instances =
            (Exchange.Assembly.read text).instances.map c.withCatalogEntry ++ synthesized ∧
          ∀ i ∈ synthesized, i.isSynthesized = true := by
  intro text rule c
  have hread : Exchange.readEntities text =
      [⟨1, [("PRODUCT", [.text "Flange#1"])]⟩, ⟨2, [("PRODUCT", [.text "Flange"])]⟩,
        ⟨3, [("PRODUCT", [.text "Flange"])]⟩] := by
    have hsegments : Exchange.segments (Exchange.tokens text.toList) =
        [productTokens 1 "Flange#1", productTokens 2 "Flange", productTokens 3 "Flange"] := by
      rw [tokens_flanges]
      rfl
    rw [Exchange.readEntities, Exchange.readStatements_eq_filterMap, hsegments]
    simp only [List.filterMap_cons, List.filterMap_nil,
      Exchange.segmentEntity?_eq_some.mpr (spells_product _ _)]
    rfl
  have hdeadline : ∀ stage, c.isPast stage = false := fun _ ↦ rfl
  have hinstances : (Exchange.Assembly.read text).instances ≠ [] := by
    rw [Exchange.Assembly.read, hread]
    exact List.cons_ne_nil _ _
  exact ⟨hdeadline, hinstances, c.exists_runExchange text "flanges" hdeadline hinstances⟩

end PipingAssembly
