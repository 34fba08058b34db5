import PipingAssembly.Instance.Codec
import PipingAssembly.Proofs.Store.Records
import PipingAssembly.Proofs.Value.JsonForm

/-!
# Records read back from their values

The value of a record is read as the record: what is written under a name is read under that name,
what is left out is read as absent or as its default, and the name of a case leads to the case. The
values go out in their JSON form, in which a number that is not finite is null. So a record whose
numbers are finite comes back from that form, which has no null in it.
-/

namespace PipingAssembly

open Json (filter_optionalField forall_mem_optionalField)
open Value (Fields optionalField asOptional?)

/-! ### Reading one field -/

namespace Value

section Fields

variable {α : Type} {fields : Fields} {key : String} {read : Value → Option α}

/-- A field that is written once is read as its value. -/
theorem Fields.required?_of_filter {v : Value} (h : fields.filter (·.1 == key) = [(key, v)]) :
    fields.required? key read = read v := by
  rw [Fields.required?, Fields.lookup?, h]
  rfl

@[inherit_doc Fields.required?_of_filter]
theorem Fields.withDefault?_of_filter {v : Value} (h : fields.filter (·.1 == key) = [(key, v)])
    (default : α) : fields.withDefault? key default read = read v := by
  rw [Fields.withDefault?, Fields.lookup?, h]

/-- A field that is written only if there is something to write is read as what was there. -/
theorem Fields.optional?_of_filter (write : α → Value) {o : Option α}
    (h : fields.filter (·.1 == key) = optionalField key write o)
    (hread : ∀ a, asOptional? read (write a) = some (some a)) :
    fields.optional? key read = some o := by
  rw [Fields.optional?, Fields.lookup?, h]
  cases o with
  | none => rfl
  | some a => exact hread a

theorem Fields.optional?_text {o : Option String}
    (h : fields.filter (·.1 == key) = optionalField key .text o) :
    fields.optional? key asText? = some o :=
  Fields.optional?_of_filter _ h fun _ ↦ rfl

theorem Fields.optional?_ofUInt32 {o : Option UInt32}
    (h : fields.filter (·.1 == key) = optionalField key .ofUInt32 o) :
    fields.optional? key asUInt32? = some o :=
  Fields.optional?_of_filter _ h fun n ↦ congrArg (Option.map some) (survives_ofUInt32 n)

theorem Fields.optional?_real {o : Option Float}
    (h : fields.filter (·.1 == key) = optionalField key .real o) :
    fields.optional? key asFloat? = some o :=
  Fields.optional?_of_filter _ h fun _ ↦ rfl

end Fields

end Value

/-! ### Constraints -/

theorem FastenerRequest.ofValue?_toValue (r : FastenerRequest) : ofValue? r.toValue = some r := by
  refine (ofValue?_eq_some_iff rfl).mpr ⟨?_, ?_, ?_⟩
  · exact Fields.optional?_ofUInt32 (by simp [toFields, filter_optionalField])
  · exact Fields.optional?_text (by simp [toFields, filter_optionalField])
  · exact Fields.optional?_text (by simp [toFields, filter_optionalField])

theorem Parameters.ofValue?_toValue (p : Parameters Float) : ofValue? p.toValue = some p := by
  refine (ofValue?_eq_some_iff rfl).mpr ⟨?_, ?_, ?_, ?_⟩
  · exact Fields.optional?_real (by simp [toFields, filter_optionalField])
  · exact Fields.optional?_real (by simp [toFields, filter_optionalField])
  · exact Fields.optional?_real (by simp [toFields, filter_optionalField])
  · refine Fields.optional?_of_filter FastenerRequest.toValue
      (by simp [toFields, filter_optionalField]) fun r ↦ ?_
    exact congrArg (Option.map some) r.ofValue?_toValue

theorem ConstraintType.ofValue?_name (t : ConstraintType) : ofValue? (.text t.name) = some t :=
  survives_constraintType t

theorem Constraint.ofValue?_toValue (c : Constraint) : ofValue? c.toValue = some c := by
  rw [ofValue?, toValue, Value.asRecord?_of_untagged rfl]
  simp [Fields.required?, Fields.withDefault?, Fields.lookup?, Value.asText?, Value.asFloat?,
    Value.untagged, c.parameters.ofValue?_toValue, c.type.ofValue?_name]

/-! ### Rules -/

theorem Condition.ofValue?_toValue (c : Condition) : ofValue? c.toValue = some c := by
  cases c with
  | both test =>
    obtain ⟨field, value, contains⟩ := test
    cases value <;> cases contains <;> rfl
  | nameContains value => rfl
  | threadMatch => rfl
  | boltNutPair => rfl
  | distanceRange min max => rfl
  | mateType mate => rfl

theorem Action.ofValue?_toValue (a : Action) : ofValue? a.toValue = some a := by
  refine (ofValue?_eq_some_iff rfl).mpr ⟨?_, ?_⟩
  · rw [Fields.required?_of_filter (v := .text a.type.name) (by simp [toFields])]
    exact a.type.ofValue?_name
  · rw [Fields.withDefault?_of_filter (v := a.parameters.toValue) (by simp [toFields])]
    exact a.parameters.ofValue?_toValue

theorem Rule.ofValue?_toValue (r : Rule) : ofValue? r.toValue = some r := by
  refine (ofValue?_eq_some_iff rfl).mpr ⟨?_, ?_, ?_, ?_, ?_, ?_, ?_, ?_⟩
  · exact Fields.required?_of_filter (v := .text r.id) (by simp [toFields, filter_optionalField])
  · exact Fields.required?_of_filter (v := .text r.name) (by simp [toFields, filter_optionalField])
  · exact Fields.optional?_text (by simp [toFields, filter_optionalField])
  · rw [Fields.withDefault?_of_filter (v := .int r.priority.toInt)
      (by simp [toFields, filter_optionalField])]
    exact survives_int32 r.priority
  · rw [Fields.required?_of_filter (v := r.condition.toValue)
      (by simp [toFields, filter_optionalField])]
    exact r.condition.ofValue?_toValue
  · rw [Fields.required?_of_filter (v := r.action.toValue)
      (by simp [toFields, filter_optionalField])]
    exact r.action.ofValue?_toValue
  · exact Fields.withDefault?_of_filter (v := .real r.confidenceBoost)
      (by simp [toFields, filter_optionalField]) _
  · exact Fields.withDefault?_of_filter (v := .bool r.isActive)
      (by simp [toFields, filter_optionalField]) _

/-! ### Parts -/

theorem Family.ofValue?_name (f : Family) : ofValue? (.text f.name) = some f := survives_family f

theorem Part.ofValue?_toValue {p : Part} (h : KeysRise p.metadata) :
    ofValue? p.toValue = some p := by
  refine (ofValue?_eq_some_iff rfl).mpr ⟨?_, ?_, ?_, ?_, ?_, ?_, ?_, ?_, ?_⟩
  · exact Fields.required?_of_filter (v := .text p.id) (by simp [toFields, filter_optionalField])
  · exact Fields.optional?_text (by simp [toFields, filter_optionalField])
  · rw [Fields.withDefault?_of_filter (v := .text p.family.name)
      (by simp [toFields, filter_optionalField])]
    exact p.family.ofValue?_name
  · exact Fields.optional?_ofUInt32 (by simp [toFields, filter_optionalField])
  · exact Fields.optional?_ofUInt32 (by simp [toFields, filter_optionalField])
  · exact Fields.optional?_text (by simp [toFields, filter_optionalField])
  · exact Fields.optional?_text (by simp [toFields, filter_optionalField])
  · by_cases hnil : p.metadata = []
    · rw [Fields.withDefault?, Fields.lookup?, p.filter_metadata, if_pos hnil, hnil]
    · rw [Fields.withDefault?_of_filter (p.filter_metadata.trans (if_neg hnil))]
      exact metadataOfValue?_text h
  · exact Fields.optional?_text (by simp [toFields, filter_optionalField])

/-! ### Instances and placements -/

theorem Vec3.ofValue?_toValue (v : Vec3 Float) : ofValue? v.toValue = some v := rfl

theorem Role.ofValue?_name (r : Role) : ofValue? (.text r.name) = some r := by
  cases r <;> rfl

theorem Instance.ofValue?_eq_some_iff {v : Value} {fields : Fields}
    (hv : v.untagged = .object fields) {i : Instance} :
    ofValue? v = some i ↔
      fields.required? "instance_id" Value.asText? = some i.id ∧
      fields.required? "part_id" Value.asText? = some i.partId ∧
      fields.required? "name" Value.asText? = some i.name ∧
      fields.withDefault? "family" .other Family.ofValue? = some i.family ∧
      fields.optional? "dn" Value.asUInt32? = some i.dn ∧
      fields.withDefault? "position" .zero Vec3.ofValue? = some i.pose.position ∧
      fields.withDefault? "rotation" .zero Vec3.ofValue? = some i.pose.rotation ∧
      fields.optional? "z_direction" Vec3.ofValue? = some i.zDirection ∧
      fields.optional? "x_direction" Vec3.ofValue? = some i.xDirection ∧
      fields.optional? "role" Role.ofValue? = some i.role ∧
      fields.optional? "connection_id" Value.asText? = some i.connectionId := by
  simp only [ofValue?, Value.asRecord?_of_untagged hv, Option.bind_eq_bind, Option.bind_some,
    Option.bind_eq_some_iff, Option.some.injEq]
  constructor
  · rintro ⟨_, hid, _, hpart, _, hname, _, hfamily, _, hdn, _, hposition, _, hrotation, _, hz, _, hx,
      _, hrole, _, hconnection, rfl⟩
    exact ⟨hid, hpart, hname, hfamily, hdn, hposition, hrotation, hz, hx, hrole, hconnection⟩
  · rintro ⟨hid, hpart, hname, hfamily, hdn, hposition, hrotation, hz, hx, hrole, hconnection⟩
    exact ⟨_, hid, _, hpart, _, hname, _, hfamily, _, hdn, _, hposition, _, hrotation, _, hz, _, hx,
      _, hrole, _, hconnection, rfl⟩

theorem Instance.ofValue?_toValue (i : Instance) : ofValue? i.toValue = some i := by
  refine (ofValue?_eq_some_iff rfl).mpr ⟨?_, ?_, ?_, ?_, ?_, ?_, ?_, ?_, ?_, ?_, ?_⟩
  · exact Fields.required?_of_filter (v := .text i.id) (by simp [filter_optionalField])
  · exact Fields.required?_of_filter (v := .text i.partId) (by simp [filter_optionalField])
  · exact Fields.required?_of_filter (v := .text i.name) (by simp [filter_optionalField])
  · rw [Fields.withDefault?_of_filter (v := .text i.family.name) (by simp [filter_optionalField])]
    exact i.family.ofValue?_name
  · exact Fields.optional?_ofUInt32 (by simp [filter_optionalField])
  · exact Fields.withDefault?_of_filter (v := i.pose.position.toValue)
      (by simp [filter_optionalField]) _
  · exact Fields.withDefault?_of_filter (v := i.pose.rotation.toValue)
      (by simp [filter_optionalField]) _
  · exact Fields.optional?_of_filter Vec3.toValue (by simp [filter_optionalField])
      fun _ ↦ rfl
  · exact Fields.optional?_of_filter Vec3.toValue (by simp [filter_optionalField])
      fun _ ↦ rfl
  · exact Fields.optional?_of_filter (fun r : Role ↦ .text r.name)
      (by simp [filter_optionalField]) fun r ↦ congrArg (Option.map some) r.ofValue?_name
  · exact Fields.optional?_text (by simp [filter_optionalField])

theorem PlacementSource.ofValue?_toValue (s : PlacementSource) : ofValue? s.toValue = some s := by
  cases s with
  | base => rfl
  | constraint constraintId origin => rfl
  | fallback slot =>
    have hslot : Value.asUInt64? (.int slot.toNat) = some slot := by
      have hlt : slot.toNat < pow2 64 := slot.toNat_lt
      simp [Value.asUInt64?, Value.asNat?, Value.untagged, hlt]
    show (Value.asUInt64? (.int slot.toNat)).map fallback = some (fallback slot)
    rw [hslot, Option.map_some]
  | synthesized connectionId => rfl

theorem Placement.ofValue?_toValue (p : Placement) : ofValue? p.toValue = some p := by
  rw [ofValue?, toValue, Value.asRecord?_of_untagged rfl]
  simp [Fields.required?, Fields.lookup?, Value.asText?, Value.untagged,
    p.pose.position.ofValue?_toValue, p.pose.rotation.ofValue?_toValue,
    p.source.ofValue?_toValue]

/-! ### Records whose JSON form has no null -/

/-- Whether every number of a list is finite. -/
def AllFinite (floats : List Float) : Prop := ∀ x ∈ floats, Decimal.isFinite x = true

theorem allFinite_append {xs ys : List Float} :
    AllFinite (xs ++ ys) ↔ AllFinite xs ∧ AllFinite ys := List.forall_mem_append

theorem allFinite_flatMap_toList {o : Option (Vec3 Float)} :
    AllFinite (o.toList.flatMap Vec3.toList) ↔ ∀ v ∈ o, AllFinite v.toList := by
  cases o <;> simp [AllFinite]

/-- The floating-point numbers of a constraint. -/
def Constraint.floats (c : Constraint) : List Float := c.parameters.floats ++ [c.confidence]

/-- The floating-point numbers of a pose. -/
def Pose.floats (p : Pose Float) : List Float := p.position.toList ++ p.rotation.toList

/-- The floating-point numbers of an instance. -/
def Instance.floats (i : Instance) : List Float :=
  i.pose.floats ++ (i.zDirection.toList ++ i.xDirection.toList).flatMap Vec3.toList

/-- The floating-point numbers of a placement. -/
def Placement.floats (p : Placement) : List Float := p.pose.floats

open Value (NullFree nullFree_list nullFree_object)

@[simp]
theorem FastenerRequest.nullFree (r : FastenerRequest) : NullFree r.toValue := by
  rw [toValue, nullFree_object, toFields]
  simp only [List.forall_mem_append, forall_mem_optionalField]
  simp

theorem Parameters.nullFree_iff (p : Parameters Float) :
    NullFree p.toValue ↔ AllFinite p.floats := by
  rw [toValue, nullFree_object, toFields]
  simp only [List.forall_mem_append, forall_mem_optionalField, Value.nullFree_real,
    FastenerRequest.nullFree, implies_true, and_true, AllFinite, floats, Option.mem_toList,
    Option.mem_def]

theorem Constraint.nullFree_iff (c : Constraint) : NullFree c.toValue ↔ AllFinite c.floats := by
  rw [toValue, nullFree_object]
  simp [Parameters.nullFree_iff, AllFinite, floats, or_imp, forall_and]

theorem Condition.nullFree_iff (c : Condition) : NullFree c.toValue ↔ AllFinite c.floats := by
  rw [toValue, nullFree_object, List.forall_mem_cons]
  cases c with
  | both test =>
    simp only [dataFields, AttributeTest.toFields, List.forall_mem_append, List.forall_mem_singleton,
      forall_mem_optionalField]
    simp [AllFinite, floats]
  | nameContains value | threadMatch | boltNutPair | distanceRange min max | mateType mate =>
    simp [dataFields, AllFinite, floats]

theorem Action.nullFree_iff (a : Action) :
    NullFree a.toValue ↔ AllFinite a.parameters.floats := by
  rw [toValue, nullFree_object]
  simp [toFields, Parameters.nullFree_iff]

theorem Rule.nullFree_iff (r : Rule) : NullFree r.toValue ↔ AllFinite r.floats := by
  rw [toValue, nullFree_object, toFields]
  simp only [List.forall_mem_append, List.forall_mem_cons, forall_mem_optionalField]
  simp [Condition.nullFree_iff, Action.nullFree_iff, AllFinite, floats, or_imp, forall_and]

theorem Part.nullFree (p : Part) : NullFree p.toValue := by
  rw [toValue, nullFree_object, toFields]
  simp only [List.forall_mem_append, List.forall_mem_singleton, forall_mem_optionalField,
    forall_mem_ite_nil, nullFree_object, List.forall_mem_map]
  simp

theorem Vec3.nullFree_iff (v : Vec3 Float) : NullFree v.toValue ↔ AllFinite v.toList := by
  rw [toValue, nullFree_list]
  simp [AllFinite, toList]

theorem Instance.nullFree_iff (i : Instance) : NullFree i.toValue ↔ AllFinite i.floats := by
  rw [toValue, nullFree_object]
  simp only [List.forall_mem_append, List.forall_mem_cons, forall_mem_optionalField]
  simp only [Value.nullFree_text, Value.nullFree_ofUInt32, Vec3.nullFree_iff, floats, Pose.floats,
    List.flatMap_append, allFinite_append, allFinite_flatMap_toList, implies_true, true_and,
    and_true]
  simp [and_assoc]

theorem PlacementSource.nullFree (s : PlacementSource) : NullFree s.toValue := by
  cases s <;> simp [toValue, nullFree_object]

theorem Placement.nullFree_iff (p : Placement) : NullFree p.toValue ↔ AllFinite p.floats := by
  rw [toValue, nullFree_object]
  simp [Vec3.nullFree_iff, PlacementSource.nullFree, AllFinite, floats, Pose.floats, or_imp,
    forall_and]

/-! ### Records in their JSON form -/

/-- Where every element is found by its own name, what stands for all other names is found by those
that are no name of another element. -/
private theorem getD_find?_eq_iff {α : Type} {name : α → String} {all : List α} {other : α}
    (hname : ∀ a, (all.find? (name · == name a)).getD other = a) (s : String) :
    (all.find? (name · == s)).getD other = other ↔ ∀ a, a ≠ other → s ≠ name a := by
  constructor
  · rintro h a ha rfl
    exact ha ((hname a).symm.trans h)
  · intro h
    cases hfind : all.find? (name · == s) with
    | none => rfl
    | some a =>
      have hs : name a = s := by simpa using List.find?_some hfind
      exact Classical.byContradiction fun hne ↦ h a hne hs.symm

/-- A name stands for any other family exactly if it is the name of none. -/
theorem Family.ofValue?_eq_other_iff (s : String) :
    ofValue? (.text s) = some other ↔ ∀ f : Family, f ≠ other → s ≠ f.name := by
  change some ((all.find? (·.name == s)).getD other) = some other ↔ _
  rw [Option.some.injEq]
  exact getD_find?_eq_iff (fun f ↦ Option.some.inj f.ofValue?_name) s

/-- A name stands for any other kind of constraint exactly if it is the name of none. -/
theorem ConstraintType.ofValue?_eq_other_iff (s : String) :
    ofValue? (.text s) = some other ↔ ∀ t : ConstraintType, t ≠ other → s ≠ t.name := by
  change some ((all.find? (·.name == s)).getD other) = some other ↔ _
  rw [Option.some.injEq]
  exact getD_find?_eq_iff (fun t ↦ Option.some.inj t.ofValue?_name) s

/-- Metadata are left out of the value of a part exactly if there are none. -/
theorem Part.get?_metadata_eq_none_iff (p : Part) :
    p.toValue.get? "metadata" = none ↔ p.metadata = [] := by
  rw [toValue, Value.get?, Value.find?, Option.map_eq_none_iff, ← List.head?_filter,
    filter_metadata, List.head?_eq_none_iff]
  simp

/-- Whether the JSON form of a value is read as a record, with what is absent from the record left
out rather than null. -/
structure Value.Carries {α : Type} (v : Value) (read : Value → Option α) (a : α) : Prop where
  decoded : read v.json = some a
  nullFree : v.NullFree

theorem Value.carries_iff {α : Type} {v : Value} {read : Value → Option α} {a : α}
    (h : read v = some a) : v.Carries read a ↔ v.NullFree :=
  ⟨Carries.nullFree, fun hnull ↦ ⟨(json_eq_self hnull).symm ▸ h, hnull⟩⟩

/-- A part comes back from the JSON form of its value if its metadata are in key order, and any other
record exactly if its numbers are finite. -/
theorem carries_records :
    (∀ p : Part, p.toValue.Carries Part.ofValue? p ↔ KeysRise p.metadata) ∧
      (∀ r : Rule, r.toValue.Carries Rule.ofValue? r ↔ AllFinite r.floats) ∧
      (∀ c : Constraint, c.toValue.Carries Constraint.ofValue? c ↔ AllFinite c.floats) ∧
      (∀ i : Instance, i.toValue.Carries Instance.ofValue? i ↔ AllFinite i.floats) ∧
      (∀ p : Placement, p.toValue.Carries Placement.ofValue? p ↔ AllFinite p.floats) ∧
      (∀ p : Part, p.toValue.get? "metadata" = none ↔ p.metadata = []) ∧
      (∀ s, Family.ofValue? (.text s) = some .other ↔ ∀ f : Family, f ≠ .other → s ≠ f.name) ∧
      ∀ s, ConstraintType.ofValue? (.text s) = some .other ↔
        ∀ t : ConstraintType, t ≠ .other → s ≠ t.name := by
  refine ⟨fun p ↦ ?_, fun r ↦ ?_, fun c ↦ ?_, fun i ↦ ?_, fun p ↦ ?_,
    Part.get?_metadata_eq_none_iff, Family.ofValue?_eq_other_iff,
    ConstraintType.ofValue?_eq_other_iff⟩
  · exact ⟨fun h ↦ Part.keysRise_of_ofValue? h.decoded,
      fun h ↦ (Value.carries_iff (Part.ofValue?_toValue h)).mpr p.nullFree⟩
  · exact (Value.carries_iff r.ofValue?_toValue).trans r.nullFree_iff
  · exact (Value.carries_iff c.ofValue?_toValue).trans c.nullFree_iff
  · exact (Value.carries_iff i.ofValue?_toValue).trans i.nullFree_iff
  · exact (Value.carries_iff p.ofValue?_toValue).trans p.nullFree_iff

/-- A record of each kind with all that it may have, on the way to its value and back. -/
theorem carries_records_full :
    let part : Part :=
      { id := "FL-DN50-PN16", name := some "Flange \"A\"", family := .flange, dn := some 50,
        pn := some 16, endType := some "RF", faceType := some "raised_face",
        metadata := [("standard", ""), ("thread", "M16")], modelPath := some "models/fl.step" }
    let action : Action :=
      { type := .concentric
        parameters := ⟨some 12.5, some 0, some (-90), some ⟨some 4, some "M16", some "DN50-RF"⟩⟩ }
    let rule : Rule :=
      { id := "R-NEAR", name := "Near", description := some "", priority := -3
        condition := .distanceRange 0 250.75, action, confidenceBoost := 0.1, isActive := false }
    let constraint : Constraint :=
      { id := "C001", entityA := "A#1", entityB := "B#1", type := .other
        parameters := action.parameters, ruleId := "R-NEAR", ruleName := "Near", confidence := 1 }
    let placed : Instance :=
      { id := "C001-BOLT-1", partId := "M16", name := "M16", family := .bolt, dn := some 16
        pose := ⟨⟨1, 2.5, -3⟩, ⟨0, 0, 90⟩⟩, zDirection := some .unitZ, xDirection := some .unitX
        role := some .fastener, connectionId := some "C001" }
    let placement : Placement := ⟨"B#1", placed.pose, .constraint "C001" "A#1"⟩
    (KeysRise part.metadata ∧ part.toValue.Carries Part.ofValue? part) ∧
      (AllFinite rule.floats ∧ rule.toValue.Carries Rule.ofValue? rule) ∧
      (AllFinite constraint.floats ∧ constraint.toValue.Carries Constraint.ofValue? constraint) ∧
      (AllFinite placed.floats ∧ placed.toValue.Carries Instance.ofValue? placed) ∧
      (AllFinite placement.floats ∧ placement.toValue.Carries Placement.ofValue? placement) ∧
      Family.ofValue? (.text "bracket") = some .other := by
  intro part action rule constraint placed placement
  have hfinite : ∀ {floats : List Float}, floats.all Decimal.isFinite = true → AllFinite floats :=
    fun h ↦ List.all_eq_true.mp h
  have hpart : KeysRise part.metadata := List.pairwise_pair.mpr (by decide)
  have hrule : AllFinite rule.floats := hfinite (by decide +kernel)
  have hconstraint : AllFinite constraint.floats := hfinite (by decide +kernel)
  have hplaced : AllFinite placed.floats := hfinite (by decide +kernel)
  have hplacement : AllFinite placement.floats := hfinite (by decide +kernel)
  obtain ⟨hparts, hrules, hconstraints, hinstances, hplacements, -, hfamilies, -⟩ := carries_records
  exact ⟨⟨hpart, (hparts part).mpr hpart⟩, ⟨hrule, (hrules rule).mpr hrule⟩,
    ⟨hconstraint, (hconstraints constraint).mpr hconstraint⟩,
    ⟨hplaced, (hinstances placed).mpr hplaced⟩,
    ⟨hplacement, (hplacements placement).mpr hplacement⟩,
    (hfamilies "bracket").mpr (by intro f hf; cases f <;> decide)⟩

end PipingAssembly
