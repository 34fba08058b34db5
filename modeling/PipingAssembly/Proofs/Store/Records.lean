import PipingAssembly.Proofs.Json.Fields
import PipingAssembly.Proofs.Part.Entries
import PipingAssembly.Store.Database

/-!
# Records in the texts of a database

A part whose metadata are in order survives the text of its row. A rule survives its row exactly if
each of its floating-point numbers does: a number that is not finite never does, as its text is that
of nothing.
-/

namespace PipingAssembly

open Json (Survives Typed readBack? fieldsReadBack? survives_object isSome_fieldsReadBack?
  required?_eq_some_iff withDefault?_eq_some_iff optional?_eq_some_iff lookup?_of_filter_nil
  filter_optionalField forall_mem_optionalField fieldsReadable_iff)
open Value (Fields optionalField asOptional?)

/-! ### Scalars -/

theorem survives_text (s : String) : Survives Value.asText? (.text s) s := rfl

theorem survives_bool (b : Bool) : Survives Value.asBool? (.bool b) b := rfl

theorem survives_ofUInt32 (n : UInt32) : Survives Value.asUInt32? (Value.ofUInt32 n) n := by
  have hn : n.toNat < pow2 32 := n.toNat_lt
  change Value.asUInt32? (.int n.toNat) = some n
  simp [Value.asUInt32?, Value.asNat?, Value.untagged, hn]

theorem survives_int32 (n : Int32) : Survives Value.asInt32? (.int n.toInt) n := by
  have hfits : -(pow2 31 : Int) ≤ n.toInt ∧ n.toInt < pow2 31 := ⟨n.le_toInt, n.toInt_lt⟩
  change (if -(pow2 31 : Int) ≤ n.toInt ∧ n.toInt < pow2 31 then some (Int32.ofInt n.toInt)
    else none) = some n
  rw [if_pos hfits, Int32.ofInt_toInt]

theorem survives_family (f : Family) : Survives Family.ofValue? (.text f.name) f := by
  cases f <;> rfl

theorem survives_constraintType (t : ConstraintType) :
    Survives ConstraintType.ofValue? (.text t.name) t := by
  cases t <;> rfl

/-- Whether a floating-point number survives a text. -/
def ReadsBack (x : Float) : Prop := (Json.read? (Json.realText x)).bind Value.asFloat? = some x

theorem survives_real {x : Float} : Survives Value.asFloat? (.real x) x ↔ ReadsBack x := Iff.rfl

section Fields

variable {fields back : Fields} (h : fieldsReadBack? fields = some back) {key : String}
include h

private theorem required?_text {s : String} (hkey : fields.filter (·.1 == key) = [(key, .text s)]) :
    back.required? key Value.asText? = some s :=
  (required?_eq_some_iff h hkey).mpr (survives_text s)

private theorem optional?_text {o : Option String}
    (hkey : fields.filter (·.1 == key) = optionalField key .text o) :
    back.optional? key Value.asText? = some o :=
  (optional?_eq_some_iff h hkey rfl fun _ ↦ trivial).mpr fun s _ ↦ survives_text s

private theorem optional?_ofUInt32 {o : Option UInt32}
    (hkey : fields.filter (·.1 == key) = optionalField key .ofUInt32 o) :
    back.optional? key Value.asUInt32? = some o :=
  (optional?_eq_some_iff h hkey rfl fun _ ↦ trivial).mpr fun n _ ↦ survives_ofUInt32 n

private theorem optional?_real {o : Option Float}
    (hkey : fields.filter (·.1 == key) = optionalField key .real o) :
    back.optional? key Value.asFloat? = some o ↔ ∀ x ∈ o, ReadsBack x :=
  optional?_eq_some_iff h hkey rfl fun _ ↦ trivial

end Fields

/-! ### Requests for fasteners and numbers of constraints -/

theorem Value.asRecord?_of_untagged {v : Value} {fields : Fields} (h : v.untagged = .object fields)
    (names : List String) : v.asRecord? names = some fields := by
  rw [Value.asRecord?, h]
  rfl

theorem FastenerRequest.ofValue?_eq_some_iff {v : Value} {fields : Fields}
    (hv : v.untagged = .object fields) {r : FastenerRequest} :
    FastenerRequest.ofValue? v = some r ↔
      fields.optional? "bolt_count" Value.asUInt32? = some r.boltCount ∧
      fields.optional? "bolt_spec" Value.asText? = some r.boltSpec ∧
      fields.optional? "gasket" Value.asText? = some r.gasket := by
  simp only [FastenerRequest.ofValue?, Value.asRecord?_of_untagged hv, Option.bind_eq_bind,
    Option.bind_some, Option.bind_eq_some_iff, Option.some.injEq]
  constructor
  · rintro ⟨_, hcount, _, hspec, _, hgasket, rfl⟩
    exact ⟨hcount, hspec, hgasket⟩
  · rintro ⟨hcount, hspec, hgasket⟩
    exact ⟨_, hcount, _, hspec, _, hgasket, rfl⟩

/-- A request for fasteners survives. -/
theorem FastenerRequest.survives (r : FastenerRequest) :
    Survives FastenerRequest.ofValue? r.toValue r := by
  rw [FastenerRequest.toValue, survives_object]
  have hsome : (fieldsReadBack? r.toFields).isSome = true := by
    simp only [FastenerRequest.toFields, isSome_fieldsReadBack?, List.forall_mem_append,
      forall_mem_optionalField]
    exact ⟨⟨fun n _ ↦ (survives_ofUInt32 n).isSome, fun s _ ↦ (survives_text s).isSome⟩,
      fun s _ ↦ (survives_text s).isSome⟩
  obtain ⟨back, hback⟩ := Option.isSome_iff_exists.mp hsome
  refine ⟨back, hback, (FastenerRequest.ofValue?_eq_some_iff rfl).mpr ⟨?_, ?_, ?_⟩⟩
  · exact optional?_ofUInt32 hback (by simp [FastenerRequest.toFields, filter_optionalField])
  · exact optional?_text hback (by simp [FastenerRequest.toFields, filter_optionalField])
  · exact optional?_text hback (by simp [FastenerRequest.toFields, filter_optionalField])

/-- The floating-point numbers among the numbers of a constraint. -/
def Parameters.floats (p : Parameters Float) : List Float :=
  p.distance.toList ++ p.revolutions.toList ++ p.angle.toList

theorem Parameters.ofValue?_eq_some_iff {v : Value} {fields : Fields}
    (hv : v.untagged = .object fields) {p : Parameters Float} :
    Parameters.ofValue? v = some p ↔
      fields.optional? "distance" Value.asFloat? = some p.distance ∧
      fields.optional? "revolutions" Value.asFloat? = some p.revolutions ∧
      fields.optional? "angle" Value.asFloat? = some p.angle ∧
      fields.optional? "fasteners" FastenerRequest.ofValue? = some p.fasteners := by
  simp only [Parameters.ofValue?, Value.asRecord?_of_untagged hv, Option.bind_eq_bind,
    Option.bind_some, Option.bind_eq_some_iff, Option.some.injEq]
  constructor
  · rintro ⟨_, hdistance, _, hrevolutions, _, hangle, _, hfasteners, rfl⟩
    exact ⟨hdistance, hrevolutions, hangle, hfasteners⟩
  · rintro ⟨hdistance, hrevolutions, hangle, hfasteners⟩
    exact ⟨_, hdistance, _, hrevolutions, _, hangle, _, hfasteners, rfl⟩

/-- The numbers of a constraint survive if each of them does. -/
theorem Parameters.survives_iff (p : Parameters Float) :
    Survives Parameters.ofValue? p.toValue p ↔ ∀ x ∈ p.floats, ReadsBack x := by
  rw [Parameters.toValue, survives_object]
  have hdistance : p.toFields.filter (·.1 == "distance") =
      optionalField "distance" .real p.distance := by
    simp [Parameters.toFields, filter_optionalField]
  have hrevolutions : p.toFields.filter (·.1 == "revolutions") =
      optionalField "revolutions" .real p.revolutions := by
    simp [Parameters.toFields, filter_optionalField]
  have hangle : p.toFields.filter (·.1 == "angle") = optionalField "angle" .real p.angle := by
    simp [Parameters.toFields, filter_optionalField]
  have hfasteners : p.toFields.filter (·.1 == "fasteners") =
      optionalField "fasteners" FastenerRequest.toValue p.fasteners := by
    simp [Parameters.toFields, filter_optionalField]
  simp only [Parameters.floats, List.forall_mem_append, Option.mem_toList]
  constructor
  · rintro ⟨back, hback, hread⟩
    obtain ⟨hreadD, hreadR, hreadA, -⟩ := (Parameters.ofValue?_eq_some_iff rfl).mp hread
    exact ⟨⟨(optional?_real hback hdistance).mp hreadD,
      (optional?_real hback hrevolutions).mp hreadR⟩, (optional?_real hback hangle).mp hreadA⟩
  · rintro ⟨⟨hD, hR⟩, hA⟩
    have hsome : (fieldsReadBack? p.toFields).isSome = true := by
      simp only [Parameters.toFields, isSome_fieldsReadBack?, List.forall_mem_append,
        forall_mem_optionalField]
      exact ⟨⟨⟨fun x hx ↦ (survives_real.mpr (hD x hx)).isSome,
        fun x hx ↦ (survives_real.mpr (hR x hx)).isSome⟩,
        fun x hx ↦ (survives_real.mpr (hA x hx)).isSome⟩, fun r _ ↦ r.survives.isSome⟩
    obtain ⟨back, hback⟩ := Option.isSome_iff_exists.mp hsome
    refine ⟨back, hback, (Parameters.ofValue?_eq_some_iff rfl).mpr ⟨?_, ?_, ?_, ?_⟩⟩
    · exact (optional?_real hback hdistance).mpr hD
    · exact (optional?_real hback hrevolutions).mpr hR
    · exact (optional?_real hback hangle).mpr hA
    · exact (optional?_eq_some_iff hback hfasteners rfl fun _ ↦ trivial).mpr
        fun r _ ↦ r.survives

/-! ### Conditions and actions -/

theorem Action.ofValue?_eq_some_iff {v : Value} {fields : Fields}
    (hv : v.untagged = .object fields) {a : Action} :
    Action.ofValue? v = some a ↔
      fields.required? "type" ConstraintType.ofValue? = some a.type ∧
      fields.withDefault? "parameters" {} Parameters.ofValue? = some a.parameters := by
  simp only [Action.ofValue?, Value.asRecord?_of_untagged hv, Option.bind_eq_bind, Option.bind_some,
    Option.bind_eq_some_iff, Option.some.injEq]
  constructor
  · rintro ⟨_, htype, _, hparameters, rfl⟩
    exact ⟨htype, hparameters⟩
  · rintro ⟨htype, hparameters⟩
    exact ⟨_, htype, _, hparameters, rfl⟩

/-- The constraint that a rule asks for survives if its numbers do. -/
theorem Action.survives_iff (a : Action) :
    Survives Action.ofValue? a.toValue a ↔ ∀ x ∈ a.parameters.floats, ReadsBack x := by
  rw [Action.toValue, survives_object, ← Parameters.survives_iff]
  have htype : a.toFields.filter (·.1 == "type") = [("type", .text a.type.name)] := by
    simp [Action.toFields]
  have hparameters : a.toFields.filter (·.1 == "parameters") =
      [("parameters", a.parameters.toValue)] := by
    simp [Action.toFields]
  constructor
  · rintro ⟨back, hback, hread⟩
    obtain ⟨-, hreadP⟩ := (Action.ofValue?_eq_some_iff rfl).mp hread
    exact (withDefault?_eq_some_iff hback hparameters).mp hreadP
  · intro hsurvives
    have hsome : (fieldsReadBack? a.toFields).isSome = true := by
      simp only [Action.toFields, isSome_fieldsReadBack?, List.forall_mem_cons]
      exact ⟨(survives_constraintType a.type).isSome, hsurvives.isSome, nofun⟩
    obtain ⟨back, hback⟩ := Option.isSome_iff_exists.mp hsome
    refine ⟨back, hback, (Action.ofValue?_eq_some_iff rfl).mpr ⟨?_, ?_⟩⟩
    · exact (required?_eq_some_iff hback htype).mpr (survives_constraintType a.type)
    · exact (withDefault?_eq_some_iff hback hparameters).mpr hsurvives

/-- The floating-point numbers of a condition. -/
def Condition.floats : Condition → List Float
  | .distanceRange min max => [min, max]
  | _ => []

private theorem resolved?_of_read? {x : Float} {v : Value}
    (h : Json.read? (Json.realText x) = some v) : v.resolved? = some v := by
  obtain rfl | ⟨n, rfl⟩ | ⟨y, rfl⟩ := Json.read?_realText_cases h <;> rfl

private theorem ofValue?_distanceRange {v w : Value} (hv : v.resolved? = some v)
    (hw : w.resolved? = some w) :
    Condition.ofValue? (.object [("type", .text "distance_range"), ("min", v), ("max", w)]) =
      v.asFloat?.bind fun min ↦ w.asFloat?.map fun max ↦ .distanceRange min max := by
  have hresolved : Value.resolved? (.object [("type", .text "distance_range"), ("min", v),
      ("max", w)]) = some (.object [("type", .text "distance_range"), ("min", v), ("max", w)]) := by
    simp only [Value.resolved?, Value.resolvedFields?, hv, hw, Option.map_some]
  rw [Condition.ofValue?, hresolved]
  change (v.asFloat?.bind fun min ↦ w.asFloat?.bind fun max ↦
    some (Condition.distanceRange min max)) = _
  simp only [Option.map_eq_bind, Function.comp_def]

/-- A condition survives if its floating-point numbers do. -/
theorem Condition.survives_iff (c : Condition) :
    Survives Condition.ofValue? c.toValue c ↔ ∀ x ∈ c.floats, ReadsBack x := by
  cases c with
  | both test =>
    obtain ⟨field, value, contains⟩ := test
    refine iff_of_true ?_ nofun
    cases value <;> cases contains <;> rfl
  | nameContains value => exact iff_of_true rfl nofun
  | threadMatch => exact iff_of_true rfl nofun
  | boltNutPair => exact iff_of_true rfl nofun
  | mateType mate => exact iff_of_true rfl nofun
  | distanceRange min max =>
    have hfloats : (∀ x ∈ (Condition.distanceRange min max).floats, ReadsBack x) ↔
        ReadsBack min ∧ ReadsBack max := by
      simp [Condition.floats]
    rw [hfloats, Survives, Condition.toValue, Condition.dataFields]
    simp only [readBack?, fieldsReadBack?, Option.bind_some, ReadsBack, Condition.kind]
    cases hmin : Json.read? (Json.realText min) with
    | none => simp
    | some v =>
      cases hmax : Json.read? (Json.realText max) with
      | none => simp
      | some w =>
        simp only [Option.bind_some, Option.map_some,
          ofValue?_distanceRange (resolved?_of_read? hmin) (resolved?_of_read? hmax)]
        cases hv : v.asFloat? with
        | none => simp
        | some a => cases w.asFloat? <;> simp

/-! ### Rules -/

/-- The floating-point numbers of a rule. -/
def Rule.floats (r : Rule) : List Float :=
  r.condition.floats ++ r.action.parameters.floats ++ [r.confidenceBoost]

theorem Rule.ofValue?_eq_some_iff {v : Value} {fields : Fields}
    (hv : v.untagged = .object fields) {r : Rule} :
    Rule.ofValue? v = some r ↔
      fields.required? "rule_id" Value.asText? = some r.id ∧
      fields.required? "name" Value.asText? = some r.name ∧
      fields.optional? "description" Value.asText? = some r.description ∧
      fields.withDefault? "priority" 0 Value.asInt32? = some r.priority ∧
      fields.required? "condition" Condition.ofValue? = some r.condition ∧
      fields.required? "action" Action.ofValue? = some r.action ∧
      fields.withDefault? "confidence_boost" 0.0 Value.asFloat? = some r.confidenceBoost ∧
      fields.withDefault? "active" true Value.asBool? = some r.isActive := by
  simp only [Rule.ofValue?, Value.asRecord?_of_untagged hv, Option.bind_eq_bind, Option.bind_some,
    Option.bind_eq_some_iff, Option.some.injEq]
  constructor
  · rintro ⟨_, hid, _, hname, _, hdescription, _, hpriority, _, hcondition, _, haction, _, hboost,
      _, hactive, rfl⟩
    exact ⟨hid, hname, hdescription, hpriority, hcondition, haction, hboost, hactive⟩
  · rintro ⟨hid, hname, hdescription, hpriority, hcondition, haction, hboost, hactive⟩
    exact ⟨_, hid, _, hname, _, hdescription, _, hpriority, _, hcondition, _, haction, _, hboost,
      _, hactive, rfl⟩

/-- A rule survives if its floating-point numbers do. -/
theorem Rule.survives_iff (r : Rule) :
    Survives Rule.ofValue? r.toValue r ↔ ∀ x ∈ r.floats, ReadsBack x := by
  simp only [Rule.floats, List.forall_mem_append, List.forall_mem_singleton,
    ← Condition.survives_iff, ← Action.survives_iff]
  rw [Rule.toValue, survives_object]
  have hcondition : r.toFields.filter (·.1 == "condition") =
      [("condition", r.condition.toValue)] := by
    simp [Rule.toFields, filter_optionalField]
  have haction : r.toFields.filter (·.1 == "action") = [("action", r.action.toValue)] := by
    simp [Rule.toFields, filter_optionalField]
  have hboost : r.toFields.filter (·.1 == "confidence_boost") =
      [("confidence_boost", .real r.confidenceBoost)] := by
    simp [Rule.toFields, filter_optionalField]
  constructor
  · rintro ⟨back, hback, hread⟩
    obtain ⟨-, -, -, -, hreadC, hreadA, hreadB, -⟩ := (Rule.ofValue?_eq_some_iff rfl).mp hread
    exact ⟨⟨(required?_eq_some_iff hback hcondition).mp hreadC,
      (required?_eq_some_iff hback haction).mp hreadA⟩,
      (withDefault?_eq_some_iff hback hboost).mp hreadB⟩
  · rintro ⟨⟨hC, hA⟩, hB⟩
    have hsome : (fieldsReadBack? r.toFields).isSome = true := by
      simp only [Rule.toFields, isSome_fieldsReadBack?, List.forall_mem_append,
        List.forall_mem_cons, forall_mem_optionalField]
      exact ⟨⟨⟨(survives_text _).isSome, (survives_text _).isSome, nofun⟩,
        fun s _ ↦ (survives_text s).isSome⟩, (survives_int32 _).isSome, hC.isSome, hA.isSome,
        (survives_real.mpr hB).isSome, (survives_bool _).isSome, nofun⟩
    obtain ⟨back, hback⟩ := Option.isSome_iff_exists.mp hsome
    refine ⟨back, hback, (Rule.ofValue?_eq_some_iff rfl).mpr ⟨?_, ?_, ?_, ?_, ?_, ?_, ?_, ?_⟩⟩
    · exact required?_text hback (by simp [Rule.toFields, filter_optionalField])
    · exact required?_text hback (by simp [Rule.toFields, filter_optionalField])
    · exact optional?_text hback (by simp [Rule.toFields, filter_optionalField])
    · exact (withDefault?_eq_some_iff hback
        (by simp [Rule.toFields, filter_optionalField])).mpr (survives_int32 r.priority)
    · exact (required?_eq_some_iff hback hcondition).mpr hC
    · exact (required?_eq_some_iff hback haction).mpr hA
    · exact (withDefault?_eq_some_iff hback hboost).mpr hB
    · exact (withDefault?_eq_some_iff hback
        (by simp [Rule.toFields, filter_optionalField])).mpr (survives_bool r.isActive)

/-! ### Rows -/

private theorem readable_ofUInt32 (depth : Nat) (n : UInt32) :
    Json.Readable depth (Value.ofUInt32 n) := by
  have hlow : -(pow2 63 : Int) ≤ 0 := by decide
  have hhigh : pow2 32 ≤ pow2 64 := by decide
  have hn : n.toNat < pow2 32 := n.toNat_lt
  exact ⟨by omega, by omega⟩

private theorem readable_int32 (depth : Nat) (n : Int32) : Json.Readable depth (.int n.toInt) := by
  have hlow : -(pow2 63 : Int) ≤ -(pow2 31 : Int) := by decide
  have hhigh : (pow2 31 : Int) ≤ pow2 64 := by decide
  have hfits : -(pow2 31 : Int) ≤ n.toInt ∧ n.toInt < pow2 31 := ⟨n.le_toInt, n.toInt_lt⟩
  exact ⟨by omega, by omega⟩

theorem FastenerRequest.readable (depth : Nat) (r : FastenerRequest) :
    Json.Readable (depth + 1) r.toValue := by
  rw [FastenerRequest.toValue, Json.Readable, fieldsReadable_iff, FastenerRequest.toFields]
  simp only [List.forall_mem_append, forall_mem_optionalField]
  exact ⟨⟨fun n _ ↦ readable_ofUInt32 depth n, fun _ _ ↦ trivial⟩, fun _ _ ↦ trivial⟩

theorem Parameters.readable (depth : Nat) (p : Parameters Float) :
    Json.Readable (depth + 2) p.toValue := by
  rw [Parameters.toValue, Json.Readable, fieldsReadable_iff, Parameters.toFields]
  simp only [List.forall_mem_append, forall_mem_optionalField]
  exact ⟨⟨⟨fun _ _ ↦ trivial, fun _ _ ↦ trivial⟩, fun _ _ ↦ trivial⟩,
    fun r _ ↦ r.readable depth⟩

theorem Action.readable (depth : Nat) (a : Action) : Json.Readable (depth + 3) a.toValue := by
  rw [Action.toValue, Json.Readable, fieldsReadable_iff, Action.toFields]
  simp only [List.forall_mem_cons]
  exact ⟨trivial, a.parameters.readable depth, nofun⟩

theorem Condition.readable (depth : Nat) (c : Condition) :
    Json.Readable (depth + 1) c.toValue := by
  rw [Condition.toValue, Json.Readable, fieldsReadable_iff, List.forall_mem_cons]
  refine ⟨trivial, ?_⟩
  cases c with
  | both test =>
    simp only [Condition.dataFields, AttributeTest.toFields, List.forall_mem_append,
      List.forall_mem_singleton, forall_mem_optionalField]
    exact ⟨⟨trivial, fun _ _ ↦ trivial⟩, fun _ _ ↦ trivial⟩
  | nameContains value => simp [Condition.dataFields, Json.Readable]
  | threadMatch => simp [Condition.dataFields]
  | boltNutPair => simp [Condition.dataFields]
  | distanceRange min max => simp [Condition.dataFields, Json.Readable]
  | mateType mate => simp [Condition.dataFields, Json.Readable]

theorem Rule.readable (depth : Nat) (r : Rule) : Json.Readable (depth + 4) r.toValue := by
  rw [Rule.toValue, Json.Readable, fieldsReadable_iff, Rule.toFields]
  simp only [List.forall_mem_append, List.forall_mem_cons, forall_mem_optionalField]
  exact ⟨⟨⟨trivial, trivial, nofun⟩, fun _ _ ↦ trivial⟩, readable_int32 _ _, r.condition.readable _,
    r.action.readable depth, trivial, trivial, nofun⟩

/-- The row of a rule holds what the rule comes back as. -/
theorem RuleRow.rule_of_eq_ok_iff {r s : Rule} :
    (RuleRow.of r).rule = .ok s ↔ Survives Rule.ofValue? r.toValue s := by
  rw [Survives, RuleRow.rule, RuleRow.of, Json.read?_compact (r.readable 123)]
  split
  case h_1 t ht => rw [ht, Except.ok.injEq, Option.some.injEq]
  case h_2 hnone =>
    rw [hnone]
    refine iff_of_false ?_ ?_ <;> simp

/-- What the row of a rule holds has the id and the priority of the rule. -/
theorem RuleRow.id_priority_of_rule_of {r s : Rule} (h : (RuleRow.of r).rule = .ok s) :
    s.id = r.id ∧ s.priority = r.priority := by
  obtain ⟨back, hback, hread⟩ := survives_object.mp (RuleRow.rule_of_eq_ok_iff.mp h)
  obtain ⟨hid, -, -, hpriority, -⟩ := (Rule.ofValue?_eq_some_iff rfl).mp hread
  have hidKey : r.toFields.filter (·.1 == "rule_id") = [("rule_id", .text r.id)] := by
    simp [Rule.toFields, filter_optionalField]
  have hpriorityKey : r.toFields.filter (·.1 == "priority") =
      [("priority", .int r.priority.toInt)] := by
    simp [Rule.toFields, filter_optionalField]
  have hidText := required?_text hback hidKey
  have hpriorityInt : Fields.withDefault? back "priority" 0 Value.asInt32? = some r.priority :=
    (withDefault?_eq_some_iff hback hpriorityKey).mpr (survives_int32 r.priority)
  exact ⟨Option.some.inj (hid.symm.trans hidText),
    Option.some.inj (hpriority.symm.trans hpriorityInt)⟩

/-- A number that is not finite does not survive a text. -/
theorem not_readsBack_of_isFinite_eq_false {x : Float} (h : Decimal.isFinite x = false) :
    ¬ReadsBack x := by
  rw [ReadsBack, Json.realText_of_isFinite_eq_false h]
  exact nofun

/-! ### Parts -/

theorem Part.ofValue?_eq_some_iff {v : Value} {fields : Fields}
    (hv : v.untagged = .object fields) {p : Part} :
    Part.ofValue? v = some p ↔
      fields.required? "part_id" Value.asText? = some p.id ∧
      fields.optional? "name" Value.asText? = some p.name ∧
      fields.withDefault? "family" .other Family.ofValue? = some p.family ∧
      fields.optional? "dn" Value.asUInt32? = some p.dn ∧
      fields.optional? "pn" Value.asUInt32? = some p.pn ∧
      fields.optional? "end_type" Value.asText? = some p.endType ∧
      fields.optional? "face_type" Value.asText? = some p.faceType ∧
      fields.withDefault? "metadata" [] Part.metadataOfValue? = some p.metadata ∧
      fields.optional? "model_path" Value.asText? = some p.modelPath := by
  simp only [Part.ofValue?, Value.asRecord?_of_untagged hv, Option.bind_eq_bind, Option.bind_some,
    Option.bind_eq_some_iff, Option.some.injEq]
  constructor
  · rintro ⟨_, hid, _, hname, _, hfamily, _, hdn, _, hpn, _, hend, _, hface, _, hmetadata, _,
      hmodel, rfl⟩
    exact ⟨hid, hname, hfamily, hdn, hpn, hend, hface, hmetadata, hmodel⟩
  · rintro ⟨hid, hname, hfamily, hdn, hpn, hend, hface, hmetadata, hmodel⟩
    exact ⟨_, hid, _, hname, _, hfamily, _, hdn, _, hpn, _, hend, _, hface, _, hmetadata, _, hmodel,
      rfl⟩

private theorem keysRise_metadataOfValue? {v : Value} {entries : List (String × String)}
    (h : Part.metadataOfValue? v = some entries) : KeysRise entries := by
  obtain ⟨fields, -, h⟩ := Option.bind_eq_some_iff.mp h
  obtain ⟨read, -, rfl⟩ := Option.map_eq_some_iff.mp h
  exact keysRise_sortEntries read

/-- The metadata of a part that was read are in key order. -/
theorem Part.keysRise_of_ofValue? {v : Value} {p : Part} (h : Part.ofValue? v = some p) :
    KeysRise p.metadata := by
  simp only [Part.ofValue?, Option.bind_eq_bind, Option.bind_eq_some_iff] at h
  obtain ⟨fields, -, _, -, _, -, _, -, _, -, _, -, _, -, _, -, metadata, hmetadata, _, -, hp⟩ := h
  cases hp
  rw [Fields.withDefault?] at hmetadata
  split at hmetadata
  · cases hmetadata
  · cases hmetadata
    exact List.Pairwise.nil
  · exact keysRise_metadataOfValue? hmetadata

theorem forall_mem_ite_nil {α : Type} {c : Prop} [Decidable c] {a : α} {P : α → Prop} :
    (∀ x ∈ if c then [] else [a], P x) ↔ (¬c → P a) := by
  split <;> simp [*]

private theorem fieldsReadBack?_text (entries : List (String × String)) :
    fieldsReadBack? (entries.map fun (key, s) ↦ (key, .text s)) =
      some (entries.map fun (key, s) ↦ (key, .text s)) := by
  induction entries with
  | nil => rfl
  | cons e entries ih =>
    rw [List.map_cons, fieldsReadBack?, ih]
    rfl

private theorem mapM_text (entries : List (String × String)) :
    (entries.map fun e ↦ (e.1, Value.text e.2)).mapM
      (fun e : String × Value ↦ e.2.asText?.map (e.1, ·)) = some entries := by
  induction entries with
  | nil => rfl
  | cons e entries ih =>
    rw [List.map_cons, List.mapM_cons, ih]
    rfl

/-- Metadata in key order are read as they are. -/
theorem metadataOfValue?_text {entries : List (String × String)} (h : KeysRise entries) :
    Part.metadataOfValue? (.object (entries.map fun (key, s) ↦ (key, .text s))) =
      some entries := by
  change ((entries.map fun e ↦ (e.1, Value.text e.2)).mapM
    (fun e : String × Value ↦ e.2.asText?.map (e.1, ·))).map sortEntries = some entries
  rw [mapM_text, Option.map_some, sortEntries_of_keysRise h]

/-- Metadata in key order survive. -/
theorem survives_metadata {entries : List (String × String)} (h : KeysRise entries) :
    Survives Part.metadataOfValue? (.object (entries.map fun (key, s) ↦ (key, .text s)))
      entries := by
  rw [survives_object]
  exact ⟨_, fieldsReadBack?_text entries, metadataOfValue?_text h⟩

/-- Metadata stand among the fields of a part if there are any. -/
theorem Part.filter_metadata (p : Part) :
    p.toFields.filter (·.1 == "metadata") = if p.metadata = [] then [] else
      [("metadata", .object (p.metadata.map fun (key, s) ↦ (key, .text s)))] := by
  by_cases hnil : p.metadata = [] <;> simp [toFields, filter_optionalField, hnil]

/-- A part with metadata in key order survives. -/
theorem Part.survives (p : Part) (h : KeysRise p.metadata) :
    Survives Part.ofValue? p.toValue p := by
  rw [Part.toValue, survives_object]
  have hmetadata := p.filter_metadata
  have hsome : (fieldsReadBack? p.toFields).isSome = true := by
    simp only [Part.toFields, isSome_fieldsReadBack?, List.forall_mem_append,
      List.forall_mem_singleton, forall_mem_optionalField, forall_mem_ite_nil]
    exact ⟨⟨⟨⟨⟨⟨⟨⟨(survives_text _).isSome, fun s _ ↦ (survives_text s).isSome⟩,
      (survives_family _).isSome⟩, fun n _ ↦ (survives_ofUInt32 n).isSome⟩,
      fun n _ ↦ (survives_ofUInt32 n).isSome⟩, fun s _ ↦ (survives_text s).isSome⟩,
      fun s _ ↦ (survives_text s).isSome⟩, fun _ ↦ (survives_metadata h).isSome⟩,
      fun s _ ↦ (survives_text s).isSome⟩
  obtain ⟨back, hback⟩ := Option.isSome_iff_exists.mp hsome
  refine ⟨back, hback, (Part.ofValue?_eq_some_iff rfl).mpr ⟨?_, ?_, ?_, ?_, ?_, ?_, ?_, ?_, ?_⟩⟩
  · exact required?_text hback (by simp [Part.toFields, filter_optionalField])
  · exact optional?_text hback (by simp [Part.toFields, filter_optionalField])
  · exact (withDefault?_eq_some_iff hback
      (by simp [Part.toFields, filter_optionalField])).mpr (survives_family p.family)
  · exact optional?_ofUInt32 hback (by simp [Part.toFields, filter_optionalField])
  · exact optional?_ofUInt32 hback (by simp [Part.toFields, filter_optionalField])
  · exact optional?_text hback (by simp [Part.toFields, filter_optionalField])
  · exact optional?_text hback (by simp [Part.toFields, filter_optionalField])
  · by_cases hnil : p.metadata = []
    · rw [if_pos hnil] at hmetadata
      rw [Fields.withDefault?, lookup?_of_filter_nil hback hmetadata, hnil]
    · rw [if_neg hnil] at hmetadata
      exact (withDefault?_eq_some_iff hback hmetadata).mpr (survives_metadata h)
  · exact optional?_text hback (by simp [Part.toFields, filter_optionalField])

private theorem Part.readable (depth : Nat) (p : Part) : Json.Readable (depth + 2) p.toValue := by
  rw [Part.toValue, Json.Readable, fieldsReadable_iff, Part.toFields]
  simp only [List.forall_mem_append, List.forall_mem_singleton, forall_mem_optionalField,
    forall_mem_ite_nil]
  refine ⟨⟨⟨⟨⟨⟨⟨⟨trivial, fun _ _ ↦ trivial⟩, trivial⟩, fun n _ ↦ readable_ofUInt32 _ n⟩,
    fun n _ ↦ readable_ofUInt32 _ n⟩, fun _ _ ↦ trivial⟩, fun _ _ ↦ trivial⟩, fun _ ↦ ?_⟩,
    fun _ _ ↦ trivial⟩
  rw [Json.Readable, fieldsReadable_iff, List.forall_mem_map]
  exact fun _ _ ↦ trivial

/-- The row of a part with metadata in key order holds the part. -/
theorem PartRow.part_of {p : Part} (h : KeysRise p.metadata) : (PartRow.of p).part = .ok p := by
  have hread : (Json.read? (Json.compact p.toValue)).bind Part.ofValue? = some p := by
    rw [Json.read?_compact (p.readable 125)]
    exact p.survives h
  rw [PartRow.part, PartRow.of, hread]

end PipingAssembly
