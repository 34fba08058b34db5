import PipingAssembly.Proofs.Schema.Readers
import PipingAssembly.Proofs.Store.Records

/-!
# Rules that the schema accepts and a store reads

Beyond what is left to ask of the numbers, the schema of rules does not tell which fields a kind of
condition needs, and lets a condition hold anything under names that it does not know.
-/

namespace PipingAssembly

open Value (Fields)
open Yaml (Node)
open Schema (FieldOf)

/-! ### Numbers of constraints -/

namespace FastenerRequest

/-- The schema of requests for fasteners. -/
private abbrev schema : Schema :=
  .record [] [("bolt_count", .integer (some 1)), ("bolt_spec", .text), ("gasket", .text)] .forbidden

/-- Of the requests for fasteners that the schema accepts, a store reads those whose count fits its
field. -/
private theorem isSome_ofValue?_iff {n : Node} (h : schema.Accepts n) :
    (ofValue? n.toValue).isSome = true ↔
      n.toValue.recordFields.Reads "bolt_count" Value.asUInt32? := by
  obtain ⟨hrecord, hfield⟩ := h.fieldOf (Or.inl ⟨rfl, by simp [Yaml.isOwnTag]⟩)
  have hcount := hfield "bolt_count" (by decide +kernel)
  have hspec := hfield "bolt_spec" (by decide +kernel)
  have hgasket := hfield "gasket" (by decide +kernel)
  have hreadSpec := hspec.isSome_optional?_text (s := .text) (by simp) rfl
  have hreadGasket := hgasket.isSome_optional?_text (s := .text) (by simp) rfl
  rw [← hcount.isSome_optional? (s := .integer (some 1)) (by simp)]
  simp only [Option.isSome_iff_exists] at hreadSpec hreadGasket ⊢
  constructor
  · rintro ⟨r, hr⟩
    exact ⟨_, ((ofValue?_eq_some_iff hrecord).mp hr).1⟩
  · rintro ⟨count, hcount⟩
    obtain ⟨spec, hspec⟩ := hreadSpec
    obtain ⟨gasket, hgasket⟩ := hreadGasket
    exact ⟨⟨count, spec, gasket⟩, (ofValue?_eq_some_iff hrecord).mpr ⟨hcount, hspec, hgasket⟩⟩

end FastenerRequest

namespace Parameters

/-- What a store asks of the numbers of a constraint beyond their schema. -/
structure Fits (v : Value) : Prop where
  distance : v.recordFields.Reads "distance" Value.asFloat?
  revolutions : v.recordFields.Reads "revolutions" Value.asFloat?
  angle : v.recordFields.Reads "angle" Value.asFloat?
  boltCount : ∀ w, ("fasteners", w) ∈ v.recordFields →
    w.recordFields.Reads "bolt_count" Value.asUInt32?

private theorem isSome_ofValue?_of_untagged {v : Value} {fields : Fields}
    (hv : v.untagged = .object fields) :
    (ofValue? v).isSome = true ↔
      (fields.optional? "distance" Value.asFloat?).isSome = true ∧
      (fields.optional? "revolutions" Value.asFloat?).isSome = true ∧
      (fields.optional? "angle" Value.asFloat?).isSome = true ∧
      (fields.optional? "fasteners" FastenerRequest.ofValue?).isSome = true := by
  simp only [Option.isSome_iff_exists]
  constructor
  · rintro ⟨p, hp⟩
    obtain ⟨hdistance, hrevolutions, hangle, hfasteners⟩ := (ofValue?_eq_some_iff hv).mp hp
    exact ⟨⟨_, hdistance⟩, ⟨_, hrevolutions⟩, ⟨_, hangle⟩, ⟨_, hfasteners⟩⟩
  · rintro ⟨⟨distance, hdistance⟩, ⟨revolutions, hrevolutions⟩, ⟨angle, hangle⟩,
      ⟨fasteners, hfasteners⟩⟩
    exact ⟨⟨distance, revolutions, angle, fasteners⟩,
      (ofValue?_eq_some_iff hv).mpr ⟨hdistance, hrevolutions, hangle, hfasteners⟩⟩

private theorem isSome_ofValue?_iff {n : Node} (h : Schema.parameters.Accepts n) :
    (ofValue? n.toValue).isSome = true ↔ Fits n.toValue := by
  obtain ⟨hrecord, hfield⟩ := h.fieldOf (Or.inl ⟨rfl, by simp [Yaml.isOwnTag]⟩)
  have hdistance := hfield "distance" (by decide +kernel)
  have hrevolutions := hfield "revolutions" (by decide +kernel)
  have hangle := hfield "angle" (by decide +kernel)
  have hfasteners := hfield "fasteners" (by decide +kernel)
  rw [isSome_ofValue?_of_untagged hrecord,
    hdistance.isSome_optional? (s := .number none none) (by simp),
    hrevolutions.isSome_optional? (s := .number (some 0) none) (by simp),
    hangle.isSome_optional? (s := .number none none) (by simp),
    hfasteners.isSome_optional? (s := FastenerRequest.schema) (by simp),
    hfasteners.reads_iff (s := FastenerRequest.schema)
      (P := fun v ↦ v.recordFields.Reads "bolt_count" Value.asUInt32?) (by simp) _
      fun _ hn ↦ FastenerRequest.isSome_ofValue?_iff hn]
  constructor
  · rintro ⟨hd, hr, ha, hf⟩
    exact ⟨hd, hr, ha, hf⟩
  · rintro ⟨hd, hr, ha, hf⟩
    exact ⟨hd, hr, ha, hf⟩

end Parameters

/-! ### Conditions -/

section Resolved

variable {v : Value} {fields resolved : Fields}

/-- The fields with a name keep it when the types of all scalars are chosen. -/
private theorem resolvedFields?_filter (h : Value.resolvedFields? fields = some resolved)
    (name : String) :
    Value.resolvedFields? (fields.filter (·.1 == name)) =
      some (resolved.filter (·.1 == name)) := by
  induction fields generalizing resolved with
  | nil =>
    rw [Value.resolvedFields?] at h
    obtain rfl := Option.some.inj h
    rfl
  | cons f fields ih =>
    obtain ⟨key, w⟩ := f
    rw [Value.resolvedFields?] at h
    split at h
    · rename_i r rest hr hrest
      obtain rfl := Option.some.inj h
      rw [List.filter_cons, List.filter_cons]
      split
      · rw [Value.resolvedFields?, hr, ih hrest]
      · exact ih hrest
    · cases h

private theorem exists_resolvedFields? (h : v.untagged = .object fields) {w : Value}
    (hw : v.resolved? = some w) :
    ∃ resolved, Value.resolvedFields? fields = some resolved ∧ w = .object resolved := by
  cases v with
  | object fields' =>
    obtain rfl := Value.object.inj h
    rw [Value.resolved?] at hw
    obtain ⟨resolved, hresolved, rfl⟩ := Option.map_eq_some_iff.mp hw
    exact ⟨resolved, hresolved, rfl⟩
  | tagged tag v =>
    obtain rfl : v = .object fields := h
    rw [Value.resolved?] at hw
    split at hw
    · cases hw
    · obtain ⟨resolved, hresolved, rfl⟩ := Option.map_eq_some_iff.mp hw
      exact ⟨resolved, hresolved, rfl⟩
  | null | bool | int | real | text | plain | list | openList | keyedByNodes => cases h

end Resolved

namespace Condition

/-- The fields without which a condition of a kind cannot be read. -/
def neededFields : String → List String
  | "both" => ["field"]
  | "name_contains" => ["value"]
  | "distance_range" => ["min", "max"]
  | "mate_type" => ["mate_type"]
  | _ => []

/-- What a store asks of a condition beyond its schema. -/
structure Fits (v : Value) : Prop where
  /-- no tag of an application is inside of it -/
  resolves : v.resolved?.isSome = true
  complete : ∀ w, ("type", w) ∈ v.recordFields → ∀ kind, w.asText? = some kind →
    ∀ name ∈ neededFields kind, name ∈ v.recordFields.map (·.1)

/-- What has a name beside the kind has it among all fields. -/
private theorem filter_data {name : String} (hname : name ≠ "type") (fields : Fields) :
    (fields.filter (·.1 != "type")).filter (·.1 == name) = fields.filter (·.1 == name) := by
  rw [List.filter_filter]
  apply List.filter_congr
  intro f _
  by_cases h : f.1 = name
  · simp [h, hname]
  · simp [h]

section Field

variable {α : Type} {required : List String} {properties : List (String × Schema)}
  {further : Further} {fields resolved : Fields} {name : String} {s : Schema}
  (hfield : FieldOf required properties further fields name) (hs : (name, s) ∈ properties)
  (hresolved : Value.resolvedFields? fields = some resolved)
include hfield hs hresolved

/-- With the types of all scalars chosen, a field is still missing, or one value that its node
resolves to. -/
private theorem resolved_field :
    (resolved.filter (·.1 == name) = [] ∧ name ∉ fields.map (·.1)) ∨
      ∃ n w, s.Accepts n ∧ n.toValue.resolved? = some w ∧
        resolved.filter (·.1 == name) = [(name, w)] ∧ name ∈ fields.map (·.1) := by
  have hfilter := resolvedFields?_filter hresolved name
  obtain hnil | ⟨n, hn, haccepts⟩ := hfield.eq_nil_or_exists hs
  · rw [hnil, Value.resolvedFields?] at hfilter
    refine Or.inl ⟨(Option.some.inj hfilter).symm, fun hmem ↦ ?_⟩
    obtain ⟨f, hf, hname⟩ := List.mem_map.mp hmem
    exact List.filter_eq_nil_iff.mp hnil f hf (beq_iff_eq.mpr hname)
  · rw [hn, Value.resolvedFields?] at hfilter
    split at hfilter
    · rename_i w rest hw hrest
      rw [Value.resolvedFields?] at hrest
      obtain rfl := Option.some.inj hrest
      refine Or.inr ⟨n, w, haccepts, hw, (Option.some.inj hfilter).symm, ?_⟩
      have hmem : (name, n.toValue) ∈ fields.filter (·.1 == name) := by
        rw [hn]
        exact List.mem_singleton_self _
      exact List.mem_map.mpr ⟨_, (List.mem_filter.mp hmem).1, rfl⟩
    · cases hfilter

variable (hname : name ≠ "type") {read : Value → Option α}
include hname

/-- A needed field is read if it is there. -/
private theorem isSome_required?_data
    (hread : ∀ n w, s.Accepts n → n.toValue.resolved? = some w → (read w).isSome = true) :
    (Fields.required? (resolved.filter (·.1 != "type")) name read).isSome = true ↔
      name ∈ fields.map (·.1) := by
  rw [Fields.required?, Fields.lookup?, filter_data hname]
  obtain ⟨hnil, hmissing⟩ | ⟨n, w, haccepts, hw, hfilter, hmem⟩ :=
    resolved_field hfield hs hresolved
  · rw [hnil]
    exact iff_of_false Bool.false_ne_true hmissing
  · rw [hfilter]
    exact iff_of_true (hread n w haccepts hw) hmem

private theorem isSome_optional?_data
    (hread : ∀ n w, s.Accepts n → n.toValue.resolved? = some w →
      (Value.asOptional? read w).isSome = true) :
    (Fields.optional? (resolved.filter (·.1 != "type")) name read).isSome = true := by
  rw [Fields.optional?, Fields.lookup?, filter_data hname]
  obtain ⟨hnil, -⟩ | ⟨n, w, haccepts, hw, hfilter, -⟩ := resolved_field hfield hs hresolved
  · rw [hnil]
    rfl
  · rw [hfilter]
    exact hread n w haccepts hw

end Field

section Text

variable {s : Schema} (hs : s.type = .string) {n : Node} {w : Value} (h : s.Accepts n)
  (hw : n.toValue.resolved? = some w)
include hs h hw

private theorem text_of_resolved? : ∃ t, w = .text t := by
  obtain ⟨depth, t, ht⟩ := h.exists_text hs
  rw [Yaml.resolved?_toValue (Yaml.standsFor_text t) ht] at hw
  exact ⟨t, (Option.some.inj hw).symm⟩

private theorem isSome_asText?_of_resolved? : w.asText?.isSome = true := by
  obtain ⟨t, rfl⟩ := text_of_resolved? hs h hw
  rfl

private theorem isSome_asOptional?_of_resolved? :
    (Value.asOptional? Value.asText? w).isSome = true := by
  obtain ⟨t, rfl⟩ := text_of_resolved? hs h hw
  rfl

end Text

private theorem isSome_asFloat?_of_resolved? {s : Schema} (hs : s.type = .number) {n : Node}
    {w : Value} (h : s.Accepts n) (hw : n.toValue.resolved? = some w) :
    w.asFloat?.isSome = true := by
  obtain ⟨depth, u, hu, hnumber⟩ := h.exists_number hs
  cases u with
  | int k =>
    have hscalar : Yaml.StandsFor "" (.int k) := trivial
    rw [Yaml.resolved?_toValue hscalar hu] at hw
    obtain rfl := Option.some.inj hw
    rfl
  | real x =>
    have hscalar : Yaml.StandsFor "" (.real x) := trivial
    rw [Yaml.resolved?_toValue hscalar hu] at hw
    obtain rfl := Option.some.inj hw
    rfl
  | null | bool | text | plain | list | openList | object | tagged | keyedByNodes => cases hnumber

private theorem attributeTest_isSome_iff {fields : Fields} :
    (AttributeTest.ofValue? (.object fields)).isSome = true ↔
      (fields.required? "field" Value.asText?).isSome = true ∧
      (fields.optional? "value" Value.asText?).isSome = true ∧
      (fields.optional? "contains" Value.asText?).isSome = true := by
  simp only [AttributeTest.ofValue?, Value.asRecord?, Value.untagged, Value.asObject?,
    Option.bind_eq_bind, Option.bind_some, Option.isSome_iff_exists, Option.bind_eq_some_iff,
    Option.some.injEq]
  constructor
  · rintro ⟨_, field, hfield, value, hvalue, contains, hcontains, -⟩
    exact ⟨⟨field, hfield⟩, ⟨value, hvalue⟩, ⟨contains, hcontains⟩⟩
  · rintro ⟨⟨field, hfield⟩, ⟨value, hvalue⟩, ⟨contains, hcontains⟩⟩
    exact ⟨_, field, hfield, value, hvalue, contains, hcontains, rfl⟩

section Kind

variable {v : Value} {kind : String} {m : Node} {depth : Nat}
  (hkind : v.recordFields.filter (·.1 == "type") = [("type", m.toValue)])
  (hdata : m.dataWithin depth = .ok (.text kind))
include hkind hdata

/-- A condition without tags of an application inside fits if it has the fields of its kind. -/
private theorem fits_iff (hresolves : v.resolved?.isSome = true) :
    Fits v ↔ ∀ name ∈ neededFields kind, name ∈ v.recordFields.map (·.1) := by
  have hmem : ∀ w, ("type", w) ∈ v.recordFields ↔ w = m.toValue := by
    simp [FieldOf.mem_iff_of_filter hkind]
  have htext := Yaml.asText?_toValue hdata
  constructor
  · rintro ⟨-, hcomplete⟩
    exact hcomplete _ ((hmem _).mpr rfl) kind htext
  · intro hneeded
    refine ⟨hresolves, fun w hw k hk ↦ ?_⟩
    rw [(hmem w).mp hw, htext] at hk
    exact Option.some.inj hk ▸ hneeded

/-- With the types of all scalars chosen, a condition has its kind and its other fields. -/
private theorem asVariant?_of_resolvedFields? {resolved : Fields}
    (hresolved : Value.resolvedFields? v.recordFields = some resolved) :
    (Value.object resolved).asVariant? "type" =
      some (kind, .object (resolved.filter (·.1 != "type"))) := by
  have hfilter := resolvedFields?_filter hresolved "type"
  rw [hkind, Value.resolvedFields?, Yaml.resolved?_toValue (Yaml.standsFor_text kind) hdata,
    Value.resolvedFields?] at hfilter
  rw [Value.asVariant?, ← Option.some.inj hfilter]
  rfl

end Kind

/-- Of the conditions that the schema accepts, a store reads those without tags of an application
inside that have the fields their kind needs. -/
theorem isSome_ofValue?_iff {n : Node} (h : Schema.condition.Accepts n) :
    (ofValue? n.toValue).isSome = true ↔ Fits n.toValue := by
  obtain ⟨hrecord, hfield⟩ := h.fieldOf (Or.inr ⟨"type", by decide, by decide⟩)
  cases hresolved : n.toValue.resolved? with
  | none =>
    refine iff_of_false ?_ ?_
    · simp [ofValue?, hresolved]
    · rintro ⟨hresolves, -⟩
      rw [hresolved] at hresolves
      cases hresolves
  | some w =>
    obtain ⟨resolved, hfields, rfl⟩ := exists_resolvedFields? hrecord hresolved
    have htype := hfield "type" (by decide +kernel)
    obtain ⟨m, hm, haccepts⟩ := htype.exists_of_required (.head _) (by decide)
    obtain ⟨depth, kind, hkind, hdata⟩ := haccepts.exists_option (by decide)
    have hvariant := asVariant?_of_resolvedFields? hm hdata hfields
    have hfield' := hfield "field" (by decide +kernel)
    have hvalue := hfield "value" (by decide +kernel)
    have hcontains := hfield "contains" (by decide +kernel)
    have hmin := hfield "min" (by decide +kernel)
    have hmax := hfield "max" (by decide +kernel)
    have hmate := hfield "mate_type" (by decide +kernel)
    rw [fits_iff hm hdata (Option.isSome_of_eq_some hresolved)]
    let names := n.toValue.recordFields.map (·.1)
    let data : Fields := resolved.filter (·.1 != "type")
    simp only [ofValue?, hresolved, hvariant, Option.bind_eq_bind, Option.bind_some]
    simp only [List.mem_cons, List.not_mem_nil, or_false] at hkind
    obtain rfl | rfl | rfl | rfl | rfl | rfl := hkind
    · change (Option.map both (AttributeTest.ofValue? (.object data))).isSome = true ↔
        ∀ name ∈ ["field"], name ∈ names
      rw [Option.isSome_map, attributeTest_isSome_iff, List.forall_mem_singleton,
        isSome_required?_data hfield' (s := .text) (by simp) hfields (by decide)
          fun _ _ hn hw ↦ isSome_asText?_of_resolved? rfl hn hw]
      exact and_iff_left ⟨isSome_optional?_data hvalue (s := .text) (by simp) hfields (by decide)
          fun _ _ hn hw ↦ isSome_asOptional?_of_resolved? rfl hn hw,
        isSome_optional?_data hcontains (s := .text) (by simp) hfields (by decide)
          fun _ _ hn hw ↦ isSome_asOptional?_of_resolved? rfl hn hw⟩
    · change (Fields.required? data "value" fun v ↦ v.asText?.map nameContains).isSome = true ↔
        ∀ name ∈ ["value"], name ∈ names
      rw [List.forall_mem_singleton]
      exact isSome_required?_data hvalue (s := .text) (by simp) hfields (by decide)
        fun _ _ hn hw ↦ Option.isSome_map.trans (isSome_asText?_of_resolved? rfl hn hw)
    · exact iff_of_true rfl (List.forall_mem_nil _)
    · exact iff_of_true rfl (List.forall_mem_nil _)
    · change ((Fields.required? data "min" Value.asFloat?).bind fun min ↦
          (Fields.required? data "max" Value.asFloat?).bind fun max ↦
            some (distanceRange min max)).isSome = true ↔ ∀ name ∈ ["min", "max"], name ∈ names
      have hreadMin := isSome_required?_data hmin (s := .number (some 0) none) (by simp) hfields
        (by decide) fun _ _ hn hw ↦ isSome_asFloat?_of_resolved? rfl hn hw
      have hreadMax := isSome_required?_data hmax (s := .number (some 0) none) (by simp) hfields
        (by decide) fun _ _ hn hw ↦ isSome_asFloat?_of_resolved? rfl hn hw
      rw [List.forall_mem_cons, List.forall_mem_singleton, ← hreadMin, ← hreadMax]
      cases Fields.required? data "min" Value.asFloat? <;>
        cases Fields.required? data "max" Value.asFloat? <;> simp
    · change (Fields.required? data "mate_type" fun v ↦ v.asText?.map mateType).isSome = true ↔
        ∀ name ∈ ["mate_type"], name ∈ names
      rw [List.forall_mem_singleton]
      exact isSome_required?_data hmate (s := .text) (by simp) hfields (by decide)
        fun _ _ hn hw ↦ Option.isSome_map.trans (isSome_asText?_of_resolved? rfl hn hw)

end Condition

/-! ### Rules -/

namespace Action

/-- The schema of the constraint that a rule asks for. -/
private abbrev schema : Schema :=
  .record ["type"] [("type", .textOf 1 none), ("parameters", .parameters)] .forbidden

/-- What a store asks of the constraint that a rule asks for beyond its schema concerns its
numbers. -/
private theorem isSome_ofValue?_iff {n : Node} (h : schema.Accepts n) :
    (ofValue? n.toValue).isSome = true ↔
      ∀ v, ("parameters", v) ∈ n.toValue.recordFields → Parameters.Fits v := by
  obtain ⟨hrecord, hfield⟩ := h.fieldOf (Or.inr ⟨"type", by decide, by decide⟩)
  have htype := hfield "type" (by decide +kernel)
  have hparameters := hfield "parameters" (by decide +kernel)
  have hreadType : (Fields.required? n.toValue.recordFields "type" ConstraintType.ofValue?).isSome =
      true :=
    (htype.isSome_required? (s := .textOf 1 none) (by simp) _ (by decide)).mpr <|
      htype.reads (s := .textOf 1 none) (by simp) fun _ hn ↦
        Option.isSome_map.trans (hn.isSome_asCase? rfl)
  rw [← hparameters.reads_iff (s := .parameters) (by simp)
      Parameters.ofValue? fun _ hn ↦ Parameters.isSome_ofValue?_iff hn,
    ← hparameters.isSome_withDefault? (s := .parameters) (by simp) _ {}]
  simp only [Option.isSome_iff_exists] at hreadType ⊢
  constructor
  · rintro ⟨a, ha⟩
    exact ⟨_, ((ofValue?_eq_some_iff hrecord).mp ha).2⟩
  · rintro ⟨parameters, hparameters⟩
    obtain ⟨type, htype⟩ := hreadType
    exact ⟨⟨type, parameters⟩, (ofValue?_eq_some_iff hrecord).mpr ⟨htype, hparameters⟩⟩

end Action

namespace Rule

/-- What a store asks of a rule beyond its schema. -/
structure Fits (v : Value) : Prop where
  priority : v.recordFields.Reads "priority" Value.asInt32?
  confidenceBoost : v.recordFields.Reads "confidence_boost" Value.asFloat?
  active : v.recordFields.Reads "active" Value.asBool?
  condition : ∀ w, ("condition", w) ∈ v.recordFields → Condition.Fits w
  parameters : ∀ a, ("action", a) ∈ v.recordFields →
    ∀ w, ("parameters", w) ∈ a.recordFields → Parameters.Fits w

private theorem isSome_ofValue?_of_untagged {v : Value} {fields : Fields}
    (hv : v.untagged = .object fields) :
    (ofValue? v).isSome = true ↔
      (fields.required? "rule_id" Value.asText?).isSome = true ∧
      (fields.required? "name" Value.asText?).isSome = true ∧
      (fields.optional? "description" Value.asText?).isSome = true ∧
      (fields.withDefault? "priority" 0 Value.asInt32?).isSome = true ∧
      (fields.required? "condition" Condition.ofValue?).isSome = true ∧
      (fields.required? "action" Action.ofValue?).isSome = true ∧
      (fields.withDefault? "confidence_boost" 0.0 Value.asFloat?).isSome = true ∧
      (fields.withDefault? "active" true Value.asBool?).isSome = true := by
  simp only [Option.isSome_iff_exists]
  constructor
  · rintro ⟨r, hr⟩
    obtain ⟨hid, hname, hdescription, hpriority, hcondition, haction, hboost, hactive⟩ :=
      (ofValue?_eq_some_iff hv).mp hr
    exact ⟨⟨_, hid⟩, ⟨_, hname⟩, ⟨_, hdescription⟩, ⟨_, hpriority⟩, ⟨_, hcondition⟩,
      ⟨_, haction⟩, ⟨_, hboost⟩, ⟨_, hactive⟩⟩
  · rintro ⟨⟨id, hid⟩, ⟨name, hname⟩, ⟨description, hdescription⟩, ⟨priority, hpriority⟩,
      ⟨condition, hcondition⟩, ⟨action, haction⟩, ⟨boost, hboost⟩, ⟨active, hactive⟩⟩
    exact ⟨⟨id, name, description, priority, condition, action, boost, active⟩,
      (ofValue?_eq_some_iff hv).mpr
        ⟨hid, hname, hdescription, hpriority, hcondition, haction, hboost, hactive⟩⟩

/-- Of the rules that the schema accepts, a store reads those whose numbers and truth values fit
their fields and whose condition has what its kind needs. -/
theorem isSome_ofValue?_iff {n : Node} (h : Schema.rule.Accepts n) :
    (ofValue? n.toValue).isSome = true ↔ Fits n.toValue := by
  obtain ⟨hrecord, hfield⟩ := h.fieldOf (Or.inr ⟨"rule_id", by decide, by decide⟩)
  have hid := hfield "rule_id" (by decide +kernel)
  have hname := hfield "name" (by decide +kernel)
  have hdescription := hfield "description" (by decide +kernel)
  have hpriority := hfield "priority" (by decide +kernel)
  have hcondition := hfield "condition" (by decide +kernel)
  have haction := hfield "action" (by decide +kernel)
  have hboost := hfield "confidence_boost" (by decide +kernel)
  have hactive := hfield "active" (by decide +kernel)
  rw [isSome_ofValue?_of_untagged hrecord,
    hpriority.isSome_withDefault? (s := .integer none) (by simp),
    hcondition.isSome_required? (s := .condition) (by simp) _ (by decide),
    hcondition.reads_iff (s := .condition) (by simp) _ fun _ hn ↦ Condition.isSome_ofValue?_iff hn,
    haction.isSome_required? (s := Action.schema) (by simp) _ (by decide),
    haction.reads_iff (s := Action.schema) (by simp)
      (P := fun a ↦ ∀ w, ("parameters", w) ∈ a.recordFields → Parameters.Fits w) _
      fun _ hn ↦ Action.isSome_ofValue?_iff hn,
    hboost.isSome_withDefault? (s := .number (some 0) (some 1)) (by simp),
    hactive.isSome_withDefault? (s := .boolean) (by simp)]
  constructor
  · rintro ⟨-, -, -, hreadsPriority, hfitsCondition, hfitsAction, hreadsBoost, hreadsActive⟩
    exact ⟨hreadsPriority, hreadsBoost, hreadsActive, hfitsCondition, hfitsAction⟩
  · rintro ⟨hreadsPriority, hreadsBoost, hreadsActive, hfitsCondition, hfitsAction⟩
    refine ⟨?_, ?_, ?_, hreadsPriority, hfitsCondition, hfitsAction, hreadsBoost, hreadsActive⟩
    · exact hid.isSome_required?_text (s := .textOf 1 none) (by simp) rfl (by decide)
    · exact hname.isSome_required?_text (s := .textOf 1 none) (by simp) rfl (by decide)
    · exact hdescription.isSome_optional?_text (s := .text) (by simp) rfl

end Rule

end PipingAssembly
