import PipingAssembly.Proofs.Value.Given
import PipingAssembly.Workspace.Basic

/-!
# Layers of configuration

What variables choose goes before the project's file, this before the user's file, and this before
the defaults. The policy is one choice: a project's file that has one gives every value of it, with
defaults for those that it does not name, and the user's file gives none.
-/

namespace PipingAssembly

open Value (Fields asOptional?)

/-! ### Values of a policy -/

/-- The fields of the solver's numbers. -/
def SolverPolicy.fields : RecordFields (SolverPolicy Float) := [
  ⟨_, ["default_distance"], Value.asFloat?, defaultDistance, by simp⟩,
  ⟨_, ["screw_lateral_offset"], Value.asFloat?, screwLateralOffset, by simp⟩,
  ⟨_, ["thread_pitch"], Value.asFloat?, threadPitch, by simp⟩,
  ⟨_, ["default_revolutions"], Value.asFloat?, defaultRevolutions, by simp⟩,
  ⟨_, ["passes_per_part"], Value.asUInt64?, passesPerPart, by simp⟩,
  ⟨_, ["grid_columns"], Value.asUInt64?, gridColumns, by simp⟩,
  ⟨_, ["grid_spacing"], Value.asFloat?, gridSpacing, by simp⟩,
  ⟨_, ["default_extent"], Value.asFloat?, defaultExtent, by simp⟩,
  ⟨_, ["dimensions"], Dimensions.tableOfValue?, dimensions, by simp⟩]

/-- The fields of the numbers for fasteners. -/
def FastenerPolicy.fields : RecordFields (FastenerPolicy Float) := [
  ⟨_, ["bolt_circle_factor"], Value.asFloat?, boltCircleFactor, by simp⟩,
  ⟨_, ["default_bolt_count"], Value.asUInt32?, defaultBoltCount, by simp⟩,
  ⟨_, ["default_bolt_spec"], Value.asText?, defaultBoltSpec, by simp⟩,
  ⟨_, ["default_dn"], Value.asUInt32?, defaultDn, by simp⟩,
  ⟨_, ["bolt_standoff"], Value.asFloat?, boltStandoff, by simp⟩,
  ⟨_, ["gasket_offset"], Value.asFloat?, gasketOffset, by simp⟩]

/-- The fields of the numbers for matching. -/
def MatchPolicy.fields : RecordFields (MatchPolicy Float) := [
  ⟨_, ["base_confidence"], Value.asFloat?, baseConfidence, by simp⟩,
  ⟨_, ["sequential_confidence"], Value.asFloat?, sequentialConfidence, by simp⟩]

/-- All values of a policy. -/
def Policy.fields : RecordFields Policy :=
  SolverPolicy.fields.within "solver" Policy.solver ++
    FastenerPolicy.fields.within "fasteners" Policy.fasteners ++
    MatchPolicy.fields.within "matching" Policy.matching

theorem SolverPolicy.fills : Fills SolverPolicy.ofValue? .default SolverPolicy.fields := by
  intro n p h
  simp only [ofValue?, Option.bind_eq_bind, Option.bind_eq_some_iff, Option.some.injEq] at h
  obtain ⟨entries, hentries, _, h₁, _, h₂, _, h₃, _, h₄, _, h₅, _, h₆, _, h₇, _, h₈, _, h₉, rfl⟩ :=
    h
  simp only [fields, List.forall_mem_cons]
  exact ⟨eq_getD_of_withDefault? hentries h₁, eq_getD_of_withDefault? hentries h₂,
    eq_getD_of_withDefault? hentries h₃, eq_getD_of_withDefault? hentries h₄,
    eq_getD_of_withDefault? hentries h₅, eq_getD_of_withDefault? hentries h₆,
    eq_getD_of_withDefault? hentries h₇, eq_getD_of_withDefault? hentries h₈,
    eq_getD_of_withDefault? hentries h₉, nofun⟩

theorem FastenerPolicy.fills : Fills FastenerPolicy.ofValue? .default FastenerPolicy.fields := by
  intro n p h
  simp only [ofValue?, Option.bind_eq_bind, Option.bind_eq_some_iff, Option.some.injEq] at h
  obtain ⟨entries, hentries, _, h₁, _, h₂, _, h₃, _, h₄, _, h₅, _, h₆, rfl⟩ := h
  simp only [fields, List.forall_mem_cons]
  exact ⟨eq_getD_of_withDefault? hentries h₁, eq_getD_of_withDefault? hentries h₂,
    eq_getD_of_withDefault? hentries h₃, eq_getD_of_withDefault? hentries h₄,
    eq_getD_of_withDefault? hentries h₅, eq_getD_of_withDefault? hentries h₆, nofun⟩

theorem MatchPolicy.fills : Fills MatchPolicy.ofValue? .default MatchPolicy.fields := by
  intro n p h
  simp only [ofValue?, Option.bind_eq_bind, Option.bind_eq_some_iff, Option.some.injEq] at h
  obtain ⟨entries, hentries, _, h₁, _, h₂, rfl⟩ := h
  simp only [fields, List.forall_mem_cons]
  exact ⟨eq_getD_of_withDefault? hentries h₁, eq_getD_of_withDefault? hentries h₂, nofun⟩

theorem Policy.fills : Fills Policy.ofValue? {} Policy.fields := by
  intro n p h
  simp only [ofValue?, Option.bind_eq_bind, Option.bind_eq_some_iff, Option.some.injEq] at h
  obtain ⟨entries, hentries, solver, hsolver, fasteners, hfasteners, matching, hmatching, rfl⟩ := h
  simp only [fields, List.forall_mem_append]
  refine ⟨⟨?_, ?_⟩, ?_⟩
  · exact SolverPolicy.fills.within Policy.solver
      (part_of_withDefault? Policy.solver hentries hsolver rfl)
  · exact FastenerPolicy.fills.within Policy.fasteners
      (part_of_withDefault? Policy.fasteners hentries hfasteners rfl)
  · exact MatchPolicy.fills.within Policy.matching
      (part_of_withDefault? Policy.matching hentries hmatching rfl)

/-- These are all values of a policy. -/
theorem Policy.ext_fields {p q : Policy} (h : ∀ f ∈ Policy.fields, f.2.value p = f.2.value q) :
    p = q := by
  obtain ⟨⟨_, _, _, _, _, _, _, _, _⟩, ⟨_, _, _, _, _, _⟩, ⟨_, _⟩⟩ := p
  obtain ⟨⟨_, _, _, _, _, _, _, _, _⟩, ⟨_, _, _, _, _, _⟩, ⟨_, _⟩⟩ := q
  simp only [fields, RecordFields.within, SolverPolicy.fields, FastenerPolicy.fields,
    MatchPolicy.fields, List.map_cons, List.map_nil, List.cons_append, List.nil_append,
    List.forall_mem_cons, RecordField.within] at h
  simpa [and_assoc] using h

/-! ### Configuration files -/

namespace Config

/-- The document in a configuration file; one with nothing but comments has no fields. -/
def document? (bs : List UInt8) : Option Value := do
  let content ← Text.decode? bs
  if isBlankDocument content then some (.object []) else Yaml.readRecord? content

theorem ofBytes?_eq_bind_document? (bs : List UInt8) :
    ofBytes? bs = (document? bs).bind ofValue? := by
  rw [ofBytes?, document?]
  cases Text.decode? bs with
  | none => rfl
  | some content =>
    rw [Option.bind_eq_bind, Option.bind_eq_bind, Option.bind_some, Option.bind_some]
    split
    · rfl
    · rfl

/-- A configuration that is read from a file is read from the node of a document. -/
theorem exists_node_of_ofBytes? {bs : List UInt8} {c : Config} (h : ofBytes? bs = some c) :
    ∃ n : Yaml.Node, document? bs = some n.toValue ∧ ofValue? n.toValue = some c := by
  rw [ofBytes?_eq_bind_document?] at h
  obtain ⟨v, hv, hc⟩ := Option.bind_eq_some_iff.mp h
  suffices hnode : ∃ n : Yaml.Node, v = n.toValue by
    obtain ⟨n, rfl⟩ := hnode
    exact ⟨n, hv, hc⟩
  obtain ⟨content, -, hcontent⟩ := Option.bind_eq_some_iff.mp hv
  split at hcontent
  · exact ⟨.mapping ⟨0, 0⟩ none [], (Option.some.inj hcontent).symm⟩
  · obtain ⟨n, -, hn⟩ := Option.map_eq_some_iff.mp hcontent
    exact ⟨_, hn.symm⟩

/-- What a configuration file chooses under a key; null chooses nothing. -/
def chosen? {α : Type} (key : String) (read : Value → Option α) (bs : List UInt8) : Option α :=
  ((document? bs).bind (·.at? [key])).bind fun v ↦ (asOptional? read v).join

/-- The values of the policy that a configuration has in effect. -/
def policyFields : RecordFields Config := Policy.fields.within "policy" effectivePolicy

/-- The value that a configuration file gives to a field. -/
def givenIn? {α : Type} (f : RecordField Config α) (bs : List UInt8) : Option α :=
  (document? bs).bind f.given?

section File

variable {bs : List UInt8} {c : Config} (h : ofBytes? bs = some c)
include h

/-- A configuration has what its file chooses. -/
theorem eq_chosen? :
    c.store = chosen? "store" (fun v ↦ v.asCase?.bind StoreBackend.ofName?) bs ∧
    c.meshDir = chosen? "mesh_dir" Value.asText? bs ∧
    c.defaultFormat = chosen? "default_format" Value.asText? bs ∧
    c.policy = chosen? "policy" Policy.ofValue? bs := by
  obtain ⟨n, hn, hc⟩ := exists_node_of_ofBytes? h
  simp only [ofValue?, Option.bind_eq_bind, Option.bind_eq_some_iff, Option.some.injEq] at hc
  obtain ⟨fields, hfields, _, hstore, _, hmesh, _, hformat, _, hpolicy, rfl⟩ := hc
  have hchosen : ∀ {α : Type} {key : String} {read : Value → Option α} {o : Option α},
      fields.optional? key read = some o → o = chosen? key read bs := by
    intro α key read o ho
    rw [chosen?, hn, Option.bind_some, Value.at?_singleton_of_asObject? hfields]
    obtain ⟨hnone, rfl⟩ | ⟨v, hv, hread⟩ := Fields.optional?_cases ho
    · rw [hnone, Option.bind_none]
    · rw [hv, Option.bind_some, hread, Option.join_some]
  exact ⟨hchosen hstore, hchosen hmesh, hchosen hformat, hchosen hpolicy⟩

/-- A file either chooses no policy and has nothing below its key, or it has one there. -/
private theorem policy_cases : ∃ n : Yaml.Node, document? bs = some n.toValue ∧
    ((c.policy = none ∧ ∀ path, path ≠ [] → n.toValue.at? ("policy" :: path) = none) ∨
      ∃ v p, n.toValue.at? ["policy"] = some v ∧ Policy.ofValue? v = some p ∧
        c.policy = some p) := by
  obtain ⟨n, hn, hc⟩ := exists_node_of_ofBytes? h
  simp only [ofValue?, Option.bind_eq_bind, Option.bind_eq_some_iff, Option.some.injEq] at hc
  obtain ⟨fields, hfields, _, -, _, -, _, -, policy, hpolicy, rfl⟩ := hc
  have hat := Value.at?_singleton_of_asObject? hfields "policy"
  refine ⟨n, hn, ?_⟩
  obtain ⟨hnone, rfl⟩ | ⟨v, hv, hread⟩ := Fields.optional?_cases hpolicy
  · refine Or.inl ⟨rfl, fun path _ ↦ ?_⟩
    rw [Value.at?_cons, hat, hnone, Option.bind_none]
  · cases policy with
    | none =>
      refine Or.inl ⟨rfl, fun path hpath ↦ ?_⟩
      rw [Value.at?_cons, hat, hv, Option.bind_some, Value.at?_of_asOptional?_eq_none hread hpath]
    | some p => exact Or.inr ⟨v, p, hat.trans hv, Value.eq_of_asOptional? hread, rfl⟩

/-- The policy in effect by a file alone has the values that the file gives, or defaults. -/
theorem value_eq_givenIn? :
    ∀ f ∈ policyFields, f.2.value c = (givenIn? f.2 bs).getD (f.2.value {}) := by
  obtain ⟨n, hn, hcases⟩ := policy_cases h
  intro f hf
  rw [givenIn?, hn, Option.bind_some]
  refine Policy.fills.within effectivePolicy ?_ f hf
  obtain ⟨hnone, hbelow⟩ | ⟨v, p, hv, hread, hsome⟩ := hcases
  · exact Or.inl ⟨by rw [effectivePolicy, hnone]; rfl, hbelow⟩
  · exact Or.inr ⟨v, hv, by rw [effectivePolicy, hsome, hread]; rfl⟩

/-- A file without a policy gives no value of it. -/
theorem givenIn?_eq_none (hpolicy : c.policy = none) :
    ∀ f ∈ policyFields, givenIn? f.2 bs = none := by
  obtain ⟨n, hn, ⟨-, hbelow⟩ | ⟨_, _, -, -, hsome⟩⟩ := policy_cases h
  · intro f hf
    obtain ⟨g, -, rfl⟩ := List.mem_map.mp hf
    rw [givenIn?, hn, Option.bind_some, RecordField.given?]
    exact congrArg (·.bind g.2.read) (hbelow _ g.2.path_ne_nil)
  · rw [hpolicy] at hsome
    cases hsome

end File

/-- The values of the policy are those of the policy in effect. -/
private theorem value_congr {f : Σ α, RecordField Config α} (hf : f ∈ policyFields) {c c' : Config}
    (h : c.effectivePolicy = c'.effectivePolicy) : f.2.value c = f.2.value c' := by
  obtain ⟨g, -, rfl⟩ := List.mem_map.mp hf
  exact congrArg g.2.value h

/-- In effect is what variables choose, else what the project's file chooses, else what the user's
file chooses, else the default. The policy is one such choice. So each value of it goes by the two
files in this order unless the project's file has a policy that leaves the value open and the user's
file gives it another value than the default. -/
theorem effective_layered {settings : Settings} {user project : List UInt8}
    (hfile : settings.globalConfig = some user) (huser : (ofBytes? user).isSome = true)
    (hproject : (ofBytes? project).isSome = true) :
    let c := layered settings (some project)
    let storeIn? := chosen? "store" fun v ↦ v.asCase?.bind StoreBackend.ofName?
    c.effectiveStore = ((settings.store.bind StoreBackend.parse?).or
      ((storeIn? project).or (storeIn? user))).getD .files ∧
    c.meshDir = settings.meshDir.or
      ((chosen? "mesh_dir" Value.asText? project).or (chosen? "mesh_dir" Value.asText? user)) ∧
    c.defaultFormat = (chosen? "default_format" Value.asText? project).or
      (chosen? "default_format" Value.asText? user) ∧
    ∀ f ∈ policyFields,
      f.2.value c = (if (chosen? "policy" Policy.ofValue? project).isSome
        then givenIn? f.2 project else givenIn? f.2 user).getD (f.2.value {}) ∧
      (f.2.value c = ((givenIn? f.2 project).or (givenIn? f.2 user)).getD (f.2.value {}) ↔
        ((chosen? "policy" Policy.ofValue? project).isSome = true → givenIn? f.2 project = none →
          ∀ a ∈ givenIn? f.2 user, a = f.2.value {})) := by
  obtain ⟨cu, hu⟩ := Option.isSome_iff_exists.mp huser
  obtain ⟨cp, hp⟩ := Option.isSome_iff_exists.mp hproject
  have hlayered : layered settings (some project) = (cu.merge cp).merge (ofSettings settings) := by
    rw [layered, hfile, Option.bind_some, Option.bind_some, hu, hp, Option.getD_some,
      Option.getD_some]
  obtain ⟨hustore, humesh, huformat, hupolicy⟩ := eq_chosen? hu
  obtain ⟨hpstore, hpmesh, hpformat, hppolicy⟩ := eq_chosen? hp
  dsimp only
  rw [hlayered, ← hustore, ← humesh, ← huformat, ← hpstore, ← hpmesh, ← hpformat, ← hppolicy]
  refine ⟨rfl, rfl, rfl, fun f hf ↦ ?_⟩
  cases hpolicy : cp.policy with
  | none =>
    have heffective : ((cu.merge cp).merge (ofSettings settings)).effectivePolicy =
        cu.effectivePolicy := by
      simp [effectivePolicy, merge, ofSettings, hpolicy]
    rw [value_congr hf heffective, value_eq_givenIn? hu f hf, givenIn?_eq_none hp hpolicy f hf]
    simp
  | some p =>
    have heffective : ((cu.merge cp).merge (ofSettings settings)).effectivePolicy =
        cp.effectivePolicy := by
      simp [effectivePolicy, merge, ofSettings, hpolicy]
    rw [value_congr hf heffective, value_eq_givenIn? hp f hf]
    refine ⟨rfl, ?_⟩
    cases givenIn? f.2 project with
    | some a => simp
    | none => cases givenIn? f.2 user <;> simp [eq_comm]

private def userFile : List UInt8 := Text.encode "policy:\n  solver:\n    grid_columns: 7\n"

private def projectFile : List UInt8 :=
  Text.encode "policy:\n  fasteners:\n    default_bolt_count: 8\n"

private def columns : RecordField Config UInt64 where
  path := ["policy", "solver", "grid_columns"]
  read := Value.asUInt64?
  value c := c.effectivePolicy.solver.gridColumns

/-- The user's number of columns is lost when the project's file gives a number of bolts. -/
theorem effective_layered_columns :
    givenIn? columns userFile = some 7 ∧ givenIn? columns projectFile = none ∧
      columns.value (layered { globalConfig := some userFile } (some projectFile)) = 5 := by
  have huser : (ofBytes? userFile).isSome = true := by decide +kernel
  have hproject : (ofBytes? projectFile).isSome = true := by decide +kernel
  have hpolicy : (chosen? "policy" Policy.ofValue? projectFile).isSome = true := by decide +kernel
  have hnone : givenIn? columns projectFile = none := by decide +kernel
  have hcolumns : ⟨_, columns⟩ ∈ policyFields := by
    simp [policyFields, Policy.fields, SolverPolicy.fields, RecordFields.within,
      RecordField.within, columns]
  have hlayers := @effective_layered { globalConfig := some userFile } _ _ rfl huser hproject
  have hvalue := (hlayers.2.2.2 _ hcolumns).1
  rw [hpolicy, if_pos rfl, hnone] at hvalue
  exact ⟨by decide +kernel, hnone, hvalue⟩

end Config

end PipingAssembly
