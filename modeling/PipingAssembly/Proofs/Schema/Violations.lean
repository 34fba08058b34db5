import PipingAssembly.Proofs.Schema.Acceptance

/-!
# What a schema finds in a value

The violations of a schema by a value that is known: those of a record come from the fields that it
lacks, from those that it has and from those that it may not have, and those of a text or a whole
number from its bounds.
-/

namespace PipingAssembly

open Value (Fields find? canonicalFields optionalField)

/-! ### Canonical fields -/

namespace Value

theorem canonical_text (s : String) : (text s).canonical = .text s := rfl

private theorem eq_or_mem_of_mem_insertBefore {key : String} {v : Value} {fields : Fields}
    {f : String × Value} (h : f ∈ canonicalFields.insertBefore key v fields) :
    f = (key, v) ∨ f ∈ fields := by
  induction fields with
  | nil => exact Or.inl (List.mem_singleton.mp h)
  | cons g fields ih =>
    obtain ⟨k, w⟩ := g
    rw [canonicalFields.insertBefore] at h
    split at h
    · exact Or.inr h
    split at h
    · exact List.mem_cons.mp h
    · obtain rfl | h := List.mem_cons.mp h
      · exact Or.inr List.mem_cons_self
      · exact (ih h).imp_right (List.mem_cons_of_mem _)

/-- Every field in canonical form was given. -/
theorem exists_of_mem_canonicalFields {fields : Fields} {key : String} {w : Value}
    (h : (key, w) ∈ canonicalFields fields) : ∃ v, (key, v) ∈ fields ∧ w = v.canonical := by
  induction fields with
  | nil => cases h
  | cons f fields ih =>
    obtain ⟨k, v⟩ := f
    rw [canonicalFields] at h
    obtain heq | h := eq_or_mem_of_mem_insertBefore h
    · obtain ⟨rfl, rfl⟩ := Prod.mk.inj heq
      exact ⟨v, List.mem_cons_self, rfl⟩
    · obtain ⟨v, hv, hw⟩ := ih h
      exact ⟨v, List.mem_cons_of_mem _ hv, hw⟩

/-- A field that is written only if there is something to write is there in canonical form if it
was written. -/
theorem find?_canonicalFields_optional {α : Type} {write : α → Value} {o : Option α} {key : String}
    {fields : Fields} (h : fields.filter (·.1 == key) = optionalField key write o) :
    find? (canonicalFields fields) key = o.map fun a ↦ (write a).canonical := by
  cases o with
  | none => exact find?_canonicalFields_none h
  | some a => exact find?_canonicalFields_some h

end Value

/-! ### Violations -/

namespace Schema

section Scalars

variable {path : List String} {s : String}

/-- For a value that is no object only its own faults count. -/
private theorem violations_scalar {v : Value} (hv : v.isObject = false) {type : ValueType}
    {options : List String} {minLength maxLength : Option Nat} {minimum maximum : Option Int} :
    (Schema.of type options minLength maxLength minimum maximum [] [] .allowed).violations path v =
      (v.scalarFaults type options minLength maxLength minimum maximum).map (⟨path, ·⟩) := by
  rw [violations, hv, propertyViolations, furtherViolations]
  simp

theorem violations_text : text.violations path (.text s) = [] := by
  rw [text, violations_scalar rfl]
  simp [Value.scalarFaults, Value.hasType, Value.magnitude?]

theorem violations_textOf (hs : s ≠ "") (most : Option Nat) :
    (textOf 1 most).violations path (.text s) =
      (most.filter (· < s.length)).toList.map (⟨path, .tooLong s ·⟩) := by
  have hlength : ¬s.length < 1 := by
    rw [Nat.lt_one_iff, String.length_eq_zero_iff]
    exact hs
  rw [textOf, violations_scalar rfl]
  simp [Value.scalarFaults, Value.hasType, Value.magnitude?, Option.filter_some, hlength]

theorem violations_oneOf {options : List String} (hs : s ∈ options) :
    (oneOf options).violations path (.text s) = [] := by
  rw [oneOf, violations_scalar rfl]
  simp [Value.scalarFaults, Value.hasType, Value.magnitude?, hs]

theorem violations_integer (n least : Int) :
    (integer (some least)).violations path (.int n) =
      if n < least then [⟨path, .tooSmall least⟩] else [] := by
  rw [integer, violations_scalar rfl]
  by_cases h : n < least <;>
    simp [Value.scalarFaults, Value.hasType, Value.magnitude?, Magnitude.isBelow,
      Option.filter_some, h]

end Scalars

section Objects

variable {path : List String} {fields : Fields}

theorem violations_record (required : List String) (properties : List (String × Schema))
    (further : Further) :
    (record required properties further).violations path (.object fields) =
      (required.filter fun r ↦ (find? fields r).isNone).map (⟨path, .missing ·⟩) ++
        propertyViolations path fields properties ++
        furtherViolations path (fields.filter fun f ↦ !properties.any (·.1 == f.1)) further := by
  rw [record, violations]
  simp [Value.scalarFaults, Value.hasType, Value.magnitude?, Value.fieldList, Value.isObject]

theorem propertyViolations_cons (key : String) (schema : Schema)
    (rest : List (String × Schema)) :
    propertyViolations path fields ((key, schema) :: rest) =
      (find? fields key).toList.flatMap (schema.violations (path ++ [key])) ++
        propertyViolations path fields rest := by
  rw [propertyViolations]
  cases find? fields key <;> simp

end Objects

end Schema

end PipingAssembly
