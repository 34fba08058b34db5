import PipingAssembly.Proofs.Json.Values
import PipingAssembly.Value.Reading

/-!
# Fields of records in JSON texts

Reading a field of a record that comes back from its text is reading what the field alone comes back
as. So a record survives its text exactly if each of its fields does.
-/

namespace PipingAssembly.Json

open Value (Fields optionalField asOptional?)

/-- Reading a value back from its text and taking it for one of a type gives `a`. -/
def Survives {α : Type} (read : Value → Option α) (v : Value) (a : α) : Prop :=
  (readBack? v).bind read = some a

/-- What the text of a value has: a type. -/
def Typed : Value → Prop
  | .plain _ => False
  | .tagged _ _ => False
  | _ => True

theorem typed_of_readBack? {v w : Value} (hv : Typed v) (h : readBack? v = some w) : Typed w := by
  cases v with
  | real x =>
    obtain rfl | ⟨n, rfl⟩ | ⟨y, rfl⟩ := read?_realText_cases h
    · trivial
    · trivial
    · trivial
  | list items =>
    obtain ⟨ws, -, rfl⟩ := Option.map_eq_some_iff.mp h
    trivial
  | object fields =>
    obtain ⟨ws, -, rfl⟩ := Option.map_eq_some_iff.mp h
    trivial
  | plain s => exact hv.elim
  | tagged tag v => exact hv.elim
  | null | bool | int | text | openList | keyedByNodes =>
    cases h
    trivial

/-- A typed value that is not null is read by an optional reader as by the reader itself. -/
theorem asOptional?_eq_some_some {α : Type} {read : Value → Option α} (hnull : read .null = none)
    {v : Value} (hv : Typed v) {a : α} : asOptional? read v = some (some a) ↔ read v = some a := by
  cases v with
  | null =>
    rw [hnull]
    exact ⟨nofun, nofun⟩
  | plain s => exact hv.elim
  | tagged tag v => exact hv.elim
  | bool | int | real | text | list | openList | object | keyedByNodes =>
    rw [asOptional?]
    · simp
    all_goals exact nofun

/-- An object survives if its fields come back and are read as the record. -/
theorem survives_object {α : Type} {read : Value → Option α} {fields : Fields} {a : α} :
    Survives read (.object fields) a ↔
      ∃ back, fieldsReadBack? fields = some back ∧ read (.object back) = some a := by
  rw [Survives, readBack?, Option.bind_eq_some_iff]
  constructor
  · rintro ⟨_, hv, hread⟩
    obtain ⟨back, hback, rfl⟩ := Option.map_eq_some_iff.mp hv
    exact ⟨back, hback, hread⟩
  · rintro ⟨back, hback, hread⟩
    exact ⟨_, Option.map_eq_some_iff.mpr ⟨back, hback, rfl⟩, hread⟩

theorem Survives.isSome {α : Type} {read : Value → Option α} {v : Value} {a : α}
    (h : Survives read v a) : (readBack? v).isSome = true := by
  obtain ⟨w, hw, -⟩ := Option.bind_eq_some_iff.mp h
  rw [hw]
  rfl

/-! ### Several fields -/

theorem fieldsReadable_iff {depth : Nat} {fields : Fields} :
    FieldsReadable depth fields ↔ ∀ f ∈ fields, Readable depth f.2 := by
  induction fields with
  | nil => simp [FieldsReadable]
  | cons f fields ih => rw [FieldsReadable, List.forall_mem_cons, ih]

/-- Fields can be read back exactly if the value of each of them can. -/
theorem isSome_fieldsReadBack? {fields : Fields} :
    (fieldsReadBack? fields).isSome = true ↔ ∀ f ∈ fields, (readBack? f.2).isSome = true := by
  induction fields with
  | nil => simp [fieldsReadBack?]
  | cons f fields ih =>
    rw [fieldsReadBack?, List.forall_mem_cons, ← ih]
    cases readBack? f.2 with
    | none => simp
    | some w => simp

/-- The fields with a key read back as the fields with that key among those that were read back. -/
theorem fieldsReadBack?_filter {fields back : Fields} (h : fieldsReadBack? fields = some back)
    (key : String) :
    fieldsReadBack? (fields.filter (·.1 == key)) = some (back.filter (·.1 == key)) := by
  induction fields generalizing back with
  | nil =>
    cases h
    rfl
  | cons f fields ih =>
    obtain ⟨k, v⟩ := f
    rw [fieldsReadBack?] at h
    obtain ⟨w, hw, h⟩ := Option.bind_eq_some_iff.mp h
    obtain ⟨back', hback', rfl⟩ := Option.map_eq_some_iff.mp h
    rw [List.filter_cons, List.filter_cons]
    split
    · rw [fieldsReadBack?, hw, ih hback']
      rfl
    · exact ih hback'

section Lookup

variable {α : Type} {fields back : Fields} (h : fieldsReadBack? fields = some back) {key : String}
include h

private theorem lookup?_of_filter {v : Value} (hkey : fields.filter (·.1 == key) = [(key, v)]) :
    ∃ w, readBack? v = some w ∧ back.lookup? key = some (some w) := by
  have hback := fieldsReadBack?_filter h key
  rw [hkey, fieldsReadBack?] at hback
  obtain ⟨w, hw, hmap⟩ := Option.bind_eq_some_iff.mp hback
  refine ⟨w, hw, ?_⟩
  rw [Fields.lookup?, ← Option.some.inj hmap]

/-- A field that is there is read as what survives of it. -/
theorem required?_eq_some_iff {v : Value} (hkey : fields.filter (·.1 == key) = [(key, v)])
    {read : Value → Option α} {a : α} : back.required? key read = some a ↔ Survives read v a := by
  obtain ⟨w, hw, hlookup⟩ := lookup?_of_filter h hkey
  rw [Fields.required?, hlookup, Survives, hw]
  rfl

/-- A field that is there is read as what survives of it, also if it has a default. -/
theorem withDefault?_eq_some_iff {v : Value} (hkey : fields.filter (·.1 == key) = [(key, v)])
    {default : α} {read : Value → Option α} {a : α} :
    back.withDefault? key default read = some a ↔ Survives read v a := by
  obtain ⟨w, hw, hlookup⟩ := lookup?_of_filter h hkey
  rw [Fields.withDefault?, hlookup, Survives, hw]
  rfl

theorem lookup?_of_filter_nil (hkey : fields.filter (·.1 == key) = []) :
    back.lookup? key = some none := by
  have hback := fieldsReadBack?_filter h key
  rw [hkey, fieldsReadBack?] at hback
  rw [Fields.lookup?, ← Option.some.inj hback]

/-- A field that is written only if there is something to write is read as what survives of it. -/
theorem optional?_eq_some_iff {write : α → Value} {o : Option α}
    (hkey : fields.filter (·.1 == key) = optionalField key write o) {read : Value → Option α}
    (hnull : read .null = none) (htyped : ∀ a, Typed (write a)) :
    back.optional? key read = some o ↔ ∀ a ∈ o, Survives read (write a) a := by
  cases o with
  | none =>
    rw [Fields.optional?, lookup?_of_filter_nil h hkey]
    exact ⟨fun _ ↦ nofun, fun _ ↦ rfl⟩
  | some a =>
    obtain ⟨w, hw, hlookup⟩ := lookup?_of_filter h hkey
    have hsurvives : Survives read (write a) a ↔ read w = some a := by
      rw [Survives, hw]
      rfl
    simp only [Fields.optional?, hlookup, Option.mem_some, forall_eq', hsurvives]
    exact asOptional?_eq_some_some hnull (typed_of_readBack? (htyped a) hw)

end Lookup

theorem forall_mem_optionalField {α : Type} {key : String} {write : α → Value} {o : Option α}
    {P : String × Value → Prop} :
    (∀ f ∈ optionalField key write o, P f) ↔ ∀ a ∈ o, P (key, write a) := by
  cases o with
  | none => simp [optionalField]
  | some a => simp [optionalField]

theorem filter_optionalField {α : Type} (key key' : String) (write : α → Value) (o : Option α) :
    (optionalField key' write o).filter (·.1 == key) =
      if key' = key then optionalField key' write o else [] := by
  cases o with
  | none => simp [optionalField]
  | some a => simp [optionalField, List.filter_cons]

end PipingAssembly.Json
