import PipingAssembly.Value.Reading
import PipingAssembly.Yaml.Document

/-!
# What documents give to the fields of a record

A field of a record stands in documents under a path of keys. A reader fills a record in if every
field has the value that the document gives it, or its default where the document gives none.
-/

namespace PipingAssembly

open Value (Fields asOptional?)

/-! ### Paths of keys -/

namespace Value

/-- The value under a path of keys. -/
def at? : List String → Value → Option Value
  | [], v => some v
  | key :: path, v => (v.untagged.get? key).bind (at? path)

theorem at?_singleton (key : String) (v : Value) : v.at? [key] = v.untagged.get? key := by
  rw [at?]
  cases v.untagged.get? key <;> rfl

theorem at?_cons (key : String) (path : List String) (v : Value) :
    v.at? (key :: path) = (v.at? [key]).bind (at? path) := by
  rw [at?_singleton, at?]

theorem at?_singleton_of_asObject? {v : Value} {fields : Fields} (h : v.asObject? = some fields)
    (key : String) : v.at? [key] = find? fields key := by
  rw [asObject?] at h
  rw [at?_singleton]
  split at h
  · next hv =>
    obtain rfl := Option.some.inj h
    rw [hv, get?]
  · next hv =>
    obtain rfl := Option.some.inj h
    rw [hv]
    rfl
  · cases h

section Optional

variable {α : Type} {read : Value → Option α} {v : Value}

/-- Nothing stands below a value that an optional field takes for null. -/
theorem at?_of_asOptional?_eq_none (h : asOptional? read v = some none) {path : List String}
    (hpath : path ≠ []) : v.at? path = none := by
  obtain ⟨key, path, rfl⟩ := List.exists_cons_of_ne_nil hpath
  have hkey : v.untagged.get? key = none := by
    rw [asOptional?.eq_def] at h
    split at h
    · rfl
    · rfl
    · rfl
    · simp at h
  rw [at?, hkey, Option.bind_none]

/-- An optional field that is read as something is read as what its reader gives. -/
theorem eq_of_asOptional? {a : α} (h : asOptional? read v = some (some a)) : read v = some a := by
  rw [asOptional?.eq_def] at h
  split at h
  · cases h
  · split at h
    · cases h
    · simpa using h
  · split at h
    · split at h <;> cases h
    · simpa using h
  · simpa using h

end Optional

section Fields

variable {α : Type} {fields : Fields} {key : String} {read : Value → Option α}

private theorem find?_of_lookup? {o : Option Value} (h : fields.lookup? key = some o) :
    find? fields key = o := by
  rw [Fields.lookup?] at h
  rw [find?, ← List.head?_filter]
  split at h
  · next hnil =>
    rw [hnil]
    exact Option.some.inj h
  · next hone =>
    rw [hone]
    exact Option.some.inj h
  · cases h

/-- A field with a default has the default if it is not there, and else the value that is read. -/
theorem Fields.withDefault?_cases {default a : α}
    (h : fields.withDefault? key default read = some a) :
    (find? fields key = none ∧ a = default) ∨
      ∃ v, find? fields key = some v ∧ read v = some a := by
  rw [Fields.withDefault?] at h
  split at h
  · cases h
  · next hlookup => exact Or.inl ⟨find?_of_lookup? hlookup, (Option.some.inj h).symm⟩
  · next v hlookup => exact Or.inr ⟨v, find?_of_lookup? hlookup, h⟩

/-- An optional field is left out, or what stands there is read as its value or as null. -/
theorem Fields.optional?_cases {o : Option α} (h : fields.optional? key read = some o) :
    (find? fields key = none ∧ o = none) ∨
      ∃ v, find? fields key = some v ∧ asOptional? read v = some o := by
  rw [Fields.optional?] at h
  split at h
  · cases h
  · next hlookup => exact Or.inl ⟨find?_of_lookup? hlookup, (Option.some.inj h).symm⟩
  · next v hlookup => exact Or.inr ⟨v, find?_of_lookup? hlookup, h⟩

end Fields

end Value

/-! ### Values of nodes -/

namespace Yaml.Node

/-- A document has no lists of typed values, so its records have their fields under names. -/
theorem asRecord?_toValue (n : Node) (names : List String) :
    n.toValue.asRecord? names = n.toValue.asObject? := by
  cases n with
  | scalar place tag s isPlain => cases tag <;> cases isPlain <;> rfl
  | sequence place tag items => cases tag <;> rfl
  | mapping place tag entries =>
    rw [toValue]
    cases entryValues entries <;> cases tag <;> rfl

private theorem exists_node_of_mem_entryValues {entries : List (Node × Node)} {fields : Fields}
    (h : entryValues entries = some fields) {key : String} {v : Value} (hv : (key, v) ∈ fields) :
    ∃ m : Node, v = m.toValue := by
  induction entries generalizing fields with
  | nil =>
    rw [entryValues] at h
    obtain rfl := Option.some.inj h
    exact absurd hv List.not_mem_nil
  | cons entry entries ih =>
    obtain ⟨k, m⟩ := entry
    rw [entryValues.eq_def] at h
    dsimp only at h
    split at h
    · next hrest =>
      obtain rfl := Option.some.inj h
      obtain heq | hv := List.mem_cons.mp hv
      · exact ⟨m, (Prod.mk.inj heq).2⟩
      · exact ih hrest hv
    · cases h

/-- What stands under a key of a node is a node. -/
theorem exists_node_of_at? {n : Node} {key : String} {v : Value}
    (h : n.toValue.at? [key] = some v) : ∃ m : Node, v = m.toValue := by
  rw [Value.at?_singleton] at h
  cases n with
  | scalar place tag s isPlain => cases tag <;> cases isPlain <;> cases h
  | sequence place tag items => cases tag <;> cases h
  | mapping place tag entries =>
    rw [toValue] at h
    cases hfields : entryValues entries with
    | none =>
      rw [hfields] at h
      cases tag <;> cases h
    | some fields =>
      rw [hfields] at h
      have hfind : Value.find? fields key = some v := by cases tag <;> exact h
      obtain ⟨⟨k, w⟩, hfound, rfl⟩ := Option.map_eq_some_iff.mp hfind
      exact exists_node_of_mem_entryValues hfields (List.mem_of_find?_eq_some hfound)

end Yaml.Node

/-! ### Fields of records -/

/-- A field of a record: where documents have it, how it is read, and its value in a record. -/
structure RecordField (β α : Type) where
  path : List String
  read : Value → Option α
  value : β → α
  path_ne_nil : path ≠ [] := by simp

namespace RecordField

variable {β γ α : Type}

/-- The value that a document gives to a field. -/
def given? (f : RecordField β α) (v : Value) : Option α := (v.at? f.path).bind f.read

/-- The field of a part of a record, if documents have the part under a key. -/
def within (key : String) (part : γ → β) (f : RecordField β α) : RecordField γ α where
  path := key :: f.path
  read := f.read
  value r := f.value (part r)
  path_ne_nil := List.cons_ne_nil _ _

end RecordField

/-- Fields of a record with values of any types. -/
abbrev RecordFields (β : Type) := List (Σ α, RecordField β α)

/-- The fields of a part of a record, if documents have the part under a key. -/
def RecordFields.within {β γ : Type} (key : String) (part : γ → β) (fields : RecordFields β) :
    RecordFields γ :=
  fields.map fun f ↦ ⟨f.1, f.2.within key part⟩

/-- Whether a reader gives every field the value that the document gives it, or its default. -/
def Fills {β : Type} (read : Value → Option β) (default : β) (fields : RecordFields β) : Prop :=
  ∀ (n : Yaml.Node) (b : β), read n.toValue = some b →
    ∀ f ∈ fields, f.2.value b = (f.2.given? n.toValue).getD (f.2.value default)

section Parts

variable {n : Yaml.Node} {key : String}

/-- A field with a default of a document that is read as a record. -/
theorem eq_getD_of_withDefault? {α : Type} {names : List String} {fields : Fields}
    {read : Value → Option α} {default a : α} (hfields : n.toValue.asRecord? names = some fields)
    (h : fields.withDefault? key default read = some a) :
    a = ((n.toValue.at? [key]).bind read).getD default := by
  rw [n.asRecord?_toValue] at hfields
  rw [Value.at?_singleton_of_asObject? hfields]
  obtain ⟨hnone, rfl⟩ | ⟨v, hv, hread⟩ := Fields.withDefault?_cases h
  · rw [hnone]
    rfl
  · rw [hv, Option.bind_some, hread, Option.getD_some]

variable {β γ : Type} {read : Value → Option β} {fields : RecordFields β} (part : γ → β)
  {default record : γ}

/-- The fields of a part are filled in if the part is what its reader gives, or if nothing is given
below its key and it is the default. -/
theorem Fills.within (h : Fills read (part default) fields)
    (hpart : (part record = part default ∧
        ∀ path, path ≠ [] → n.toValue.at? (key :: path) = none) ∨
      ∃ v, n.toValue.at? [key] = some v ∧ read v = some (part record)) :
    ∀ f ∈ fields.within key part,
      f.2.value record = (f.2.given? n.toValue).getD (f.2.value default) := by
  intro g hg
  obtain ⟨f, hf, rfl⟩ := List.mem_map.mp hg
  show f.2.value (part record) =
    ((n.toValue.at? (key :: f.2.path)).bind f.2.read).getD (f.2.value (part default))
  obtain ⟨hdefault, hnone⟩ | ⟨v, hv, hread⟩ := hpart
  · rw [hnone _ f.2.path_ne_nil, hdefault]
    rfl
  · obtain ⟨m, rfl⟩ := Yaml.Node.exists_node_of_at? hv
    rw [Value.at?_cons, hv, Option.bind_some]
    exact h m _ hread f hf

/-- A part with a default is what its reader gives, or it is not given and has its default. -/
theorem part_of_withDefault? {names : List String} {entries : Fields} {b : β}
    (hentries : n.toValue.asRecord? names = some entries)
    (h : entries.withDefault? key (part default) read = some b) (hpart : part record = b) :
    (part record = part default ∧ ∀ path, path ≠ [] → n.toValue.at? (key :: path) = none) ∨
      ∃ v, n.toValue.at? [key] = some v ∧ read v = some (part record) := by
  subst hpart
  rw [n.asRecord?_toValue] at hentries
  rw [Value.at?_singleton_of_asObject? hentries]
  obtain ⟨hnone, hdefault⟩ | hgiven := Fields.withDefault?_cases h
  · refine Or.inl ⟨hdefault, fun path _ ↦ ?_⟩
    rw [Value.at?_cons, Value.at?_singleton_of_asObject? hentries, hnone, Option.bind_none]
  · exact Or.inr hgiven

end Parts

end PipingAssembly
