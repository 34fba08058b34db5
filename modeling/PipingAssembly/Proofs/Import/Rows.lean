import PipingAssembly.Import.Row
import PipingAssembly.Proofs.Results
import PipingAssembly.Proofs.Yaml.Records

/-!
# Parts of rows

The texts of a part that is read from a row are not empty and have no white space at their ends. So
the document that is written for the part is read back as the part.
-/

namespace PipingAssembly

/-! ### Trimmed texts -/

namespace Text

private theorem head?_dropWhile_eq_false {p : Char → Bool} {cs : List Char} {c : Char}
    (h : (cs.dropWhile p).head? = some c) : p c = false := by
  have hhead := List.head?_dropWhile_not p cs
  rw [h] at hhead
  exact hhead

variable {s : String} {c : Char}

/-- No white space begins a trimmed text. -/
theorem isBlank_of_head?_trim (h : (trim s).toList.head? = some c) : isBlank c = false := by
  let ds := s.toList.dropWhile isBlank
  have hprefix : dropEndWhile isBlank ds <+: ds := by
    rw [dropEndWhile, ← List.reverse_suffix, List.reverse_reverse]
    exact List.dropWhile_suffix isBlank
  rw [trim, String.toList_ofList] at h
  obtain ⟨cs, hcs⟩ := List.head?_eq_some_iff.mp h
  obtain ⟨rest, hrest⟩ := hprefix
  rw [hcs] at hrest
  exact head?_dropWhile_eq_false (List.head?_eq_some_iff.mpr ⟨cs ++ rest, hrest.symm⟩)

/-- No white space ends a trimmed text. -/
theorem isBlank_of_getLast?_trim (h : (trim s).toList.getLast? = some c) :
    isBlank c = false := by
  rw [trim, String.toList_ofList, dropEndWhile, List.getLast?_reverse] at h
  exact head?_dropWhile_eq_false h

end Text

open Yaml (IsTree AreTrees IsFieldKey IsTrimmed areTrees_iff)

theorem isTrimmed_trim (s : String) : IsTrimmed (Text.trim s) where
  blank h := absurd (Text.isBlank_of_head?_trim h) (by decide)
  first h := absurd (Text.isBlank_of_head?_trim h) (by decide)
  last h := absurd (Text.isBlank_of_getLast?_trim h) (by decide)

/-! ### Texts of rows -/

/-- Whether a text is what a row may say: it is not empty and has no white space at its ends. -/
def IsRowText (s : String) : Prop := s ≠ "" ∧ IsTrimmed s

theorem isRowText_of_field? {columns : Columns} {fields : List String} {name s : String}
    (h : columns.field? fields name = some s) : IsRowText s := by
  obtain ⟨hs, hne⟩ := Option.filter_eq_some_iff.mp h
  obtain ⟨t, -, rfl⟩ := Option.map_eq_some_iff.mp hs
  exact ⟨bne_iff_ne.mp hne, isTrimmed_trim t⟩

/-- Whether a part has only texts that a row may say, and metadata and a model as a row gives
them. -/
structure Part.IsOfRow (q : Part) : Prop where
  id : IsRowText q.id
  name : ∀ s ∈ q.name, IsRowText s
  endType : ∀ s ∈ q.endType, IsRowText s
  faceType : ∀ s ∈ q.faceType, IsRowText s
  metadata : q.metadata = [] ∨ ∃ s, IsRowText s ∧ q.metadata = [("thread", s)]
  modelPath : q.modelPath = none

/-- A part that is read from a row has texts of a row. -/
theorem Part.isOfRow {columns : Columns} {r : Delimited.Record} {q : Part}
    (h : partOfRecord columns r = .ok q) : q.IsOfRow := by
  obtain ⟨fields, -, h⟩ := bind_eq_ok_iff.mp h
  rw [partOfFields] at h
  cases hid : columns.field? fields "part_id" with
  | none =>
    rw [hid] at h
    cases h
  | some id =>
    rw [hid] at h
    obtain ⟨family, -, h⟩ := bind_eq_ok_iff.mp h
    obtain ⟨dn, -, h⟩ := bind_eq_ok_iff.mp h
    obtain ⟨pn, -, h⟩ := bind_eq_ok_iff.mp h
    cases h
    refine ⟨isRowText_of_field? hid, fun s hs ↦ isRowText_of_field? hs,
      fun s hs ↦ isRowText_of_field? hs, fun s hs ↦ isRowText_of_field? hs, ?_, rfl⟩
    cases hthread : columns.field? fields "thread" with
    | none => exact Or.inl rfl
    | some s => exact Or.inr ⟨s, isRowText_of_field? hthread, rfl⟩

/-! ### Documents of rows -/

private theorem isFieldKey_part : ∀ key ∈ ["part_id", "name", "family", "dn", "pn", "end_type",
    "face_type", "metadata", "thread"], IsFieldKey key := by
  decide

theorem Part.areTrees_toFields {q : Part} (h : q.IsOfRow) : AreTrees q.toFields := by
  have hkey := isFieldKey_part
  simp only [List.forall_mem_cons] at hkey
  obtain ⟨hid, hname, hfamily, hdn, hpn, hend, hface, hmetadata, hthread, -⟩ := hkey
  have hfamilyName : IsTrimmed q.family.name := by
    cases q.family <;> exact ⟨by decide, by decide, by decide⟩
  rw [areTrees_iff, toFields]
  simp only [List.forall_mem_append, List.forall_mem_singleton, Json.forall_mem_optionalField,
    forall_mem_ite_nil]
  refine ⟨⟨⟨⟨⟨⟨⟨⟨⟨hid, h.id.2⟩, fun s hs ↦ ⟨hname, (h.name s hs).2⟩⟩, hfamily, hfamilyName⟩,
    fun n _ ↦ ⟨hdn, Int.natCast_nonneg _⟩⟩, fun n _ ↦ ⟨hpn, Int.natCast_nonneg _⟩⟩,
    fun s hs ↦ ⟨hend, (h.endType s hs).2⟩⟩, fun s hs ↦ ⟨hface, (h.faceType s hs).2⟩⟩,
    fun hne ↦ ⟨hmetadata, ?_⟩⟩, fun s hs ↦ absurd (h.modelPath.symm.trans hs) (by simp)⟩
  obtain hnil | ⟨s, hs, heq⟩ := h.metadata
  · exact absurd hnil hne
  · rw [heq]
    exact ⟨List.cons_ne_nil _ _, hthread, hs.2, trivial⟩

/-- The document that is written for a part of a row is read back as the part. -/
theorem Part.readRecord?_render {q : Part} (h : q.IsOfRow) :
    (Yaml.readRecord? (Yaml.render q.toValue)).bind Part.ofValue? = some q := by
  have htrees := Part.areTrees_toFields h
  have hkeys : KeysRise q.metadata := by
    obtain hnil | ⟨s, -, heq⟩ := h.metadata
    · rw [hnil]
      exact List.Pairwise.nil
    · rw [heq]
      exact List.pairwise_singleton _ _
  have hne : q.toFields ≠ [] := by simp [toFields]
  rw [toValue, Yaml.readRecord?_render hne htrees]
  exact Part.ofValue?_reopened htrees (Part.ofValue?_toValue hkeys)

end PipingAssembly
