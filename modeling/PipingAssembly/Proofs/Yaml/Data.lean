import PipingAssembly.Proofs.Yaml.Readings
import PipingAssembly.Proofs.Yaml.Records

/-!
# Trees read as general data

As general data every scalar has the type of its spelling. What a tree has without quotes is spelled
as the text or the number that it stands for, so the tree comes back as it was, as long as it has no
key twice, no number past 64 bits and not too many levels.
-/

namespace PipingAssembly

/-! ### Scalars -/

namespace Plain

/-- A numeral is no truth value. -/
private theorem bool?_natText (n : Nat) : bool? (Decimal.natText n) = none := by
  rw [bool?, if_neg, if_neg]
  · rintro (heq | heq | heq) <;> exact natText_ne rfl rfl heq
  · rintro (heq | heq | heq) <;> exact natText_ne rfl rfl heq

/-- A numeral is spelled as its number. -/
theorem resolve?_natText {n : Nat} (h : n < pow2 64) :
    resolve? (Decimal.natText n) = some (.int n) := by
  have hint : int? (Decimal.natText n) = some (some (.int n)) := by
    rw [int?, unsigned?_natText h]
  rw [resolve?, if_neg (not_isNull_natText n), bool?_natText]
  simp only [hint]

end Plain

namespace Yaml

open Value (Fields)

/-- A text without quotes is spelled as itself. -/
theorem resolve?_of_style {isKey : Bool} {s : String} (h : scalarStyle isKey s = .plain) :
    Plain.resolve? s = some (.text s) := by
  obtain hstyle | ⟨hstyle, -⟩ | ⟨-, -, hstyle | ⟨-, -, -, -, -, helse⟩⟩ := scalarStyle_cases isKey s
  · exact absurd (hstyle.symm.trans h) (by decide)
  · exact absurd (hstyle.symm.trans h) (by decide)
  · exact absurd (hstyle.symm.trans h) (by decide)
  · rw [resolvesElsewhere, Bool.or_eq_false_iff] at helse
    obtain ⟨-, hresolve⟩ := helse
    split at hresolve
    · rename_i t ht
      have hdata : scalarData? none s true = some (.text t) :=
        (scalarData?_untagged s true).trans ht
      obtain rfl : t = s := standsFor_of_scalarData? (by simp) hdata
      exact ht
    · cases hresolve

/-! ### Trees -/

mutual

/-- Whether a tree may be general data in which so many more levels may be nested. -/
def IsData : Nat → Value → Prop
  | _, .text _ => True
  | _, .int n => n < pow2 64
  | depth + 1, .object fields => AreData depth fields
  | _, _ => False

/-- Whether fields may be general data; no key is there twice. -/
def AreData : Nat → List (String × Value) → Prop
  | _, [] => True
  | depth, (key, v) :: rest => key ∉ rest.map (·.1) ∧ IsData depth v ∧ AreData depth rest

end

theorem areData_iff {depth : Nat} {fields : Fields} :
    AreData depth fields ↔ (fields.map (·.1)).Nodup ∧ ∀ e ∈ fields, IsData depth e.2 := by
  induction fields with
  | nil => simp [AreData]
  | cons e fields ih =>
    obtain ⟨key, v⟩ := e
    rw [AreData, ih, List.map_cons, List.nodup_cons, List.forall_mem_cons]
    constructor
    · rintro ⟨hfresh, hv, hkeys, hfields⟩
      exact ⟨⟨hfresh, hkeys⟩, hv, hfields⟩
    · rintro ⟨⟨hfresh, hkeys⟩, hv, hfields⟩
      exact ⟨hfresh, hv, hkeys, hfields⟩

private theorem objectOf_text (fields : Fields) :
    objectOf (fields.map fun e ↦ (.text e.1, e.2)) = .object fields := by
  have hkeys : (fields.mapM fun e ↦ some (e.1, e.2)) = some fields := by
    rw [← Option.pure_def, List.mapM_pure]
    simp
  rw [objectOf, List.mapM_map]
  simp only [Function.comp_def, keyText?, Option.map_some, hkeys]

private theorem dataWithin_key {key : String} (h : IsFieldKey key) (place : Place) (depth : Nat) :
    (Node.scalar place none key true).dataWithin depth = .ok (.text key) := by
  rw [dataWithin_scalar, scalarData?_untagged]
  exact resolve?_of_style h.style

mutual

/-- The data of a node that has the shape of a tree are the tree. -/
theorem IsNodeOf.dataWithin_eq : ∀ {v : Value} {n : Node} {depth : Nat}, IsTree v →
    IsData depth v → IsNodeOf v n → n.dataWithin depth = .ok v
  | .text s, _, depth, _, _, ⟨place, rfl⟩ => by
    rw [dataWithin_scalar, scalarData?_untagged]
    split
    · rename_i hstyle
      exact resolve?_of_style (eq_of_beq hstyle)
    · rfl
  | .int k, _, depth, hk, hlt, ⟨place, rfl⟩ => by
    obtain ⟨n, rfl⟩ := Int.eq_ofNat_of_zero_le hk
    rw [IsData] at hlt
    rw [dataWithin_scalar, scalarData?_untagged]
    exact Plain.resolve?_natText (Int.ofNat_lt.mp hlt)
  | .object fields, _, depth + 1, ⟨_, htrees⟩, hdata, ⟨place, entries, rfl, h⟩ => by
    rw [dataWithin_mapping]
    exact ⟨depth, _, rfl, h.entryData_eq htrees hdata [] nofun, objectOf_text fields⟩

/-- The data of entries that have the shapes of fields are the fields. -/
theorem AreEntriesOf.entryData_eq : ∀ {fields : List (String × Value)}
    {entries : List (Node × Node)} {depth : Nat} {place : Place}, AreTrees fields →
    AreData depth fields → ∀ keys : List String, (∀ key ∈ keys, key ∉ fields.map (·.1)) →
    AreEntriesOf fields entries →
    entryData depth place (keys.map .text) entries = .ok (fields.map fun e ↦ (.text e.1, e.2))
  | [], _, depth, place, _, _, keys, _, rfl => rfl
  | (key, v) :: fields, _, depth, place, ⟨hkey, hv, htrees⟩, ⟨hfresh, hdata, hrest⟩, keys, hkeys,
      ⟨place', n, entries, rfl, hnode, hentries⟩ => by
    have hnew : (keys.map Value.text).any (isSame (.text key) ·) = false := by
      rw [List.any_eq_false]
      intro k hk
      obtain ⟨k, hmem, rfl⟩ := List.mem_map.mp hk
      have hne : key ≠ k := by
        rintro rfl
        exact hkeys key hmem (List.mem_cons_self ..)
      simpa [isSame] using hne
    have hkeys' : ∀ k ∈ key :: keys, k ∉ fields.map (·.1) := by
      rw [List.forall_mem_cons]
      exact ⟨hfresh, fun k hk hmem ↦ hkeys k hk (List.mem_cons_of_mem _ hmem)⟩
    have hmore : entryData depth place (.text key :: keys.map .text) entries = .ok _ :=
      AreEntriesOf.entryData_eq htrees hrest (key :: keys) hkeys' hentries
    rw [entryData, dataWithin_key hkey]
    simp only [bind, Except.bind, hnew, IsNodeOf.dataWithin_eq hv hdata hnode, hmore]
    rfl

end

mutual

/-- The keys of a tree are texts. -/
theorem hasTextKeys_of_isTree : ∀ {v : Value}, IsTree v → v.hasTextKeys = true
  | .text _, _ => rfl
  | .int _, _ => rfl
  | .object _, ⟨_, h⟩ => fieldsHaveTextKeys_of_areTrees h

@[inherit_doc hasTextKeys_of_isTree]
theorem fieldsHaveTextKeys_of_areTrees : ∀ {fields : List (String × Value)}, AreTrees fields →
    Value.fieldsHaveTextKeys fields = true
  | [], _ => rfl
  | (_, _) :: _, ⟨_, hv, h⟩ => by
    rw [Value.fieldsHaveTextKeys, hasTextKeys_of_isTree hv, fieldsHaveTextKeys_of_areTrees h]
    rfl

end

/-- A tree of fields is the general data of its document. -/
theorem readData_render {fields : Fields} (hne : fields ≠ []) (h : AreTrees fields)
    (hdata : AreData 127 fields) : readData (render (.object fields)) = .ok (.object fields) := by
  obtain ⟨n, hdocument, hshape⟩ := document_render hne h
  have htree : IsTree (.object fields) := ⟨hne, h⟩
  have hread : n.dataWithin 128 = .ok (.object fields) :=
    IsNodeOf.dataWithin_eq htree hdata hshape
  rw [readData, hdocument]
  simp only [bind, Except.bind, hread]
  rfl

end Yaml

end PipingAssembly
