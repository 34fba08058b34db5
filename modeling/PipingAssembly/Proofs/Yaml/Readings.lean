import PipingAssembly.Proofs.Json.Numbers
import PipingAssembly.Proofs.Results
import PipingAssembly.Value.Reading
import PipingAssembly.Yaml.Document

/-!
# The two readings of a YAML document

A document that is read as general data gives every scalar the type of its spelling; as a record it
leaves that type to the field. Where the data have a text, the record has the same text. A mapping
without a tag of an application has the same fields in both readings as long as their keys are field
names, which nothing but a text is spelled as.
-/

namespace PipingAssembly.Yaml

open Value (Fields asOptional?)

/-! ### Scalars -/

/-- What a scalar may stand for; a text is the spelling itself. -/
def StandsFor (s : String) : Value → Prop
  | .null | .bool _ | .int _ | .real _ => True
  | .text t => t = s
  | _ => False

theorem standsFor_text (s : String) : StandsFor s (.text s) := rfl

private theorem exists_of_int? {s : String} {v : Value} (h : Plain.int? s = some (some v)) :
    ∃ n, v = .int n := by
  rw [Plain.int?] at h
  split at h
  · exact ⟨_, (Option.some.inj (Option.some.inj h)).symm⟩
  · exact ⟨_, (Option.some.inj (Option.some.inj h)).symm⟩
  · split at h <;> cases h

private theorem standsFor_of_resolve? {s : String} {v : Value} (h : Plain.resolve? s = some v) :
    StandsFor s v := by
  rw [Plain.resolve?] at h
  split at h
  · cases h
    trivial
  split at h
  · cases h
    trivial
  split at h
  · cases h
  · rename_i hint
    obtain rfl := Option.some.inj h
    obtain ⟨n, rfl⟩ := exists_of_int? hint
    trivial
  split at h
  · cases h
    rfl
  · obtain rfl := Option.some.inj h
    cases Plain.float? s with
    | none => rfl
    | some x => trivial

private theorem standsFor_of_resolveTagged? {tag s : String} {v : Value}
    (h : Plain.resolveTagged? tag s = some v) : StandsFor s v := by
  rw [Plain.resolveTagged?] at h
  split at h
  · obtain ⟨b, -, rfl⟩ := Option.map_eq_some_iff.mp h
    trivial
  split at h
  · obtain ⟨n, rfl⟩ := exists_of_int? (Option.join_eq_some_iff.mp h)
    trivial
  split at h
  · obtain ⟨x, -, rfl⟩ := Option.map_eq_some_iff.mp h
    trivial
  split at h
  · obtain ⟨-, hnull⟩ := Option.ite_none_right_eq_some.mp h
    cases hnull
    trivial
  · cases h
    rfl

private theorem underTag_of_isOwnTag {t : String} (ht : isOwnTag t = true) (v : Value) :
    underTag (some t) v = .object [(t, v)] :=
  if_pos ht

private theorem underTag_of_forall {tag : Option String} (h : ∀ t ∈ tag, isOwnTag t = false)
    (v : Value) : underTag tag v = v := by
  cases tag with
  | none => rfl
  | some t => exact if_neg (Bool.eq_false_iff.mp (h t rfl))

/-- A tag that is no application's own chooses the type of a scalar. -/
theorem scalarData?_of_tagged {t s : String} {isPlain : Bool} (ht : isOwnTag t = false) :
    scalarData? (some t) s isPlain = Plain.resolveTagged? t s := by
  simp only [scalarData?, Option.filter_some, ht, Bool.not_false, if_true]

theorem scalarData?_untagged (s : String) (isPlain : Bool) :
    scalarData? none s isPlain = if isPlain then Plain.resolve? s else some (.text s) := by
  rw [scalarData?, Option.filter_none]
  exact Option.map_id'

/-- The data of a scalar without a tag of an application are what its spelling stands for. -/
theorem standsFor_of_scalarData? {tag : Option String} {s : String} {isPlain : Bool} {u : Value}
    (htag : ∀ t ∈ tag, isOwnTag t = false) (h : scalarData? tag s isPlain = some u) :
    StandsFor s u := by
  cases tag with
  | some t =>
    rw [scalarData?_of_tagged (htag t rfl)] at h
    exact standsFor_of_resolveTagged? h
  | none =>
    rw [scalarData?_untagged] at h
    split at h
    · exact standsFor_of_resolve? h
    · cases h
      rfl

/-! ### Nodes -/

/-- The tag of a node. -/
def Node.tag : Node → Option String
  | .scalar _ tag _ _ | .sequence _ tag _ | .mapping _ tag _ => tag

section Node

variable {depth : Nat} {place : Place} {tag : Option String} {u : Value}

theorem dataWithin_scalar {s : String} {isPlain : Bool} :
    (Node.scalar place tag s isPlain).dataWithin depth = .ok u ↔
      scalarData? tag s isPlain = some u := by
  rw [Node.dataWithin.eq_def]
  cases hdata : scalarData? tag s isPlain <;> simp [hdata]

theorem dataWithin_sequence {items : List Node} :
    (Node.sequence place tag items).dataWithin depth = .ok u ↔
      ∃ d vs, depth = d + 1 ∧ itemData d items = .ok vs ∧ underTag tag (.list vs) = u := by
  rw [Node.dataWithin.eq_def]
  cases depth with
  | zero => simp
  | succ d => cases hdata : itemData d items <;> simp [Except.map, hdata]

theorem dataWithin_mapping {entries : List (Node × Node)} :
    (Node.mapping place tag entries).dataWithin depth = .ok u ↔
      ∃ d es, depth = d + 1 ∧ entryData d place [] entries = .ok es ∧
        underTag tag (objectOf es) = u := by
  rw [Node.dataWithin.eq_def]
  cases depth with
  | zero => simp
  | succ d => cases hdata : entryData d place [] entries <;> simp [Except.map, hdata]

variable {n : Node}

/-- The data of a node under a tag of an application are an object with the tag as its key. -/
theorem data_of_isOwnTag {t : String} (htag : n.tag = some t) (ht : isOwnTag t = true)
    (h : n.dataWithin depth = .ok u) : ∃ v, u = .object [(t, v)] := by
  cases n with
  | scalar place tag s isPlain =>
    obtain rfl : tag = some t := htag
    have hdata := dataWithin_scalar.mp h
    simp only [scalarData?, Option.filter_some, ht, Bool.not_true, Bool.false_eq_true,
      if_false] at hdata
    obtain ⟨v, -, rfl⟩ := Option.map_eq_some_iff.mp hdata
    exact ⟨v, underTag_of_isOwnTag ht v⟩
  | sequence place tag items =>
    obtain rfl : tag = some t := htag
    obtain ⟨d, vs, -, -, rfl⟩ := dataWithin_sequence.mp h
    exact ⟨_, underTag_of_isOwnTag ht _⟩
  | mapping place tag entries =>
    obtain rfl : tag = some t := htag
    obtain ⟨d, es, -, -, rfl⟩ := dataWithin_mapping.mp h
    exact ⟨_, underTag_of_isOwnTag ht _⟩

/-- What a scalar may stand for are the data of scalars only, without a tag of an application. -/
theorem exists_scalar_of_standsFor {s : String} (hu : StandsFor s u)
    (h : n.dataWithin depth = .ok u) :
    ∃ place tag s isPlain, n = .scalar place tag s isPlain ∧ (∀ t ∈ tag, isOwnTag t = false) ∧
      scalarData? tag s isPlain = some u := by
  have htag : ∀ t ∈ n.tag, isOwnTag t = false := by
    intro t ht
    rw [← Bool.not_eq_true]
    intro hown
    obtain ⟨v, rfl⟩ := data_of_isOwnTag ht hown h
    exact hu
  cases n with
  | scalar place tag s isPlain => exact ⟨place, tag, s, isPlain, rfl, htag, dataWithin_scalar.mp h⟩
  | sequence place tag items =>
    obtain ⟨d, vs, -, -, rfl⟩ := dataWithin_sequence.mp h
    have htag' : ∀ t ∈ tag, isOwnTag t = false := htag
    rw [underTag_of_forall htag'] at hu
    exact hu.elim
  | mapping place tag entries =>
    obtain ⟨d, es, -, -, rfl⟩ := dataWithin_mapping.mp h
    have htag' : ∀ t ∈ tag, isOwnTag t = false := htag
    rw [underTag_of_forall htag', objectOf] at hu
    split at hu <;> exact hu.elim

/-- A record value resolves to the data of its node where they are what a scalar may stand for. -/
theorem resolved?_toValue {s : String} (hu : StandsFor s u) (h : n.dataWithin depth = .ok u) :
    n.toValue.resolved? = some u := by
  obtain ⟨place, tag, s, isPlain, rfl, htag, hdata⟩ := exists_scalar_of_standsFor hu h
  cases tag with
  | none =>
    rw [scalarData?_untagged] at hdata
    cases isPlain with
    | true => exact hdata
    | false => exact hdata
  | some t =>
    have ht := htag t rfl
    rw [scalarData?_of_tagged ht] at hdata
    have hhead : ¬t.toList.head? = some '!' := by
      intro heq
      rw [isOwnTag, heq] at ht
      cases ht
    rw [Node.toValue, withTag]
    cases isPlain with
    | true =>
      rw [if_pos rfl, Value.resolved?, if_neg hhead]
      exact hdata
    | false =>
      rw [if_neg Bool.false_ne_true, Value.resolved?, if_neg hhead]
      exact hdata

/-- Where the data are a text, the record value reads as that text. -/
theorem asText?_toValue {s : String} (h : n.dataWithin depth = .ok (.text s)) :
    n.toValue.asText? = some s := by
  obtain ⟨place, tag, t, isPlain, rfl, htag, hdata⟩ :=
    exists_scalar_of_standsFor (standsFor_text s) h
  obtain rfl : s = t := standsFor_of_scalarData? htag hdata
  cases tag <;> cases isPlain <;> rfl

/-- Where the data are a text, the record value reads as the case of that name. -/
theorem asCase?_toValue {s : String} (h : n.dataWithin depth = .ok (.text s)) :
    n.toValue.asCase? = some s := by
  have htext := asText?_toValue h
  obtain ⟨place, tag, t, isPlain, rfl, htag, -⟩ := exists_scalar_of_standsFor (standsFor_text s) h
  cases tag with
  | none => cases isPlain <;> exact htext
  | some tag =>
    have hown := htag tag rfl
    rw [Node.toValue, withTag, Value.asCase?]
    split
    · rename_i heq
      rw [isOwnTag, heq] at hown
      cases hown
    · cases isPlain <;> exact htext

/-- Where the data are not null, an optional reader reads the record value as the reader does. -/
theorem asOptional?_toValue {α : Type} (read : Value → Option α) (hu : u ≠ .null)
    (h : n.dataWithin depth = .ok u) :
    asOptional? read n.toValue = (read n.toValue).map some := by
  cases n with
  | sequence place tag items => cases tag <;> rfl
  | mapping place tag entries =>
    cases tag with
    | none =>
      cases hfields : entryValues entries <;> simp [Node.toValue, withTag, hfields, asOptional?]
    | some t =>
      cases hfields : entryValues entries <;> simp [Node.toValue, withTag, hfields, asOptional?]
  | scalar place tag s isPlain =>
    have hdata := dataWithin_scalar.mp h
    cases tag with
    | none =>
      rw [scalarData?_untagged] at hdata
      cases isPlain with
      | false => rfl
      | true =>
        rw [if_pos rfl, Plain.resolve?] at hdata
        have hspelled : ¬(s = "" ∨ Plain.isNull s) := by
          intro hnull
          rw [if_pos hnull] at hdata
          exact hu (Option.some.inj hdata).symm
        rw [Node.toValue, withTag, if_pos rfl]
        exact if_neg hspelled
    | some t =>
      cases isPlain with
      | false => rfl
      | true =>
        have ht : t ≠ Plain.nullTag := by
          rintro rfl
          rw [scalarData?_of_tagged (by decide)] at hdata
          obtain ⟨-, hnull⟩ := Option.ite_none_right_eq_some.mp hdata
          exact hu (Option.some.inj hnull).symm
        rw [Node.toValue, withTag, if_pos rfl]
        exact if_neg ht

end Node

/-! ### Fields -/

/-- Whether a text is a field name: nothing else is spelled so, and no other key has this text. -/
def isFieldName (s : String) : Bool :=
  s != "" && !Plain.isNull s && (Plain.bool? s).isNone && (Plain.int? s).any (·.isNone) &&
    (Plain.float? s).isNone && !s.toList.head?.any fun c ↦ c == '-' || c.isDigit

section FieldName

variable {name : String} (hname : isFieldName name = true)
include hname

/-- A scalar that is spelled as a field name is a text. -/
private theorem eq_text_of_scalarData? {tag : Option String} {isPlain : Bool} {u : Value}
    (htag : ∀ t ∈ tag, isOwnTag t = false) (h : scalarData? tag name isPlain = some u) :
    u = .text name := by
  simp only [isFieldName, Bool.and_eq_true, bne_iff_ne, Bool.not_eq_true', ne_eq,
    Option.isNone_iff_eq_none, Option.any_eq_true_iff_get] at hname
  obtain ⟨⟨⟨⟨⟨hempty, hnull⟩, hbool⟩, hsome, hint⟩, hfloat⟩, -⟩ := hname
  have hint' : Plain.int? name = some none := by
    rw [← Option.some_get hsome, hint]
  cases tag with
  | none =>
    rw [scalarData?_untagged] at h
    cases isPlain with
    | false => exact (Option.some.inj h).symm
    | true =>
      simp only [Plain.resolve?, hempty, hnull, hbool, hint', hfloat, Option.map_none,
        Option.getD_none, ite_self, Bool.false_eq_true, or_self, if_false] at h
      exact (Option.some.inj h).symm
  | some t =>
    rw [scalarData?_of_tagged (htag t rfl), Plain.resolveTagged?, hbool, hint', hfloat, hnull] at h
    simp only [Option.map_none, Option.join_some, Bool.false_eq_true, if_false] at h
    split at h
    · cases h
    split at h
    · cases h
    split at h
    · cases h
    split at h
    · cases h
    · exact (Option.some.inj h).symm

private theorem not_startsNumber : ¬Json.StartsNumber name.toList := by
  rintro ⟨c, r, hc, hstart⟩
  simp only [isFieldName, Bool.and_eq_true, Bool.not_eq_true'] at hname
  have hhead := hname.2
  rw [hc] at hhead
  obtain rfl | hdigit := hstart
  · cases hhead
  · simp [hdigit] at hhead

/-- A key whose text is a field name is that text. -/
private theorem eq_text_of_keyText? {key : Value} (h : keyText? key = some name) :
    key = .text name := by
  unfold keyText? at h
  split at h
  · rw [Option.some.inj h]
  · exact absurd (Option.some.inj h ▸ Json.startsNumber_toString _) (not_startsNumber hname)
  · obtain rfl := Option.some.inj h
    exfalso
    rename_i b
    cases b <;> revert hname <;> decide +kernel
  · split at h
    · exact absurd (Option.some.inj h ▸ Json.startsNumber_pointedText _ _ _)
        (not_startsNumber hname)
    · cases h
  · cases h

end FieldName

private theorem standsFor_of_keyText? {key : Value} {s : String} (h : keyText? key = some s) :
    StandsFor s key := by
  unfold keyText? at h
  split at h
  · exact Option.some.inj h
  · trivial
  · trivial
  · trivial
  · cases h

/-- A key that has a text is a scalar. If that text or the spelling of the scalar is a field name,
it is both. -/
private theorem exists_scalar_of_keyText? {k : Node} {depth : Nat} {key : Value} {s : String}
    (h : k.dataWithin depth = .ok key) (hkey : keyText? key = some s) :
    ∃ place tag spelled isPlain, k = .scalar place tag spelled isPlain ∧
      ∀ name, isFieldName name = true → (spelled = name ↔ s = name) := by
  obtain ⟨place, tag, spelled, isPlain, rfl, htag, hdata⟩ :=
    exists_scalar_of_standsFor (standsFor_of_keyText? hkey) h
  refine ⟨place, tag, spelled, isPlain, rfl, fun name hname ↦ ⟨?_, ?_⟩⟩
  · rintro rfl
    obtain rfl := eq_text_of_scalarData? hname htag hdata
    exact (Option.some.inj hkey).symm
  · rintro rfl
    obtain rfl := eq_text_of_keyText? hname hkey
    exact (standsFor_of_scalarData? htag hdata).symm

private theorem isSame_text (s : String) : isSame (.text s) (.text s) = true := by
  rw [isSame]
  exact beq_self_eq_true s

private theorem entryData_cons {depth : Nat} {place : Place} {keys : List Value} {k n : Node}
    {entries : List (Node × Node)} {es : List (Value × Value)}
    (h : entryData depth place keys ((k, n) :: entries) = .ok es) :
    ∃ key v rest, k.dataWithin depth = .ok key ∧ keys.any (isSame key ·) = false ∧
      n.dataWithin depth = .ok v ∧ entryData depth place (key :: keys) entries = .ok rest ∧
      es = (key, v) :: rest := by
  rw [entryData] at h
  obtain ⟨key, hkey, h⟩ := bind_eq_ok_iff.mp h
  cases hsame : keys.any (isSame key ·) with
  | true =>
    rw [hsame] at h
    cases h
  | false =>
    rw [hsame] at h
    obtain ⟨v, hv, h⟩ := bind_eq_ok_iff.mp h
    obtain ⟨rest, hrest, h⟩ := bind_eq_ok_iff.mp h
    exact ⟨key, v, rest, hkey, hsame, hv, hrest, (Except.ok.inj h).symm⟩

/-- A field name is either no key of the data and of the record, or one key of both. -/
def SameField (name : String) (fields record : Fields) : Prop :=
  (fields.filter (·.1 == name) = [] ∧ record.filter (·.1 == name) = []) ∨
    ∃ (n : Node) (depth : Nat) (u : Value), n.dataWithin depth = .ok u ∧
      fields.filter (·.1 == name) = [(name, u)] ∧ record.filter (·.1 == name) = [(name, n.toValue)]

/-- The entries of a mapping whose keys have texts are fields of the record. The induction is on the
entries; the keys that have been read rule out a second field of a name. -/
private theorem exists_entryValues {depth : Nat} {place : Place} {keys : List Value}
    {entries : List (Node × Node)} {es : List (Value × Value)} {fields : Fields}
    (h : entryData depth place keys entries = .ok es)
    (hfields : (es.mapM fun (k, v) ↦ (keyText? k).map (·, v)) = some fields) :
    ∃ record, entryValues entries = some record ∧ ∀ name, isFieldName name = true →
      SameField name fields record ∧
        (keys.any (isSame (.text name) ·) = true → record.filter (·.1 == name) = []) := by
  induction entries generalizing keys es fields with
  | nil =>
    rw [entryData] at h
    obtain rfl := Except.ok.inj h
    obtain rfl := Option.some.inj hfields
    exact ⟨[], rfl, fun name _ ↦ ⟨Or.inl ⟨rfl, rfl⟩, fun _ ↦ rfl⟩⟩
  | cons entry entries ih =>
    obtain ⟨k, n⟩ := entry
    obtain ⟨key, v, rest, hkey, hfresh, hv, hrest, rfl⟩ := entryData_cons h
    rw [List.mapM_cons] at hfields
    obtain ⟨_, hfirst, hfields⟩ := Option.bind_eq_some_iff.mp hfields
    obtain ⟨s, hs, rfl⟩ := Option.map_eq_some_iff.mp hfirst
    obtain ⟨fields', hfields', hcons⟩ := Option.bind_eq_some_iff.mp hfields
    obtain rfl := Option.some.inj hcons
    obtain ⟨record, hrecord, hnamed⟩ := ih hrest hfields'
    obtain ⟨_, tag, spelled, isPlain, rfl, hspelled⟩ := exists_scalar_of_keyText? hkey hs
    refine ⟨(spelled, n.toValue) :: record, by simp only [entryValues, hrecord], ?_⟩
    intro name hname
    obtain ⟨hsame, hread⟩ := hnamed name hname
    rw [List.any_cons, Bool.or_eq_true] at hread
    rw [SameField, List.filter_cons, List.filter_cons]
    by_cases hs' : s = name
    · obtain rfl := (hspelled name hname).mpr hs'
      subst hs'
      obtain rfl := eq_text_of_keyText? hname hs
      have hnone := hread (Or.inl (isSame_text s))
      have hnone' : fields'.filter (·.1 == s) = [] := by
        obtain hsame | ⟨_, _, _, -, -, hsome⟩ := hsame
        · exact hsame.1
        · rw [hnone] at hsome
          cases hsome
      rw [if_pos (beq_self_eq_true s), if_pos (beq_self_eq_true s), hnone, hnone']
      refine ⟨Or.inr ⟨n, depth, v, hv, rfl, rfl⟩, ?_⟩
      rw [hfresh]
      exact nofun
    · have hspelled' : spelled ≠ name := mt (hspelled name hname).mp hs'
      rw [if_neg (by simpa using hs'), if_neg (by simpa using hspelled')]
      exact ⟨hsame, fun hkeys ↦ hread (Or.inr hkeys)⟩

/-- A node whose data are an object, without a tag of an application, has the same field names as a
record. -/
theorem exists_record {n : Node} {depth : Nat} {fields : Fields}
    (htag : ∀ t ∈ n.tag, isOwnTag t = false) (h : n.dataWithin depth = .ok (.object fields)) :
    ∃ record, n.toValue.untagged = .object record ∧
      ∀ name, isFieldName name = true → SameField name fields record := by
  cases n with
  | scalar place tag s isPlain =>
    exact (standsFor_of_scalarData? htag (dataWithin_scalar.mp h)).elim
  | sequence place tag items =>
    have htag' : ∀ t ∈ tag, isOwnTag t = false := htag
    obtain ⟨d, vs, -, -, hu⟩ := dataWithin_sequence.mp h
    rw [underTag_of_forall htag'] at hu
    cases hu
  | mapping place tag entries =>
    have htag' : ∀ t ∈ tag, isOwnTag t = false := htag
    obtain ⟨d, es, -, hes, hu⟩ := dataWithin_mapping.mp h
    rw [underTag_of_forall htag', objectOf] at hu
    split at hu
    · rename_i fields' hfields
      obtain rfl := Value.object.inj hu
      obtain ⟨record, hrecord, hnamed⟩ := exists_entryValues hes hfields
      refine ⟨record, ?_, fun name hname ↦ (hnamed name hname).1⟩
      rw [Node.toValue, hrecord]
      cases tag <;> rfl
    · cases hu

/-! ### Characters -/

/-- A text that reads as a record holds no character but those that a text may hold. -/
theorem isAllowed_of_readRecord? {s : String} {v : Value} (h : readRecord? s = some v) :
    ∀ c ∈ s.toList, isAllowed c = true := by
  obtain ⟨n, hn, -⟩ := Option.map_eq_some_iff.mp h
  rw [document, Tokens.ofText] at hn
  split at hn
  case isTrue hall => exact List.all_eq_true.mp hall
  case isFalse => cases hn

end PipingAssembly.Yaml
