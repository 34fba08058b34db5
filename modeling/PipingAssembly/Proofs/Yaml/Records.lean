import PipingAssembly.Proofs.Value.RoundTrip
import PipingAssembly.Proofs.Yaml.Documents

/-!
# Records read back from their documents

A document leaves open which of its unquoted scalars are texts and which are numbers. A reader that
asks for what was written finds it again: a numeral is read as its number, and an unquoted text is
never taken for null.
-/

namespace PipingAssembly

/-! ### Unquoted numerals -/

namespace Plain

variable {n limit : Nat}

private theorem digit?_of_isDigit {d : Char} (h : d.isDigit = true) :
    digit? 10 d = some (d.toNat - '0'.toNat) := by
  obtain ⟨hlow, hhigh⟩ := Char.isDigit_iff_toNat.mp h
  have hten : d.toNat - '0'.toNat < 10 := by
    have hnine : '9'.toNat = '0'.toNat + 9 := rfl
    omega
  rw [digit?, Text.hexDigit?, if_pos h, Option.filter_some, if_pos (decide_eq_true hten)]

private theorem mapM_digit? {ds : List Char} (h : ∀ d ∈ ds, d.isDigit = true) :
    ds.mapM (digit? 10) = some (ds.map fun d ↦ d.toNat - '0'.toNat) := by
  induction ds with
  | nil => rfl
  | cons d ds ih =>
    rw [List.mapM_cons, digit?_of_isDigit (h d List.mem_cons_self),
      ih fun e he ↦ h e (List.mem_cons_of_mem d he)]
    rfl

theorem digits?_natText (n : Nat) : digits? 10 (Decimal.natText n).toList = some n := by
  rw [digits?, if_neg (Decimal.toList_natText_ne_nil n),
    mapM_digit? fun d hd ↦ Decimal.isDigit_of_mem_natText hd, Option.map_some, List.foldl_map,
    Decimal.toList_natText]
  exact congrArg some Nat.ofDigitChars_ten_toDigits

/-- A numeral begins with no character that is not a digit. -/
private theorem natText_ne_cons {d : Char} (hd : d.isDigit = false) (cs : List Char) :
    (Decimal.natText n).toList ≠ d :: cs := by
  intro heq
  have hdigit := Decimal.isDigit_of_mem_natText (heq ▸ List.mem_cons_self)
  exact Bool.noConfusion (hdigit.symm.trans hd)

/-- A numeral has no needless zero. -/
theorem hasLeadingZero_natText (n : Nat) :
    hasLeadingZero (Decimal.natText n).toList = false := by
  have hsign : (Decimal.splitSign (Decimal.natText n).toList).2 = (Decimal.natText n).toList := by
    rw [Decimal.splitSign]
    · exact natText_ne_cons rfl
    · exact natText_ne_cons rfl
  rw [hasLeadingZero, hsign]
  cases hcs : (Decimal.natText n).toList with
  | nil => rfl
  | cons d cs =>
    by_cases hd : d = '0'
    · subst hd
      rw [Decimal.natText_eq_zero_cons hcs]
      rfl
    · simp [hd]

/-- A numeral is no text that begins with something else than a digit. -/
theorem natText_ne {s : String} {d : Char} {cs : List Char} (hd : d.isDigit = false)
    (hs : s.toList = d :: cs) : Decimal.natText n ≠ s :=
  fun heq ↦ natText_ne_cons hd cs ((congrArg String.toList heq).trans hs)

/-- A numeral does not stand for null. -/
theorem not_isNull_natText (n : Nat) :
    ¬(Decimal.natText n = "" ∨ isNull (Decimal.natText n) = true) := by
  rw [isNull]
  simp only [Bool.or_eq_true, beq_iff_eq, not_or]
  refine ⟨fun heq ↦ ?_, ⟨⟨natText_ne rfl rfl, natText_ne rfl rfl⟩, natText_ne rfl rfl⟩,
    natText_ne rfl rfl⟩
  exact Decimal.toList_natText_ne_nil n (congrArg String.toList heq)

/-- A numeral has no mark of another base. -/
private theorem magnitude?_natText (h : n < limit) :
    magnitude? limit (Decimal.natText n).toList = some n := by
  have hten : (digits? 10 (Decimal.natText n).toList).filter (· < limit) = some n := by
    rw [digits?_natText, Option.filter_some, if_pos (decide_eq_true h)]
  have hmark : ∀ d cs, (Decimal.natText n).toList ≠ '0' :: d :: cs := by
    intro d cs heq
    exact absurd (Decimal.natText_eq_zero_cons heq) (List.cons_ne_nil d cs)
  rw [magnitude?]
  · simp only [Option.filter_none, hasLeadingZero_natText, Bool.false_eq_true, if_false, hten]
  · exact hmark 'x'
  · exact hmark 'o'
  · exact hmark 'b'

/-- A numeral is read as its number. -/
theorem unsigned?_natText (h : n < limit) : unsigned? limit (Decimal.natText n) = some n := by
  rw [unsigned?]
  split
  · exact absurd (by assumption) (natText_ne_cons rfl _)
  · exact magnitude?_natText h

end Plain

/-! ### Readers -/

namespace Yaml

open Value (Fields asOptional?)

/-- An unquoted text does not stand for null. -/
theorem not_isNull_of_style {s : String} (h : scalarStyle false s = .plain) :
    ¬(s = "" ∨ Plain.isNull s = true) := by
  intro hnull
  have hresolve : Plain.resolve? s = some .null := if_pos hnull
  obtain hstyle | ⟨hstyle, -⟩ | ⟨-, -, hstyle | ⟨-, -, -, -, -, helse⟩⟩ := scalarStyle_cases false s
  · exact absurd (hstyle.symm.trans h) (by decide)
  · exact absurd (hstyle.symm.trans h) (by decide)
  · exact absurd (hstyle.symm.trans h) (by decide)
  · simp [resolvesElsewhere, hresolve] at helse

/-- Whether a reader finds what it read from a tree also in the tree that comes back. -/
def Keeps {α : Type} (read : Value → Option α) : Prop :=
  ∀ {v a}, IsTree v → read v = some a → read (reopened v) = some a

variable {α : Type} {read : Value → Option α}

theorem keeps_asText? : Keeps Value.asText? := by
  intro v a hv h
  cases v with
  | text s =>
    rw [reopened]
    split
    · exact h
    · exact h
  | int n => cases h
  | object fields => cases h
  | _ => exact hv.elim

theorem keeps_family : Keeps Family.ofValue? := by
  intro v family hv h
  cases v with
  | text s =>
    rw [reopened]
    split
    · exact h
    · exact h
  | int n => cases h
  | object fields =>
    obtain ⟨e, fields, rfl⟩ := List.exists_cons_of_ne_nil hv.1
    obtain ⟨key, v⟩ := e
    cases v with
    | null => exact hv.2.2.1.elim
    | _ => cases h
  | _ => exact hv.elim

theorem keeps_asUInt32? : Keeps Value.asUInt32? := by
  intro v a hv h
  cases v with
  | text s => cases h
  | int n =>
    obtain ⟨k, rfl⟩ := Int.eq_ofNat_of_zero_le hv
    obtain ⟨m, hm, rfl⟩ := Option.map_eq_some_iff.mp h
    obtain ⟨⟨-, hlt⟩, rfl⟩ : (0 ≤ (k : Int) ∧ k < pow2 32) ∧ k = m := by
      simpa [Value.asNat?, Value.untagged] using hm
    have hread : Plain.unsigned? (pow2 64) (toString (k : Int)) = some k :=
      Plain.unsigned?_natText (hlt.trans (by decide))
    rw [reopened, Value.asUInt32?, Value.asNat?, Value.untagged]
    · simp only [hread, Option.filter_some, decide_eq_true hlt, if_true, Option.map_some]
    · exact fun _ _ h ↦ Value.noConfusion h
  | object fields => cases h
  | _ => exact hv.elim

/-- A tree is not null. -/
private theorem asOptional?_of_isTree {v : Value} (hv : IsTree v) :
    asOptional? read v = (read v).map some := by
  cases v with
  | text s => rfl
  | int n => rfl
  | object fields => rfl
  | _ => exact hv.elim

@[inherit_doc asOptional?_of_isTree]
private theorem asOptional?_reopened {v : Value} (hv : IsTree v) :
    asOptional? read (reopened v) = (read (reopened v)).map some := by
  cases v with
  | text s =>
    rw [reopened]
    split
    · rename_i hstyle
      exact if_neg (not_isNull_of_style (eq_of_beq hstyle))
    · rfl
  | int n =>
    obtain ⟨k, rfl⟩ := Int.eq_ofNat_of_zero_le hv
    exact if_neg (Plain.not_isNull_natText k)
  | object fields => rfl
  | _ => exact hv.elim

theorem Keeps.asOptional? (h : Keeps read) : Keeps (asOptional? read) := by
  intro v o hv hread
  rw [asOptional?_of_isTree hv] at hread
  obtain ⟨a, ha, rfl⟩ := Option.map_eq_some_iff.mp hread
  rw [asOptional?_reopened hv, h hv ha, Option.map_some]

/-! ### Fields -/

theorem areTrees_iff {fields : Fields} :
    AreTrees fields ↔ ∀ e ∈ fields, IsFieldKey e.1 ∧ IsTree e.2 := by
  induction fields with
  | nil => simp [AreTrees]
  | cons e fields ih =>
    obtain ⟨key, v⟩ := e
    rw [AreTrees, ih, List.forall_mem_cons, and_assoc]

theorem reopenedFields_eq_map (fields : Fields) :
    reopenedFields fields = fields.map fun e ↦ (e.1, reopened e.2) := by
  induction fields with
  | nil => rfl
  | cons e fields ih =>
    obtain ⟨key, v⟩ := e
    rw [reopenedFields, ih]
    rfl

section Fields

variable {fields : Fields} {key : String} {a : α}

theorem lookup?_reopenedFields (fields : Fields) (key : String) :
    Fields.lookup? (reopenedFields fields) key =
      (fields.lookup? key).map (·.map reopened) := by
  have hfilter : (reopenedFields fields).filter (·.1 == key) =
      reopenedFields (fields.filter (·.1 == key)) := by
    rw [reopenedFields_eq_map, reopenedFields_eq_map, List.filter_map]
    rfl
  rw [Fields.lookup?, Fields.lookup?, hfilter]
  generalize fields.filter (·.1 == key) = found
  obtain _ | ⟨e, _ | ⟨e', found⟩⟩ := found
  · rfl
  · rfl
  · rfl

/-- The value under a key of a tree is a tree. -/
theorem isTree_of_lookup? (h : AreTrees fields) {v : Value}
    (hv : fields.lookup? key = some (some v)) : IsTree v := by
  rw [Fields.lookup?] at hv
  split at hv
  · cases hv
  · rename_i k w heq
    cases hv
    have hmem : (k, v) ∈ fields.filter (·.1 == key) := heq ▸ List.mem_cons_self
    exact (areTrees_iff.mp h _ (List.mem_of_mem_filter hmem)).2
  · cases hv

variable (hread : Keeps read) (h : AreTrees fields)
include hread h

theorem Keeps.required? (hvalue : fields.required? key read = some a) :
    Fields.required? (reopenedFields fields) key read = some a := by
  obtain ⟨o, hlookup, ho⟩ := Option.bind_eq_some_iff.mp hvalue
  obtain ⟨v, rfl, hv⟩ := Option.bind_eq_some_iff.mp ho
  rw [Fields.required?, lookup?_reopenedFields, hlookup]
  exact hread (isTree_of_lookup? h hlookup) hv

theorem Keeps.withDefault? {default : α} (hvalue : fields.withDefault? key default read = some a) :
    Fields.withDefault? (reopenedFields fields) key default read = some a := by
  rw [Fields.withDefault?] at hvalue ⊢
  rw [lookup?_reopenedFields]
  cases hlookup : fields.lookup? key with
  | none =>
    rw [hlookup] at hvalue
    cases hvalue
  | some found =>
    rw [hlookup] at hvalue
    cases found with
    | none => exact hvalue
    | some v => exact hread (isTree_of_lookup? h hlookup) hvalue

theorem Keeps.optional? {o : Option α} (hvalue : fields.optional? key read = some o) :
    Fields.optional? (reopenedFields fields) key read = some o := by
  rw [Fields.optional?] at hvalue ⊢
  rw [lookup?_reopenedFields]
  cases hlookup : fields.lookup? key with
  | none =>
    rw [hlookup] at hvalue
    cases hvalue
  | some found =>
    rw [hlookup] at hvalue
    cases found with
    | none => exact hvalue
    | some v => exact hread.asOptional? (isTree_of_lookup? h hlookup) hvalue

end Fields

/-! ### Parts -/

private theorem mapM_asText?_reopenedFields {fields : Fields} {read : List (String × String)}
    (h : AreTrees fields)
    (hread : fields.mapM (fun e : String × Value ↦ e.2.asText?.map (e.1, ·)) = some read) :
    (reopenedFields fields).mapM (fun e : String × Value ↦ e.2.asText?.map (e.1, ·)) =
      some read := by
  induction fields generalizing read with
  | nil => exact hread
  | cons e fields ih =>
    obtain ⟨key, v⟩ := e
    obtain ⟨-, hv, hfields⟩ := h
    rw [List.mapM_cons] at hread
    obtain ⟨_, hfirst, hrest⟩ := Option.bind_eq_some_iff.mp hread
    obtain ⟨s, hs, rfl⟩ := Option.map_eq_some_iff.mp hfirst
    obtain ⟨rest, hrest, hread⟩ := Option.bind_eq_some_iff.mp hrest
    rw [reopenedFields, List.mapM_cons, keeps_asText? hv hs, ih hfields hrest]
    exact hread

theorem keeps_metadata : Keeps Part.metadataOfValue? := by
  intro v entries hv h
  cases v with
  | text s => cases h
  | int n => cases h
  | object fields =>
    obtain ⟨read, hread, rfl⟩ := Option.map_eq_some_iff.mp h
    exact Option.map_eq_some_iff.mpr ⟨read, mapM_asText?_reopenedFields hv.2 hread, rfl⟩
  | _ => exact hv.elim

end Yaml

/-- A part that is read from a tree is also read from the tree that comes back. -/
theorem Part.ofValue?_reopened {fields : Value.Fields} {p : Part} (h : Yaml.AreTrees fields)
    (hread : ofValue? (.object fields) = some p) :
    ofValue? (Yaml.reopened (.object fields)) = some p := by
  obtain ⟨hid, hname, hfamily, hdn, hpn, hend, hface, hmetadata, hmodel⟩ :=
    (ofValue?_eq_some_iff rfl).mp hread
  exact (ofValue?_eq_some_iff rfl).mpr ⟨Yaml.keeps_asText?.required? h hid,
    Yaml.keeps_asText?.optional? h hname, Yaml.keeps_family.withDefault? h hfamily,
    Yaml.keeps_asUInt32?.optional? h hdn, Yaml.keeps_asUInt32?.optional? h hpn,
    Yaml.keeps_asText?.optional? h hend, Yaml.keeps_asText?.optional? h hface,
    Yaml.keeps_metadata.withDefault? h hmetadata, Yaml.keeps_asText?.optional? h hmodel⟩

end PipingAssembly
