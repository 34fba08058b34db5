import PipingAssembly.Proofs.Json.Numbers
import PipingAssembly.Proofs.Json.Strings

/-!
# Values in JSON texts

The text of a value reads back as the value, apart from its floating-point numbers: each of these
reads back as its own text does. So whether a record survives in a text is a question about its
floating-point numbers alone.
-/

namespace PipingAssembly.Json

/-! ### What a value reads back as -/

mutual

/-- Whether the text of a value can be read within a depth: its whole numbers fit 64 bits, and every
scalar in it has a type. -/
def Readable : Nat → Value → Prop
  | _, .null => True
  | _, .bool _ => True
  | _, .int n => -(pow2 63 : Int) ≤ n ∧ n < pow2 64
  | _, .real _ => True
  | _, .text _ => True
  | depth + 1, .list items => ItemsReadable depth items
  | depth + 1, .object fields => FieldsReadable depth fields
  | _, _ => False

/-- Whether the texts of items can be read within a depth. -/
def ItemsReadable : Nat → List Value → Prop
  | _, [] => True
  | depth, v :: vs => Readable depth v ∧ ItemsReadable depth vs

/-- Whether the texts of fields can be read within a depth. -/
def FieldsReadable : Nat → List (String × Value) → Prop
  | _, [] => True
  | depth, (_, v) :: rest => Readable depth v ∧ FieldsReadable depth rest

end

mutual

/-- What a value with each floating-point number read back from its own text is, if all of them can
be read. -/
def readBack? : Value → Option Value
  | .real x => read? (realText x)
  | .list items => (itemsReadBack? items).map .list
  | .object fields => (fieldsReadBack? fields).map .object
  | v => some v

/-- What items read back as. -/
def itemsReadBack? : List Value → Option (List Value)
  | [] => some []
  | v :: vs => (readBack? v).bind fun w ↦ (itemsReadBack? vs).map (w :: ·)

/-- What fields read back as. -/
def fieldsReadBack? : List (String × Value) → Option (List (String × Value))
  | [] => some []
  | (key, v) :: rest => (readBack? v).bind fun w ↦ (fieldsReadBack? rest).map ((key, w) :: ·)

end

/-! ### The first character of a text -/

/-- What neither is passed over before a value nor closes a list or an object. -/
def StartsValue (cs : List Char) : Prop :=
  ∃ c r, cs = c :: r ∧ c ∉ [' ', '\n', '\t', '\r', ']', '\x7d']

theorem StartsNumber.startsValue {cs : List Char} (h : StartsNumber cs) : StartsValue cs := by
  obtain ⟨c, r, rfl, hc⟩ := h
  refine ⟨c, r, rfl, fun hmem ↦ ?_⟩
  simp only [List.mem_cons, List.not_mem_nil, or_false] at hmem
  obtain rfl | rfl | rfl | rfl | rfl | rfl := hmem <;> revert hc <;> decide

theorem startsValue_compact (v : Value) : StartsValue (compact v).toList := by
  cases v with
  | null => exact ⟨'n', _, rfl, by decide⟩
  | bool b =>
    cases b with
    | true => exact ⟨'t', _, rfl, by decide⟩
    | false => exact ⟨'f', _, rfl, by decide⟩
  | int n => exact (startsNumber_toString n).startsValue
  | real x =>
    rw [compact]
    obtain h | h := startsNumber_realText x
    · exact h.startsValue
    · rw [h]
      exact ⟨'n', _, rfl, by decide⟩
  | text s => exact ⟨'"', _, toList_quote s, by decide⟩
  | plain s => exact ⟨'"', _, toList_quote s, by decide⟩
  | list items | openList items =>
    simp only [compact, String.toList_append]
    exact ⟨'[', _, rfl, by decide⟩
  | object fields | tagged tag v =>
    simp only [compact, String.toList_append]
    exact ⟨'\x7b', _, rfl, by decide⟩
  | keyedByNodes => exact ⟨'n', _, rfl, by decide⟩

theorem StartsValue.append {cs : List Char} (h : StartsValue cs) (rest : List Char) :
    StartsValue (cs ++ rest) := by
  obtain ⟨c, r, rfl, hc⟩ := h
  exact ⟨c, r ++ rest, rfl, hc⟩

theorem StartsValue.skipBlanks_eq {cs : List Char} (h : StartsValue cs) : skipBlanks cs = cs := by
  obtain ⟨c, r, rfl, hc⟩ := h
  apply List.dropWhile_cons_of_neg
  simp only [List.mem_cons, not_or] at hc
  simp [hc]

theorem StartsValue.ne_cons {cs : List Char} (h : StartsValue cs) {d : Char}
    (hd : d ∈ [' ', '\n', '\t', '\r', ']', '\x7d']) (r : List Char) : cs ≠ d :: r := by
  obtain ⟨c, r', rfl, hc⟩ := h
  intro heq
  rw [(List.cons.inj heq).1] at hc
  exact hc hd

/-! ### The texts of lists and objects -/

theorem toList_compact_list (items : List Value) :
    (compact (.list items)).toList = '[' :: ((compactItems items).toList ++ [']']) := by
  simp only [compact, String.toList_append]
  rfl

theorem toList_compact_object (fields : List (String × Value)) :
    (compact (.object fields)).toList = '\x7b' :: ((compactFields fields).toList ++ ['\x7d']) := by
  simp only [compact, String.toList_append]
  rfl

/-- Items are written one after another, with commas between them. -/
theorem toList_compactItems_cons (v : Value) (vs : List Value) :
    (compactItems (v :: vs)).toList =
      (compact v).toList ++ if vs = [] then [] else ',' :: (compactItems vs).toList := by
  cases vs with
  | nil => simp [compactItems]
  | cons w vs => simp [compactItems]

/-- Fields are written one after another, with commas between them. -/
theorem toList_compactFields_cons (key : String) (v : Value) (rest : List (String × Value)) :
    (compactFields ((key, v) :: rest)).toList =
      (quote key).toList ++ ':' :: ((compact v).toList ++
        if rest = [] then [] else ',' :: (compactFields rest).toList) := by
  cases rest with
  | nil => simp [compactFields]
  | cons f rest => simp [compactFields]

/-! ### Reading back -/

private theorem readValue?_bracket {cs : List Char} (h : StartsValue cs) (fuel depth : Nat) :
    readValue? (fuel + 1) (depth + 1) ('[' :: cs) =
      (readItems? fuel depth [] cs).map fun (items, r) ↦ (.list items, r) := by
  have hopen : skipBlanks ('[' :: cs) = '[' :: cs := rfl
  simp only [readValue?, hopen, h.skipBlanks_eq]
  split
  case h_1 => exact absurd rfl (h.ne_cons (by decide) _)
  case h_2 => rfl

private theorem readValue?_brace {cs : List Char} (h : StartsValue cs) (fuel depth : Nat) :
    readValue? (fuel + 1) (depth + 1) ('\x7b' :: cs) =
      (readFields? fuel depth [] cs).map fun (fields, r) ↦ (.object fields, r) := by
  have hopen : skipBlanks ('\x7b' :: cs) = '\x7b' :: cs := rfl
  simp only [readValue?, hopen, h.skipBlanks_eq]
  split
  case h_1 => exact absurd rfl (h.ne_cons (by decide) _)
  case h_2 => rfl

/-- A field is read as its key and then its value. -/
private theorem readFields?_quote (fuel depth : Nat) (read : List (String × Value)) (key : String)
    (cs : List Char) :
    readFields? (fuel + 1) depth read ((quote key).toList ++ ':' :: cs) =
      (readValue? fuel depth cs).bind fun (v, r) ↦
        match skipBlanks r with
        | ',' :: r => readFields? fuel depth ((key, v) :: read) r
        | '\x7d' :: r => some (((key, v) :: read).reverse, r)
        | _ => none := by
  rw [toList_quote, List.cons_append, List.append_assoc, List.singleton_append]
  change ((readString? _ [] (key.toList.flatMap quoteChar ++ '"' :: ':' :: cs)).bind _ :
    Option (List (String × Value) × List Char)) = _
  rw [readString?_quoted]
  rfl

/-- With this much fuel, values are read as they read back, whatever follows them. -/
def ReadsValues (fuel : Nat) : Prop :=
  ∀ (depth : Nat) (v : Value), Readable depth v → 2 * (compact v).toList.length < fuel →
    ∀ rest, Follows rest →
      readValue? fuel depth ((compact v).toList ++ rest) = (readBack? v).map (·, rest)

/-- With this much fuel, items are read as they read back, up to the bracket behind them. -/
def ReadsItems (fuel : Nat) : Prop :=
  ∀ (depth : Nat) (v : Value) (vs read : List Value) (rest : List Char),
    ItemsReadable depth (v :: vs) → 2 * (compactItems (v :: vs)).toList.length + 1 < fuel →
      readItems? fuel depth read ((compactItems (v :: vs)).toList ++ ']' :: rest) =
        (itemsReadBack? (v :: vs)).map fun ws ↦ (read.reverse ++ ws, rest)

/-- With this much fuel, fields are read as they read back, up to the brace behind them. -/
def ReadsFields (fuel : Nat) : Prop :=
  ∀ (depth : Nat) (f : String × Value) (fs read : List (String × Value)) (rest : List Char),
    FieldsReadable depth (f :: fs) → 2 * (compactFields (f :: fs)).toList.length + 1 < fuel →
      readFields? fuel depth read ((compactFields (f :: fs)).toList ++ '\x7d' :: rest) =
        (fieldsReadBack? (f :: fs)).map fun ws ↦ (read.reverse ++ ws, rest)

private theorem readsValues_succ {fuel : Nat} (hitems : ReadsItems fuel)
    (hfields : ReadsFields fuel) : ReadsValues (fuel + 1) := by
  intro depth v hv hfuel rest hrest
  cases v with
  | null => rfl
  | bool b => cases b <;> rfl
  | int n => exact readValue?_toString hv.1 hv.2 hrest fuel depth
  | real x => exact readValue?_realText x hrest fuel depth
  | text s =>
    rw [compact, toList_quote, List.cons_append, List.append_assoc]
    change ((readString? _ [] _).map _ : Option (Value × List Char)) = some (.text s, rest)
    rw [List.singleton_append, readString?_quoted]
    rfl
  | list items =>
    cases depth with
    | zero => exact hv.elim
    | succ depth =>
      rw [toList_compact_list] at hfuel ⊢
      cases items with
      | nil => rfl
      | cons v vs =>
        have hfuel' : 2 * (compactItems (v :: vs)).toList.length + 1 < fuel := by
          simp only [List.length_cons, List.length_append] at hfuel
          omega
        have hstart : StartsValue ((compactItems (v :: vs)).toList ++ ']' :: rest) := by
          rw [toList_compactItems_cons, List.append_assoc]
          exact (startsValue_compact v).append _
        rw [List.cons_append, List.append_assoc, List.singleton_append, readValue?_bracket hstart,
          hitems depth v vs [] rest hv hfuel', readBack?, Option.map_map, Option.map_map]
        rfl
  | object fields =>
    cases depth with
    | zero => exact hv.elim
    | succ depth =>
      rw [toList_compact_object] at hfuel ⊢
      cases fields with
      | nil => rfl
      | cons f fs =>
        have hfuel' : 2 * (compactFields (f :: fs)).toList.length + 1 < fuel := by
          simp only [List.length_cons, List.length_append] at hfuel
          omega
        have hstart : StartsValue ((compactFields (f :: fs)).toList ++ '\x7d' :: rest) := by
          rw [toList_compactFields_cons, toList_quote]
          exact ⟨'"', _, rfl, by decide⟩
        rw [List.cons_append, List.append_assoc, List.singleton_append, readValue?_brace hstart,
          hfields depth f fs [] rest hv hfuel', readBack?, Option.map_map, Option.map_map]
        rfl
  | plain _ | openList _ | tagged _ _ | keyedByNodes => cases depth <;> exact hv.elim

private theorem readsItems_succ {fuel : Nat} (hvalues : ReadsValues fuel)
    (hitems : ReadsItems fuel) : ReadsItems (fuel + 1) := by
  intro depth v vs read rest hvs hfuel
  rw [toList_compactItems_cons, List.length_append] at hfuel
  rw [toList_compactItems_cons, List.append_assoc, readItems?]
  cases vs with
  | nil =>
    have hvalue := hvalues depth v hvs.1 (by omega) _ (follows_cons (Or.inr (Or.inl rfl)) rest)
    rw [if_pos rfl, List.nil_append, hvalue]
    cases hw : readBack? v with
    | none => simp [itemsReadBack?, hw]
    | some w => simp [itemsReadBack?, hw, skipBlanks]
  | cons v' vs =>
    rw [if_neg (List.cons_ne_nil v' vs), List.length_cons] at hfuel
    have hvalue := hvalues depth v hvs.1 (by omega) _
      (follows_cons (Or.inl rfl) ((compactItems (v' :: vs)).toList ++ ']' :: rest))
    rw [if_neg (List.cons_ne_nil v' vs), List.cons_append, hvalue, itemsReadBack?]
    cases readBack? v with
    | none => rfl
    | some w =>
      change readItems? fuel depth (w :: read) _ = _
      rw [hitems depth v' vs (w :: read) rest hvs.2 (by omega), Option.bind_some, Option.map_map]
      simp only [Function.comp_def, List.reverse_cons, List.append_assoc, List.singleton_append]

private theorem readsFields_succ {fuel : Nat} (hvalues : ReadsValues fuel)
    (hfields : ReadsFields fuel) : ReadsFields (fuel + 1) := by
  intro depth f fs read rest hfs hfuel
  obtain ⟨key, v⟩ := f
  rw [toList_compactFields_cons, List.length_append, List.length_cons, List.length_append] at hfuel
  rw [toList_compactFields_cons, List.append_assoc, List.cons_append, List.append_assoc,
    readFields?_quote]
  cases fs with
  | nil =>
    have hvalue := hvalues depth v hfs.1 (by omega) _ (follows_cons (Or.inr (Or.inr rfl)) rest)
    rw [if_pos rfl, List.nil_append, hvalue]
    cases hw : readBack? v with
    | none => simp [fieldsReadBack?, hw]
    | some w => simp [fieldsReadBack?, hw, skipBlanks]
  | cons f fs =>
    rw [if_neg (List.cons_ne_nil f fs), List.length_cons] at hfuel
    have hvalue := hvalues depth v hfs.1 (by omega) _
      (follows_cons (Or.inl rfl) ((compactFields (f :: fs)).toList ++ '\x7d' :: rest))
    rw [if_neg (List.cons_ne_nil f fs), List.cons_append, hvalue, fieldsReadBack?]
    cases readBack? v with
    | none => rfl
    | some w =>
      change readFields? fuel depth ((key, w) :: read) _ = _
      rw [hfields depth f fs ((key, w) :: read) rest hfs.2 (by omega), Option.bind_some,
        Option.map_map]
      simp only [Function.comp_def, List.reverse_cons, List.append_assoc, List.singleton_append]

/-- Values, items and fields are read as they read back. The induction follows the fuel of the
readers, which falls with every value, item and field. -/
theorem readsValues (fuel : Nat) : ReadsValues fuel ∧ ReadsItems fuel ∧ ReadsFields fuel := by
  induction fuel with
  | zero =>
    exact ⟨fun _ _ _ h ↦ absurd h (Nat.not_lt_zero _),
      fun _ _ _ _ _ _ h ↦ absurd h (Nat.not_lt_zero _),
      fun _ _ _ _ _ _ h ↦ absurd h (Nat.not_lt_zero _)⟩
  | succ fuel ih =>
    obtain ⟨hvalues, hitems, hfields⟩ := ih
    exact ⟨readsValues_succ hitems hfields, readsItems_succ hvalues hitems,
      readsFields_succ hvalues hfields⟩

/-- The text of a value that nests no deeper than a text may reads back as the value with its
floating-point numbers read back. -/
theorem read?_compact {v : Value} (hv : Readable 127 v) : read? (compact v) = readBack? v := by
  have hread := (readsValues (2 * (compact v).toList.length + 2)).1 127 v hv (by omega) []
    follows_nil
  rw [List.append_nil] at hread
  rw [read?]
  simp only [hread]
  cases readBack? v <;> rfl

end PipingAssembly.Json
