import PipingAssembly.Proofs.Exchange.Lexing
import PipingAssembly.Proofs.Exchange.Statements

/-!
# Texts of entities

Entities are written one after the other, each with its number, an equals sign, its parts and a
semicolon, and texts in quotes with every quote doubled. Such a file is read back as the entities,
whatever is in their texts. Numbers are left out, since a number has many spellings.
-/

namespace PipingAssembly.Exchange

/-- The characters of some tokens. -/
def written (ts : List Token) : List Char := ts.flatMap Token.chars

/-- The text of a file with some entities. -/
def fileText (es : List Entity) : String := String.ofList (written (es.flatMap Entity.tokens))

example : fileText [⟨1, [("A", [.text "it's", .list [.reference 2]])]⟩] = "#1=A('it''s',(#2));" := by
  decide +kernel

mutual

/-- Whether a parameter can be written: at no depth there is a number or a name that is none. -/
def Param.isLegible : Param → Bool
  | .text _ => true
  | .reference _ => true
  | .number _ => false
  | .enumeration s => isLiteralName s
  | .omitted => true
  | .list items => areLegible items
  | .typed name items => isTypeName name && areLegible items

/-- Whether some parameters can be written. -/
def areLegible : List Param → Bool
  | [] => true
  | p :: ps => p.isLegible && areLegible ps

end

/-- Whether an entity can be written: it has a part, and its kinds and parameters can be written. -/
def Entity.isLegible (e : Entity) : Bool :=
  !e.parts.isEmpty && e.parts.all fun part ↦ isTypeName part.1 && areLegible part.2

theorem Entity.ne_nil_of_isLegible {e : Entity} (h : e.isLegible = true) : e.parts ≠ [] := by
  rw [isLegible, Bool.and_eq_true, Bool.not_eq_true'] at h
  exact List.isEmpty_eq_false_iff.mp h.1

/-! ### Reading tokens one after the other -/

section Written

variable {ts us : List Token} {t : Token} {rest : List Char}

theorem written_append (ts us : List Token) : written (ts ++ us) = written ts ++ written us :=
  List.flatMap_append

theorem written_cons (t : Token) (ts : List Token) : written (t :: ts) = t.chars ++ written ts :=
  List.flatMap_cons

/-- A token is read back in front of others that are read back. -/
theorem run_written_cons (ht : t.isLegible = true)
    (hmark : t.isMark = true ∨ OpensWithMark (written ts ++ rest))
    (hts : LexState.between.run (written ts ++ rest) = ts ++ LexState.between.run rest) :
    LexState.between.run (written (t :: ts) ++ rest) = t :: ts ++ LexState.between.run rest := by
  rw [written_cons, List.append_assoc, run_chars ht hmark, hts, List.cons_append]

/-- Tokens are read back in front of others that are read back. -/
theorem run_written_append
    (hts : LexState.between.run (written ts ++ (written us ++ rest)) =
      ts ++ LexState.between.run (written us ++ rest))
    (hus : LexState.between.run (written us ++ rest) = us ++ LexState.between.run rest) :
    LexState.between.run (written (ts ++ us) ++ rest) = ts ++ us ++ LexState.between.run rest := by
  rw [written_append, List.append_assoc, hts, hus, List.append_assoc]

theorem opensWithMark_tailTokens (ps : List Param) (rest : List Char) :
    OpensWithMark (written (tailTokens ps) ++ rest) := by
  cases ps with
  | nil => exact ⟨')', by decide, rest, rfl⟩
  | cons p ps => exact ⟨',', by decide, written (p.tokens ++ tailTokens ps) ++ rest, rfl⟩

/-- Behind a name or a number there is the mark of what follows. -/
theorem opensWithMark_cons (ht : t = .openParen ∨ t = .equals ∨ t = .semicolon) (ts : List Token)
    (rest : List Char) : OpensWithMark (written (t :: ts) ++ rest) := by
  obtain rfl | rfl | rfl := ht
  · exact ⟨'(', by decide, written ts ++ rest, rfl⟩
  · exact ⟨'=', by decide, written ts ++ rest, rfl⟩
  · exact ⟨';', by decide, written ts ++ rest, rfl⟩

end Written

mutual

/-- A parameter is read back in front of a mark, however deep it is. -/
theorem run_param (p : Param) (h : p.isLegible = true) {rest : List Char}
    (hrest : OpensWithMark rest) :
    LexState.between.run (written p.tokens ++ rest) = p.tokens ++ LexState.between.run rest := by
  cases p with
  | number x => cases h
  | list items =>
    rw [Param.isLegible] at h
    exact run_written_cons rfl (Or.inl rfl) (run_listTokens items h rest)
  | typed name items =>
    rw [Param.isLegible, Bool.and_eq_true] at h
    exact run_written_cons h.1 (Or.inr (opensWithMark_cons (Or.inl rfl) _ rest))
      (run_written_cons rfl (Or.inl rfl) (run_listTokens items h.2 rest))
  | enumeration s => exact run_written_cons (by rwa [Param.isLegible] at h) (Or.inr hrest) rfl
  | text s | reference id | omitted => exact run_written_cons rfl (Or.inr hrest) rfl

/-- The parameters of a list and its closing parenthesis are read back, whatever follows. -/
theorem run_listTokens (ps : List Param) (h : areLegible ps = true) (rest : List Char) :
    LexState.between.run (written (listTokens ps) ++ rest) =
      listTokens ps ++ LexState.between.run rest := by
  cases ps with
  | nil => exact run_written_cons rfl (Or.inl rfl) rfl
  | cons p ps =>
    rw [areLegible, Bool.and_eq_true] at h
    rw [listTokens]
    exact run_written_append (run_param p h.1 (opensWithMark_tailTokens ps rest))
      (run_tailTokens ps h.2 rest)

/-- So is what follows the first parameter of a list. -/
theorem run_tailTokens (ps : List Param) (h : areLegible ps = true) (rest : List Char) :
    LexState.between.run (written (tailTokens ps) ++ rest) =
      tailTokens ps ++ LexState.between.run rest := by
  cases ps with
  | nil => exact run_written_cons rfl (Or.inl rfl) rfl
  | cons p ps =>
    rw [areLegible, Bool.and_eq_true] at h
    rw [tailTokens]
    exact run_written_cons rfl (Or.inl rfl)
      (run_written_append (run_param p h.1 (opensWithMark_tailTokens ps rest))
        (run_tailTokens ps h.2 rest))

end

/-! ### Entities -/

theorem run_part {part : String × List Param} (hkind : isTypeName part.1 = true)
    (hparams : areLegible part.2 = true) (rest : List Char) :
    LexState.between.run (written (partTokens part) ++ rest) =
      partTokens part ++ LexState.between.run rest :=
  run_written_cons hkind (Or.inr (opensWithMark_cons (Or.inl rfl) _ rest))
    (run_written_cons rfl (Or.inl rfl) (run_listTokens part.2 hparams rest))

theorem run_parts {parts : List (String × List Param)}
    (h : ∀ part ∈ parts, isTypeName part.1 = true ∧ areLegible part.2 = true)
    (rest : List Char) :
    LexState.between.run (written (partsTokens parts) ++ rest) =
      partsTokens parts ++ LexState.between.run rest := by
  induction parts with
  | nil => exact run_written_cons rfl (Or.inl rfl) rfl
  | cons part parts ih =>
    obtain ⟨hkind, hparams⟩ := h part List.mem_cons_self
    rw [partsTokens, List.flatMap_cons, List.append_assoc]
    exact run_written_append (run_part hkind hparams _)
      (ih fun p hp ↦ h p (List.mem_cons_of_mem part hp))

/-- An entity is read back from its text, whatever follows. -/
theorem run_entity {e : Entity} (h : e.isLegible = true) (rest : List Char) :
    LexState.between.run (written e.tokens ++ rest) = e.tokens ++ LexState.between.run rest := by
  rw [Entity.isLegible, Bool.and_eq_true, List.all_eq_true] at h
  have hparts : ∀ part ∈ e.parts, isTypeName part.1 = true ∧ areLegible part.2 = true :=
    fun part hpart ↦ Bool.and_eq_true_iff.mp (h.2 part hpart)
  have hsemicolon : LexState.between.run (written [.semicolon] ++ rest) =
      [.semicolon] ++ LexState.between.run rest := run_written_cons rfl (Or.inl rfl) rfl
  rw [Entity.tokens, statementTokens]
  refine run_written_cons rfl (Or.inr (opensWithMark_cons (Or.inr (Or.inl rfl)) _ rest))
    (run_written_cons rfl (Or.inl rfl) (run_written_append ?_ hsemicolon))
  split
  · next part hpart =>
    obtain ⟨hkind, hparams⟩ := hparts part (hpart ▸ List.mem_cons_self)
    exact run_part hkind hparams _
  · exact run_written_cons rfl (Or.inl rfl) (run_parts hparts _)

/-- The tokens of a file are those of its entities: each text is one token, whatever is in it. -/
theorem tokens_fileText {es : List Entity} (h : ∀ e ∈ es, e.isLegible = true) :
    tokens (fileText es).toList = es.flatMap Entity.tokens := by
  rw [fileText, String.toList_ofList, tokens]
  induction es with
  | nil => rfl
  | cons e es ih =>
    rw [List.flatMap_cons, written_append, run_entity (h e List.mem_cons_self),
      ih fun f hf ↦ h f (List.mem_cons_of_mem e hf)]

/-- A file has its entities, in the order of their numbers. -/
theorem readEntities_eq_sortEntities {es : List Entity} (h : ∀ e ∈ es, e.isLegible = true) :
    readEntities (fileText es) = sortEntities es :=
  readEntities_of_tokens (fun e he ↦ Entity.ne_nil_of_isLegible (h e he)) (tokens_fileText h)

/-- Entities with different numbers are read back from their text, in the order of their numbers: of
each text just what is between its quotes, with signs of any kind, and nothing else from it. -/
theorem readEntities_fileText {es : List Entity} (hlegible : ∀ e ∈ es, e.isLegible = true)
    (hids : (es.map (·.id)).Nodup) :
    Ordered (readEntities (fileText es)) ∧ (readEntities (fileText es)).Perm es ∧
      (Ordered es → readEntities (fileText es) = es) ∧
      tokens (fileText es).toList = es.flatMap Entity.tokens := by
  rw [readEntities_eq_sortEntities hlegible]
  exact ⟨ordered_sortEntities es, sortEntities_perm hids, sortEntities_of_ordered,
    tokens_fileText hlegible⟩

/-- Two entities in the wrong order, with a text that looks like the end of its entity and more. -/
private def noteEntities : List Entity :=
  [⟨7, [("NOTE", [.text "a');/*\n#1=''", .list [.reference 7, .typed "LABEL" [.text "'"]],
    .enumeration "T", .omitted])]⟩,
   ⟨3, [("A_1", []), ("_B", [.list []])]⟩]

/-- They are read back, the smaller number in front. -/
theorem readEntities_fileText_notes :
    (∀ e ∈ noteEntities, e.isLegible = true) ∧ (noteEntities.map (·.id)).Nodup ∧
      Ordered (readEntities (fileText noteEntities)) ∧
      (readEntities (fileText noteEntities)).Perm noteEntities :=
  have hlegible : ∀ e ∈ noteEntities, e.isLegible = true := by decide +kernel
  have hids : (noteEntities.map (·.id)).Nodup := by decide
  have hread := readEntities_fileText hlegible hids
  ⟨hlegible, hids, hread.1, hread.2.1⟩

end PipingAssembly.Exchange
