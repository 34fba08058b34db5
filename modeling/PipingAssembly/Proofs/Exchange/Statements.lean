import PipingAssembly.Proofs.Exchange.Segments

/-!
# The grammar of statements

A statement is a number, an equals sign, one part or several parts in parentheses, and a semicolon.
A part is a kind with its parameters. Parameters stand in parentheses with commas between them, in a
part as in a list and in a typed value, so that they nest to any depth. What is read from all of
some tokens is exactly what they render in this grammar, and a file of statements is read back one
after the other.
-/

namespace PipingAssembly.Exchange

/-- Parameters in parentheses, with commas between them. -/
def enclosed (ps : List Param) : List Token :=
  .openParen :: ([Token.comma].intercalate (ps.map Param.tokens) ++ [.closeParen])

/-- The tokens of a statement with something between its equals sign and its semicolon. -/
def statementTokens (id : EntityId) (body : List Token) : List Token :=
  .reference id :: .equals :: (body ++ [.semicolon])

/-- An entity as a simple one if it has a single part, and as a complex one otherwise. -/
def Entity.tokens (e : Entity) : List Token :=
  statementTokens e.id <|
    match e.parts with
    | [part] => partTokens part
    | parts => .openParen :: partsTokens parts

/-! ### Commas -/

/-- Each parameter behind the first one has a comma in front of it. -/
theorem tokens_append_tailTokens (p : Param) (ps : List Param) :
    p.tokens ++ tailTokens ps =
      [Token.comma].intercalate ((p :: ps).map Param.tokens) ++ [.closeParen] := by
  induction ps generalizing p with
  | nil => simp [tailTokens]
  | cons q ps ih =>
    rw [tailTokens, ih q, List.map_cons, List.map_cons, List.map_cons, List.intercalate_cons_cons]
    simp

theorem openParen_cons_listTokens (ps : List Param) :
    .openParen :: listTokens ps = enclosed ps := by
  cases ps with
  | nil => rfl
  | cons p ps => rw [listTokens, tokens_append_tailTokens, enclosed]

@[simp] theorem Param.tokens_list (ps : List Param) : (Param.list ps).tokens = enclosed ps := by
  rw [Param.tokens, openParen_cons_listTokens]

@[simp] theorem Param.tokens_typed (name : String) (ps : List Param) :
    (Param.typed name ps).tokens = .word name :: enclosed ps := by
  rw [Param.tokens, openParen_cons_listTokens]

theorem partTokens_eq (part : String × List Param) :
    partTokens part = .word part.1 :: enclosed part.2 := by
  rw [partTokens, openParen_cons_listTokens]

/-! ### Renderings -/

/-- An entity is spelled as a simple one if it has a single part, and as a complex one. -/
theorem spells_iff {ts : List Token} {e : Entity} :
    Spells ts e ↔
      (∃ part, e.parts = [part] ∧ ts = statementTokens e.id (partTokens part)) ∨
        (e.parts ≠ [] ∧ ts = statementTokens e.id (.openParen :: partsTokens e.parts)) := by
  constructor
  · rintro ⟨body, hbody, hne, rfl⟩
    generalize hparts : e.parts = parts at hbody hne
    cases hbody with
    | simple part => exact Or.inl ⟨part, rfl, rfl⟩
    | complex => exact Or.inr ⟨hne, rfl⟩
  · rintro (⟨part, hpart, rfl⟩ | ⟨hne, rfl⟩)
    · exact ⟨_, hpart ▸ .simple part, hpart ▸ List.cons_ne_nil _ _, rfl⟩
    · exact ⟨_, .complex e.parts, hne, rfl⟩

/-- The tokens of an entity spell it if it has a part at all. -/
theorem spells_tokens {e : Entity} : Spells e.tokens e ↔ e.parts ≠ [] := by
  constructor
  · rintro ⟨-, -, hne, -⟩
    exact hne
  · intro hne
    rw [spells_iff, Entity.tokens]
    split
    · next part hpart => exact Or.inl ⟨part, hpart, rfl⟩
    · exact Or.inr ⟨hne, rfl⟩

/-- The grammar of statements is exact: an entity is read from all of some tokens if and only if
these are a number, an equals sign, the one part of the entity or all its parts in parentheses, and
a semicolon. So an entity is read back from its tokens whenever it has a part. -/
theorem reads_all_iff_rendering (ts : List Token) (e : Entity) :
    ((∃ h, statement? ts = some (e, ⟨[], h⟩)) ↔
      (∃ kind ps, e.parts = [(kind, ps)] ∧
        ts = statementTokens e.id (.word kind :: enclosed ps)) ∨
      (e.parts ≠ [] ∧ ts = statementTokens e.id (.openParen ::
        (e.parts.flatMap (fun part ↦ .word part.1 :: enclosed part.2) ++ [.closeParen])))) ∧
    ((∃ h, statement? e.tokens = some (e, ⟨[], h⟩)) ↔ e.parts ≠ []) := by
  refine ⟨?_, reads_all_iff_spells.trans spells_tokens⟩
  rw [reads_all_iff_spells, spells_iff]
  simp only [partsTokens, funext partTokens_eq, Prod.exists]

/-! ### Files -/

/-- Entities with parts are read back in order from their tokens. -/
theorem readStatements_flatMap_tokens {es : List Entity} (h : ∀ e ∈ es, e.parts ≠ []) :
    readStatements (es.flatMap Entity.tokens) = es := by
  induction es with
  | nil => exact readStatements_of_notMem List.not_mem_nil
  | cons e es ih =>
    have hspells : Spells e.tokens e := spells_tokens.mpr (h e List.mem_cons_self)
    obtain ⟨front, hfront, htokens⟩ := hspells.eq_append_semicolon
    have hentity : segmentEntity? (front ++ [.semicolon]) = some e :=
      segmentEntity?_eq_some.mpr (htokens ▸ hspells)
    rw [List.flatMap_cons, htokens, List.append_assoc, List.singleton_append,
      readStatements_append hfront, hentity, ih fun f hf ↦ h f (List.mem_cons_of_mem e hf)]
    rfl

/-- A text with their tokens has these entities, in the order of their numbers. -/
theorem readEntities_of_tokens {s : String} {es : List Entity} (h : ∀ e ∈ es, e.parts ≠ [])
    (htokens : tokens s.toList = es.flatMap Entity.tokens) : readEntities s = sortEntities es := by
  rw [readEntities, htokens, readStatements_flatMap_tokens h]

end PipingAssembly.Exchange
