import PipingAssembly.Exchange.Token
import PipingAssembly.Proofs.Decimal.Numerals

/-!
# Tokens and their characters

Each token but a number is read back from its characters. A mark, an enumeration with both dots and
an omitted value end by themselves. A name, a reference and a text end before a mark: no mark can go
on any of them, and nothing in the quotes of a text ends it, since its own quotes are doubled.
-/

namespace PipingAssembly.Exchange

/-- The marks between other tokens. -/
def markChars : List Char := ['(', ')', ',', '=', ';']

/-- Some characters begin with a mark. -/
def OpensWithMark (cs : List Char) : Prop := ∃ c ∈ markChars, ∃ rest, cs = c :: rest

/-- The name of a type: letters, digits and underscores, and no digit in front. -/
def isTypeName (s : String) : Bool :=
  match s.toList with
  | [] => false
  | c :: cs => (c.isAlpha || c == '_') && cs.all isNameChar

/-- The name of an enumeration literal: letters, digits and underscores, and a letter in front. -/
def isLiteralName (s : String) : Bool :=
  match s.toList with
  | [] => false
  | c :: cs => c.isAlpha && cs.all isNameChar

/-- A character of a text in quotes: a quote is written twice. -/
def quotedChar (c : Char) : List Char := if c = '\'' then ['\'', '\''] else [c]

namespace Token

/-- The characters of a token. A number, and what is no token of its own, is given none here. -/
def chars : Token → List Char
  | reference id => '#' :: (Decimal.natText id.toNat).toList
  | word s => s.toList
  | text s => '\'' :: (s.toList.flatMap quotedChar ++ ['\''])
  | enumeration s => '.' :: (s.toList ++ ['.'])
  | omitted => ['$']
  | openParen => ['(']
  | closeParen => [')']
  | comma => [',']
  | equals => ['=']
  | semicolon => [';']
  | number _ => []
  | other => []

/-- Whether a token is a mark. -/
def isMark : Token → Bool
  | openParen | closeParen | comma | equals | semicolon => true
  | _ => false

/-- Whether a token has characters that it can be read back from. -/
def isLegible : Token → Bool
  | word s => isTypeName s
  | enumeration s => isLiteralName s
  | number _ | other => false
  | _ => true

end Token

/-! ### Steps of the lexer -/

namespace LexState

variable {cs rest : List Char} {c : Char}

/-- A character that does not go on a token ends it and is read as between tokens. -/
theorem run_of_step_eq {s : LexState} (h : s.step c = s.endBefore c) (cs : List Char) :
    s.run (c :: cs) = s.finish ++ between.run (c :: cs) := by
  rw [run, h, endBefore, List.append_assoc]
  rfl

/-- Characters that go on a token are all taken into it. -/
theorem run_append (state : List Char → LexState) {goesOn : Char → Bool}
    (hstep : ∀ read c, goesOn c = true → (state read).step c = ([], state (c :: read)))
    (hcs : ∀ c ∈ cs, goesOn c = true) (read rest : List Char) :
    (state read).run (cs ++ rest) = (state (cs.reverse ++ read)).run rest := by
  induction cs generalizing read with
  | nil => rfl
  | cons c cs ih =>
    rw [List.cons_append, run, hstep read c (hcs c List.mem_cons_self), List.nil_append,
      ih (fun d hd ↦ hcs d (List.mem_cons_of_mem c hd)), List.reverse_cons, List.append_assoc]
    rfl

/-- Nothing in the quotes of a text ends it. -/
theorem run_text (read : List Char) :
    (text read).run (cs.flatMap quotedChar ++ '\'' :: rest) =
      (textQuote (cs.reverse ++ read)).run rest := by
  induction cs generalizing read with
  | nil => rfl
  | cons c cs ih =>
    have hchar : (text read).run (quotedChar c ++ (cs.flatMap quotedChar ++ '\'' :: rest)) =
        (text (c :: read)).run (cs.flatMap quotedChar ++ '\'' :: rest) := by
      by_cases hc : c = '\''
      · subst hc
        rfl
      · rw [quotedChar, if_neg hc, List.singleton_append, run, step, if_neg hc]
        rfl
    rw [List.flatMap_cons, List.append_assoc, hchar, ih, List.reverse_cons, List.append_assoc]
    rfl

/-- A letter begins a name. -/
theorem begin_of_isAlpha (h : c.isAlpha = true) : begin c = ([], word [c]) := by
  have hne : ∀ d : Char, d.isAlpha = false → c ≠ d := by
    rintro d hd rfl
    rw [h] at hd
    cases hd
  have hrange : (65 ≤ c.toNat ∧ c.toNat ≤ 90) ∨ (97 ≤ c.toNat ∧ c.toNat ≤ 122) := by
    change (decide (c.val ≥ 65 ∧ c.val ≤ 90) || (decide (c.val ≥ 97) && decide (c.val ≤ 122))) =
      true at h
    simpa [UInt32.le_iff_toNat_le] using h
  have hblank : ¬ Text.isBlank c = true := by
    rw [Text.isBlank, if_pos (by omega)]
    simp only [Bool.or_eq_true, beq_iff_eq, Bool.and_eq_true, decide_eq_true_eq, not_or, not_and]
    exact ⟨hne ' ' (by decide), fun _ ↦ by omega⟩
  have hdigit : ¬ c.isDigit = true := by
    simp only [Char.isDigit, Bool.and_eq_true, decide_eq_true_eq, UInt32.le_iff_toNat_le, ge_iff_le]
    change ¬ (48 ≤ c.toNat ∧ c.toNat ≤ 57)
    omega
  rw [begin, if_neg hblank, if_neg (hne '/' (by decide)), if_neg (hne '#' (by decide)),
    if_neg (hne '\'' (by decide)), if_neg (hne '.' (by decide)),
    if_neg (not_or.mpr ⟨hdigit, not_or.mpr ⟨hne '-' (by decide), hne '+' (by decide)⟩⟩),
    if_pos (Or.inl h)]

end LexState

/-! ### Names, numerals and marks -/

theorem isTypeName_iff {s : String} :
    isTypeName s = true ↔ ∃ c cs, s.toList = c :: cs ∧ (c.isAlpha = true ∨ c = '_') ∧
      ∀ d ∈ cs, isNameChar d = true := by
  rw [isTypeName]
  cases s.toList with
  | nil => simp
  | cons c cs => simp [and_assoc]

theorem isLiteralName_iff {s : String} :
    isLiteralName s = true ↔ ∃ c cs, s.toList = c :: cs ∧ c.isAlpha = true ∧
      ∀ d ∈ cs, isNameChar d = true := by
  rw [isLiteralName]
  cases s.toList with
  | nil => simp
  | cons c cs => simp [and_assoc]

theorem referenceToken_natText (id : EntityId) :
    referenceToken (Decimal.natText id.toNat).toList.reverse = .reference id := by
  rw [referenceToken, List.reverse_reverse, Decimal.readNat?_natText]
  dsimp only
  rw [if_pos id.toNat_lt, UInt64.ofNat_toNat]

/-- The characters of a name as the lexer keeps them, the last one first. -/
theorem ofList_reverse_append_singleton {s : String} {c : Char} {cs : List Char}
    (h : s.toList = c :: cs) : String.ofList (cs.reverse ++ [c]).reverse = s := by
  rw [List.reverse_append, List.reverse_reverse, List.reverse_singleton, List.singleton_append, ← h,
    String.ofList_toList]

/-- No mark goes on a name, a reference or a text. -/
theorem ends_of_mem_markChars {c : Char} (h : c ∈ markChars) :
    ¬ isNameChar c = true ∧ ¬ c.isDigit = true ∧ c ≠ '\'' := by
  simp only [markChars, List.mem_cons, List.not_mem_nil, or_false] at h
  obtain rfl | rfl | rfl | rfl | rfl := h <;> decide

/-! ### Tokens -/

section Tokens

variable {rest : List Char}

theorem run_reference (id : EntityId) (hrest : OpensWithMark rest) :
    LexState.between.run ((Token.reference id).chars ++ rest) =
      .reference id :: LexState.between.run rest := by
  obtain ⟨c, hc, rest, rfl⟩ := hrest
  let digits := (Decimal.natText id.toNat).toList
  have hdigits : (LexState.reference []).run (digits ++ c :: rest) =
      (LexState.reference (digits.reverse ++ [])).run (c :: rest) :=
    LexState.run_append .reference (fun _ _ hd ↦ if_pos hd)
      (fun d hd ↦ Decimal.isDigit_of_mem_natText hd) [] _
  have hend : (LexState.reference digits.reverse).step c = (LexState.reference _).endBefore c :=
    if_neg (ends_of_mem_markChars hc).2.1
  calc LexState.between.run ((Token.reference id).chars ++ c :: rest)
      = (LexState.reference []).run (digits ++ c :: rest) := rfl
    _ = (LexState.reference digits.reverse).finish ++ LexState.between.run (c :: rest) := by
      rw [hdigits, List.append_nil, LexState.run_of_step_eq hend]
    _ = .reference id :: LexState.between.run (c :: rest) := by
      rw [LexState.finish, referenceToken_natText]
      rfl

theorem run_word {s : String} (h : isTypeName s = true) (hrest : OpensWithMark rest) :
    LexState.between.run ((Token.word s).chars ++ rest) =
      .word s :: LexState.between.run rest := by
  obtain ⟨c, hc, rest, rfl⟩ := hrest
  obtain ⟨d, ds, hs, hd, hds⟩ := isTypeName_iff.mp h
  have hbegin : LexState.begin d = ([], .word [d]) := by
    cases hd with
    | inl hd => exact LexState.begin_of_isAlpha hd
    | inr hd =>
      subst hd
      rfl
  have hname : (LexState.word [d]).run (ds ++ c :: rest) =
      (LexState.word (ds.reverse ++ [d])).run (c :: rest) :=
    LexState.run_append .word (fun _ _ he ↦ if_pos he) hds [d] _
  have hend : (LexState.word (ds.reverse ++ [d])).step c = (LexState.word _).endBefore c :=
    if_neg (ends_of_mem_markChars hc).1
  calc LexState.between.run ((Token.word s).chars ++ c :: rest)
      = (LexState.begin d).1 ++ (LexState.begin d).2.run (ds ++ c :: rest) := by
        rw [Token.chars, hs]
        rfl
    _ = (LexState.word (ds.reverse ++ [d])).finish ++ LexState.between.run (c :: rest) := by
      rw [hbegin, List.nil_append, hname, LexState.run_of_step_eq hend]
    _ = .word s :: LexState.between.run (c :: rest) := by
      rw [LexState.finish, ofList_reverse_append_singleton hs]
      rfl

theorem run_quoted (s : String) (hrest : OpensWithMark rest) :
    LexState.between.run ((Token.text s).chars ++ rest) =
      .text s :: LexState.between.run rest := by
  obtain ⟨c, hc, rest, rfl⟩ := hrest
  have hend : (LexState.textQuote s.toList.reverse).step c = (LexState.textQuote _).endBefore c :=
    if_neg (ends_of_mem_markChars hc).2.2
  calc LexState.between.run ((Token.text s).chars ++ c :: rest)
      = (LexState.text []).run (s.toList.flatMap quotedChar ++ '\'' :: c :: rest) := by
        rw [Token.chars, List.cons_append, List.append_assoc]
        rfl
    _ = (LexState.textQuote s.toList.reverse).finish ++ LexState.between.run (c :: rest) := by
      rw [LexState.run_text, List.append_nil, LexState.run_of_step_eq hend]
    _ = .text s :: LexState.between.run (c :: rest) := by
      rw [LexState.finish, List.reverse_reverse, String.ofList_toList]
      rfl

/-- The closing dot ends an enumeration, so that anything may follow. -/
theorem run_enumeration {s : String} (h : isLiteralName s = true) (rest : List Char) :
    LexState.between.run ((Token.enumeration s).chars ++ rest) =
      .enumeration s :: LexState.between.run rest := by
  obtain ⟨d, ds, hs, hd, hds⟩ := isLiteralName_iff.mp h
  have hdot : LexState.dot.step d = ([], .enumeration [d]) := if_pos hd
  have hname : (LexState.enumeration [d]).run (ds ++ '.' :: rest) =
      (LexState.enumeration (ds.reverse ++ [d])).run ('.' :: rest) :=
    LexState.run_append .enumeration (fun _ _ he ↦ if_pos he) hds [d] _
  calc LexState.between.run ((Token.enumeration s).chars ++ rest)
      = (LexState.dot.step d).1 ++ (LexState.dot.step d).2.run (ds ++ '.' :: rest) := by
        rw [Token.chars, hs, List.cons_append, List.cons_append, List.cons_append,
          List.append_assoc]
        rfl
    _ = (LexState.enumeration (ds.reverse ++ [d])).finish ++ LexState.between.run rest := by
      rw [hdot, List.nil_append, hname]
      rfl
    _ = .enumeration s :: LexState.between.run rest := by
      rw [LexState.finish, ofList_reverse_append_singleton hs]
      rfl

/-- A legible token is read back from its characters, whatever follows if it is a mark, and in front
of a mark otherwise. -/
theorem run_chars {t : Token} (h : t.isLegible = true)
    (hrest : t.isMark = true ∨ OpensWithMark rest) :
    LexState.between.run (t.chars ++ rest) = t :: LexState.between.run rest := by
  cases t with
  | openParen | closeParen | comma | equals | semicolon | omitted => rfl
  | number x | other => cases h
  | reference id => exact run_reference id (hrest.resolve_left Bool.false_ne_true)
  | word s => exact run_word h (hrest.resolve_left Bool.false_ne_true)
  | text s => exact run_quoted s (hrest.resolve_left Bool.false_ne_true)
  | enumeration s => exact run_enumeration h rest

end Tokens

end PipingAssembly.Exchange
