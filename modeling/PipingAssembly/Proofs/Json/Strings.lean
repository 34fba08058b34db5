import PipingAssembly.Json.Reader
import PipingAssembly.Json.Writer

/-!
# Texts between quotes

Every character is written in a form that reads back as that character alone, so a text between
quotes reads back as itself, whatever follows it.
-/

namespace PipingAssembly.Json

private theorem hexDigit?_digitChar :
    ∀ d, d < 16 → Text.hexDigit? (Nat.digitChar d) = some d := by
  decide

/-- The escape of a control character reads back. -/
theorem readUnicode?_hexPair {c : Char} (hc : c.toNat < 0x20) (rest : List Char) :
    readUnicode? ('0' :: '0' :: (hexPair c.toNat ++ rest)) = some (c, rest) := by
  have hhigh := hexDigit?_digitChar (c.toNat / 16) (by omega)
  have hlow := hexDigit?_digitChar (c.toNat % 16) (by omega)
  have hunit : hexUnit? ('0' :: '0' :: (hexPair c.toNat ++ rest)) = some (c.toNat, rest) := by
    have hzero : Text.hexDigit? '0' = some 0 := rfl
    have hvalue : ((0 * 16 + 0) * 16 + c.toNat / 16) * 16 + c.toNat % 16 = c.toNat := by omega
    rw [hexPair, List.cons_append, List.cons_append, List.nil_append]
    simp only [hexUnit?, hzero, hhigh, hlow, Option.bind_eq_bind, Option.bind_some, hvalue]
  have hscalar : c.toNat < 0xD800 ∨ 0xDFFF < c.toNat := Or.inl (by omega)
  simp only [readUnicode?, hunit, Option.bind_eq_bind, Option.bind_some, if_pos hscalar,
    Char.ofNat_toNat]

/-- One character takes one step to read back. -/
theorem readString?_quoteChar (fuel : Nat) (read : List Char) (c : Char) (rest : List Char) :
    readString? (fuel + 1) read (quoteChar c ++ rest) = readString? fuel (c :: read) rest := by
  unfold quoteChar
  split
  case h_8 hquote hbackslash _ _ _ _ _ =>
    split
    case isTrue hcontrol =>
      change readString? (fuel + 1) read
        ('\\' :: 'u' :: '0' :: '0' :: (hexPair c.toNat ++ rest)) = _
      rw [readString?, readUnicode?_hexPair hcontrol]
      rfl
    case isFalse hcontrol =>
      rw [List.singleton_append, readString?, if_neg]
      · exact not_or.mpr ⟨hbackslash, hcontrol⟩
      · exact hquote
      · exact fun _ hc _ ↦ hbackslash hc
      · exact fun _ _ hc _ ↦ hbackslash hc
  all_goals
    rw [List.cons_append, List.cons_append, List.nil_append, readString?]
    · rfl
    · decide

/-- A text and the quote behind it read back as the text. -/
theorem readString?_flatMap_quoteChar {fuel : Nat} {cs : List Char} (hfuel : cs.length < fuel)
    (read rest : List Char) :
    readString? fuel read (cs.flatMap quoteChar ++ '"' :: rest) =
      some (String.ofList (read.reverse ++ cs), rest) := by
  induction cs generalizing fuel read with
  | nil =>
    obtain ⟨fuel, rfl⟩ := Nat.exists_eq_succ_of_ne_zero (Nat.ne_zero_of_lt hfuel)
    rw [List.append_nil]
    rfl
  | cons c cs ih =>
    obtain ⟨fuel, rfl⟩ := Nat.exists_eq_succ_of_ne_zero (Nat.ne_zero_of_lt hfuel)
    rw [List.flatMap_cons, List.append_assoc, readString?_quoteChar,
      ih (Nat.lt_of_succ_lt_succ hfuel), List.reverse_cons, List.append_assoc]
    rfl

theorem quoteChar_ne_nil (c : Char) : quoteChar c ≠ [] := by
  unfold quoteChar
  split <;> try exact List.cons_ne_nil _ _
  split <;> exact List.cons_ne_nil _ _

theorem length_le_flatMap_quoteChar (cs : List Char) :
    cs.length ≤ (cs.flatMap quoteChar).length := by
  induction cs with
  | nil => exact Nat.le_refl _
  | cons c cs ih =>
    have hpos := List.length_pos_iff.mpr (quoteChar_ne_nil c)
    rw [List.flatMap_cons, List.length_append, List.length_cons]
    omega

theorem toList_quote (s : String) :
    (quote s).toList = '"' :: (s.toList.flatMap quoteChar ++ ['"']) := by
  simp only [quote, String.toList_append, String.toList_ofList]
  rfl

/-- A text between quotes reads back as itself once the opening quote has been read. -/
theorem readString?_quoted (s : String) (rest : List Char) :
    readString? ((s.toList.flatMap quoteChar ++ '"' :: rest).length + 1) []
        (s.toList.flatMap quoteChar ++ '"' :: rest) = some (s, rest) := by
  have hle := length_le_flatMap_quoteChar s.toList
  rw [readString?_flatMap_quoteChar, List.reverse_nil, List.nil_append, String.ofList_toList]
  rw [List.length_append]
  omega

end PipingAssembly.Json
