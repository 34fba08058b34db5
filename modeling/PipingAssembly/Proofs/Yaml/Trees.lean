import PipingAssembly.Proofs.Decimal.Numerals
import PipingAssembly.Proofs.Yaml.Styles

/-!
# Lexing the lines of a tree

A tree of texts and whole numbers under field names is written in block style. Its lines are lexed
as the tokens of its fields, each block between its opening and its end.
-/

namespace PipingAssembly.Yaml

/-! ### Trees -/

/-- Whether a text is a field name: a short one of letters and underscores that is written without
quotes. -/
structure IsFieldKey (s : String) : Prop where
  key : IsKey s.toList
  short : isShortKey s = true
  style : scalarStyle true s = .plain

theorem isFieldKey_iff {s : String} : IsFieldKey s ↔
    (s.toList.all isKeyChar = true ∧ s.toList ≠ [] ∧ s.toList.length ≤ 1024) ∧
      isShortKey s = true ∧ scalarStyle true s = .plain := by
  rw [List.all_eq_true]
  constructor
  · rintro ⟨⟨hletters, hne, hlength⟩, hshort, hstyle⟩
    exact ⟨⟨hletters, hne, hlength⟩, hshort, hstyle⟩
  · rintro ⟨⟨hletters, hne, hlength⟩, hshort, hstyle⟩
    exact ⟨⟨hletters, hne, hlength⟩, hshort, hstyle⟩

instance (s : String) : Decidable (IsFieldKey s) := decidable_of_iff' _ isFieldKey_iff

mutual

/-- Whether a value is a tree of texts and whole numbers under field names. -/
def IsTree : Value → Prop
  | .text s => IsTrimmed s
  | .int n => 0 ≤ n
  | .object fields => fields ≠ [] ∧ AreTrees fields
  | _ => False

/-- Whether fields have names and trees. -/
def AreTrees : List (String × Value) → Prop
  | [] => True
  | (key, v) :: rest => IsFieldKey key ∧ IsTree v ∧ AreTrees rest

end

mutual

/-- The tokens of a tree. -/
def tokensOf : Value → List Token
  | .text s => [.scalar s (scalarStyle false s == .plain)]
  | .int n => [.scalar (toString n) true]
  | .object fields => .blockMappingStart :: (fieldTokens fields ++ [.blockEnd])
  | _ => []

/-- The tokens of fields, without those around their block. -/
def fieldTokens : List (String × Value) → List Token
  | [] => []
  | (key, v) :: rest => .key :: .scalar key true :: .value :: (tokensOf v ++ fieldTokens rest)

end

/-! ### Lines of trees -/

/-- The characters of lines. -/
def charLines (ls : List String) : List (List Char) := ls.map String.toList

theorem linesIn_indentLine (m : Nat) (ls : List String) :
    linesIn m (charLines (ls.map indentLine)) = linesIn (m + 2) (charLines ls) := by
  induction ls with
  | nil => rfl
  | cons l ls ih =>
    simp only [linesIn, charLines, List.map_cons, List.flatMap_cons] at ih ⊢
    rw [ih]
    congr 1
    by_cases hl : l = ""
    · subst hl
      rfl
    · have hl' : l.toList ≠ [] := mt String.toList_eq_nil_iff.mp hl
      have hindent : (indentLine l).toList = ' ' :: ' ' :: l.toList := by
        rw [indentLine, if_neg hl, String.toList_append]
        rfl
      rw [lineIn, lineIn, hindent, if_neg (List.cons_ne_nil _ _), if_neg hl']
      rw [List.replicate_add, List.append_assoc]
      rfl

/-- The text behind the colon of a key, in a block at the column `b`. -/
def valueText (b : Nat) : Value → List Char
  | .object fields => '\n' :: linesIn (b + 2) (charLines (fieldLines fields))
  | v => ' ' :: (((lines v).headD "").toList ++ '\n' :: linesIn (b + 2) (charLines (lines v).tail))

/-- The lines of an entry whose value is no block begin with the key and the first line of the
value. -/
private theorem linesIn_entry (key first : String) (m : Nat) (more : List String) :
    linesIn m (charLines ((key ++ ":" ++ " " ++ first) :: more.map indentLine)) =
      List.replicate m ' ' ++ (key.toList ++ ':' :: ' ' :: (first.toList ++ '\n' ::
        linesIn (m + 2) (charLines more))) := by
  have hline : (key ++ ":" ++ " " ++ first).toList = key.toList ++ ':' :: ' ' :: first.toList := by
    simp only [String.toList_append, List.append_assoc]
    rfl
  rw [charLines, List.map_cons, hline, linesIn_cons_of_ne_nil (by simp), ← charLines,
    linesIn_indentLine]
  simp

private theorem linesIn_block (key : String) (m : Nat) (own : List String) :
    linesIn m (charLines ((key ++ ":") :: own.map indentLine)) =
      List.replicate m ' ' ++ (key.toList ++ ':' :: '\n' :: linesIn (m + 2) (charLines own)) := by
  have hline : (key ++ ":").toList = key.toList ++ [':'] := String.toList_append
  rw [charLines, List.map_cons, hline, linesIn_cons_of_ne_nil (by simp), ← charLines,
    linesIn_indentLine]
  simp

/-- The lines of a field begin with its key, a colon and its value. -/
theorem linesIn_fieldLines {key : String} {v : Value} (hkey : IsFieldKey key) (hv : IsTree v)
    (b : Nat) (rest : List (String × Value)) :
    linesIn b (charLines (fieldLines ((key, v) :: rest))) = List.replicate b ' ' ++
      (key.toList ++ ':' :: (valueText b v ++ linesIn b (charLines (fieldLines rest)))) := by
  have hname : (scalarLines true key).1 = key := by rw [scalarLines, hkey.style]
  rw [fieldLines, charLines, List.map_append, linesIn_append, ← charLines, ← charLines,
    fieldLines.entryLines, if_pos hkey.short]
  simp only [hname]
  cases v with
  | text s =>
    rw [linesIn_entry]
    simp [valueText]
  | int n =>
    rw [linesIn_entry]
    simp [valueText]
  | object fields =>
    obtain ⟨e, fields, rfl⟩ := List.exists_cons_of_ne_nil hv.1
    rw [linesIn_block]
    simp [valueText, lines]
  | _ => exact hv.elim

/-! ### Lexing trees -/

theorem isOrdinary_of_isDigit {d : Char} (h : d.isDigit = true) : isOrdinary d = true := by
  obtain ⟨hlow, hhigh⟩ := Char.isDigit_iff_toNat.mp h
  have hprint : isPrintable d = true := by
    have hle : ' ' ≤ d ∧ d ≤ '~' := ⟨hlow.trans' (by decide), hhigh.trans (by decide)⟩
    simp [isPrintable, hle]
  simp [isOrdinary, hprint, ne_of_test h (e := '\n') rfl, ne_of_test h (e := '\u2028') rfl,
    ne_of_test h (e := '\u2029') rfl]

private theorem opensMarkup_of_isDigit {cs : List Char} (h : ∀ d ∈ cs, d.isDigit = true) :
    opensMarkup cs = false := by
  cases cs with
  | nil => rfl
  | cons d cs =>
    have hd := h d List.mem_cons_self
    have hmark : leadingMarks.contains d = false := by
      have hall : ∀ e ∈ leadingMarks, e.isDigit = false := by simp [leadingMarks, Char.isDigit]
      rw [List.contains_eq_mem, decide_eq_false_iff_not]
      exact fun hmem ↦ ne_of_test hd (hall d hmem) rfl
    rw [opensMarkup, hmark, beq_false_of_ne (ne_of_test hd (e := '?') rfl),
      beq_false_of_ne (ne_of_test hd (e := ':') rfl),
      beq_false_of_ne (ne_of_test hd (e := '-') rfl)]
    rfl

private theorem containsMarkup_of_isDigit {cs : List Char} (h : ∀ d ∈ cs, d.isDigit = true) :
    containsMarkup cs = false := by
  induction cs with
  | nil => rfl
  | cons d cs ih =>
    have hcs : ∀ e ∈ cs, e.isDigit = true := fun e he ↦ h e (List.mem_cons_of_mem d he)
    cases cs with
    | nil => rfl
    | cons e cs =>
      have he := hcs e List.mem_cons_self
      rw [containsMarkup, ih hcs, beq_false_of_ne (ne_of_test he (e := ':') rfl),
        beq_false_of_ne (ne_of_test he (e := '#') rfl)]
      rfl

/-- The lines of fields begin with a key. -/
theorem exists_fieldText {fields : List (String × Value)} (hne : fields ≠ [])
    (h : AreTrees fields) (b : Nat) :
    ∃ cs, linesIn b (charLines (fieldLines fields)) = List.replicate b ' ' ++ cs ∧
      ∀ rest, OpensToken (cs ++ rest) := by
  cases fields with
  | nil => exact absurd rfl hne
  | cons e fields =>
    obtain ⟨key, v⟩ := e
    obtain ⟨hkey, hv, -⟩ := h
    refine ⟨_, linesIn_fieldLines hkey hv b fields, fun rest ↦ ?_⟩
    rw [List.append_assoc]
    exact (hkey.key.opensPlain _).opensToken

namespace Lexing

variable {s : Lexing} {ts : List Token} {b column m : Nat} {is : List Int} {rest : List Char}

/-- A whole number is lexed up to the next line. -/
theorem Stands.int {n : Int} (hn : 0 ≤ n)
    (h : s.Stands ts (b :: is) (' ' :: ((toString n).toList ++ '\n' ::
      (List.replicate m ' ' ++ rest))) column false)
    (hb : b < column) (hm : m ≤ b) (hrest : OpensToken rest) :
    ∃ s', s.Leads s' ∧ s'.ComesTo (.scalar (toString n) true :: ts) (b :: is) rest m true := by
  obtain ⟨k, rfl⟩ := Int.eq_ofNat_of_zero_le hn
  have hdigits : ∀ d ∈ (toString (k : Int)).toList, d.isDigit = true :=
    fun d hd ↦ Decimal.isDigit_of_mem_natText hd
  have hne : (toString (k : Int)).toList ≠ [] := Decimal.toList_natText_ne_nil k
  have hordinary := fun d hd ↦ isOrdinary_of_isDigit (hdigits d hd)
  have hspace : ' ' ∉ (toString (k : Int)).toList :=
    fun hmem ↦ ne_of_test (hdigits ' ' hmem) rfl rfl
  have hhead : (toString (k : Int)).toList.head? ≠ some ' ' :=
    fun heq ↦ hspace (List.mem_of_mem_head? heq)
  have hopens := opensMarkup_of_isDigit hdigits
  have hplain := opensPlain_of_markup hordinary hhead hopens hne
  have hcomes := Stands.comesTo (n := 1) h (hplain _).opensToken
  rw [← String.ofList_toList (s := toString (k : Int))]
  exact hcomes.plain (isPlain_of_markup hordinary hhead hopens
    (fun heq ↦ hspace (List.mem_of_getLast? heq)) (containsMarkup_of_isDigit hdigits)) hne hplain
    (Nat.lt_succ_of_lt hb) hm hrest

/-- A key is lexed up to the value behind its colon, within a block in the column of the key. -/
private theorem ComesTo.entry {key : String} {v : Value} {i : Int} {cs : List Char}
    (rest : List Char) (h : s.ComesTo ts (i :: is) cs b true) (hi : i ≤ b) (hkey : IsFieldKey key)
    (hcs : cs = key.toList ++ ':' :: (valueText b v ++ rest)) :
    ∃ (s' : Lexing) (is' : List Int) (column : Nat), s.Leads s' ∧ opened i is b = (b : Int) :: is' ∧
      b < column ∧
      s'.Stands (.value :: .scalar key true :: .key :: (opening i b ++ ts)) (b :: is')
        (valueText b v ++ rest) column false := by
  have hblank : atBlankOrEnd (valueText b v ++ rest) = true := by
    cases v <;> rfl
  have hopened : ∃ is' : List Int, opened i is b = (b : Int) :: is' := by
    rw [opened]
    split
    · rename_i heq
      exact ⟨is, by rw [heq]⟩
    · exact ⟨i :: is, rfl⟩
  obtain ⟨is', his⟩ := hopened
  subst hcs
  obtain ⟨s₁, hleads, hstands⟩ := h.key hi hkey.key hblank
  rw [String.ofList_toList, his] at hstands
  exact ⟨s₁, is', _, hleads, his, by omega, hstands⟩

mutual

/-- A tree behind the colon of its key is lexed as its tokens, up to the next line. -/
theorem Stands.tree : ∀ {v : Value}, IsTree v → ∀ {s : Lexing} {ts : List Token} {b column m : Nat}
    {is : List Int} {rest : List Char},
    s.Stands ts (b :: is) (valueText b v ++ (List.replicate m ' ' ++ rest)) column false →
    b < column → m ≤ b → OpensToken rest →
    ∃ s', s.Leads s' ∧ s'.ComesTo ((tokensOf v).reverse ++ ts) (b :: is) rest m true
  | .text t, ht, s, ts, b, column, m, is, rest, h, hb, hm, hrest => by
    refine Stands.text ht ?_ hb hm hrest
    simpa [valueText, lines, charLines] using h
  | .int n, hn, s, ts, b, column, m, is, rest, h, hb, hm, hrest => by
    refine Stands.int hn ?_ hb hm hrest
    simpa [valueText, lines, charLines, linesIn_nil] using h
  | .object fields, ⟨hne, hfields⟩, s, ts, b, column, m, is, rest, h, hb, hm, hrest => by
    obtain ⟨cs, hcs, hopens⟩ := exists_fieldText hne hfields (b + 2)
    rw [valueText, hcs, List.cons_append, List.append_assoc] at h
    have hcomes := h.comesTo_lineEnd (hopens _)
    obtain ⟨s₁, hleads, hcomes₁⟩ := ComesTo.fields hne hfields hcomes (by omega)
      (by rw [hcs, List.append_assoc]) (by omega) hrest
    have hdeeper : ¬(b : Int) = (b + 2 : Nat) := by omega
    rw [opening, if_neg hdeeper, opened, if_neg hdeeper] at hcomes₁
    refine ⟨s₁, hleads, ?_⟩
    have hclosed := hcomes₁.close (by omega)
    simpa [tokensOf] using hclosed

/-- The fields of a block are lexed as their tokens, up to a line that is no field. -/
theorem ComesTo.fields : ∀ {fields : List (String × Value)}, fields ≠ [] → AreTrees fields →
    ∀ {s : Lexing} {ts : List Token} {i : Int} {is : List Int} {b m : Nat} {cs rest : List Char},
    s.ComesTo ts (i :: is) cs b true → i ≤ b →
    List.replicate b ' ' ++ cs =
      linesIn b (charLines (fieldLines fields)) ++ (List.replicate m ' ' ++ rest) →
    m ≤ b → OpensToken rest →
    ∃ s', s.Leads s' ∧ s'.ComesTo ((fieldTokens fields).reverse ++ (opening i b ++ ts))
      (opened i is b) rest m true
  | [(key, v)], _, ⟨hkey, hv, _⟩, s, ts, i, is, b, m, cs, rest, h, hi, hcs, hm, hrest => by
    rw [linesIn_fieldLines hkey hv, List.append_assoc, List.append_cancel_left_eq] at hcs
    obtain ⟨s₁, is', column, hleads, his, hcolumn, hstands⟩ := h.entry
      (List.replicate m ' ' ++ rest) hi hkey (by simpa [fieldLines, charLines, linesIn] using hcs)
    obtain ⟨s₂, hleads₂, hcomes⟩ := Stands.tree hv hstands hcolumn hm hrest
    refine ⟨s₂, hleads.trans hleads₂, ?_⟩
    rw [his]
    simpa [fieldTokens] using hcomes
  | (key, v) :: e :: fields, _, ⟨hkey, hv, hfields⟩, s, ts, i, is, b, m, cs, rest, h, hi, hcs, hm,
      hrest => by
    obtain ⟨cs', hcs', hopens⟩ := exists_fieldText (List.cons_ne_nil e fields) hfields b
    rw [linesIn_fieldLines hkey hv, hcs', List.append_assoc, List.append_cancel_left_eq] at hcs
    obtain ⟨s₁, is', column, hleads, his, hcolumn, hstands⟩ := h.entry
      (List.replicate b ' ' ++ (cs' ++ (List.replicate m ' ' ++ rest))) hi hkey
      (by simpa using hcs)
    obtain ⟨s₂, hleads₂, hcomes⟩ := Stands.tree hv hstands hcolumn (Nat.le_refl b) (hopens _)
    obtain ⟨s₃, hleads₃, hcomes₃⟩ := ComesTo.fields (List.cons_ne_nil e fields) hfields hcomes
      (Int.le_refl b) (by rw [hcs', List.append_assoc]) hm hrest
    refine ⟨s₃, hleads.trans (hleads₂.trans hleads₃), ?_⟩
    rw [opening, if_pos rfl, opened, if_pos rfl] at hcomes₃
    rw [his]
    simpa [fieldTokens] using hcomes₃

end

/-- At the end of a text the last block is closed. -/
theorem ComesTo.textEnd (h : s.ComesTo ts [0, -1] [] 0 true) (fuel : Nat) :
    (run (fuel + 1) s).list.map (·.1) = (.textEnd :: .blockEnd :: ts).reverse := by
  obtain ⟨s₁, hstands, hnext⟩ := h.next (Int.le_refl 0)
  have hclosed : (s₁.closeBlocks (-1)).Stands (.blockEnd :: ts) [-1] [] 0 true :=
    Stands.closeBlocks [0] hstands (by decide) (Int.le_refl (-1))
  have hcursor : s₁.cursor.closed = s₁.cursor := if_pos hstands.column
  have hpeek : s₁.cursor.peek? = none := by rw [Cursor.peek?, hstands.rest]; rfl
  obtain ⟨s₂, hunindented, hstands₂⟩ :
      ∃ s₂ : Lexing, s₁.unindented = .ok s₂ ∧ s₂.Stands (.blockEnd :: ts) [-1] [] 0 false := by
    refine ⟨{ s₁.closeBlocks (-1) with keyAllowed := false }, ?_, hclosed.tokens, hclosed.blocks,
      hclosed.rest, hclosed.column, rfl, hclosed.candidates⟩
    rw [unindented, hclosed.dropCandidate]
    rfl
  have htoken : s₁.token = .ok (s₂.emit .textEnd) := by
    rw [token, hpeek]
    simp only [hcursor]
    rw [hunindented]
    rfl
  have hstands₃ : (s₂.emit .textEnd).Stands (.textEnd :: .blockEnd :: ts) [-1] [] 0 false :=
    ⟨congrArg _ hstands₂.tokens, hstands₂.blocks, hstands₂.rest, hstands₂.column,
      hstands₂.keyAllowed, hstands₂.candidates⟩
  rw [htoken, Except.bind, hstands₃.dropStale] at hnext
  rw [run, hnext, ← hstands₃.tokens, ← List.map_reverse]
  rfl

end Lexing

/-! ### Whole texts -/

mutual

/-- What is written for a tree may occur in a text. -/
theorem isAllowed_of_mem_valueText : ∀ {v : Value}, IsTree v → ∀ b, ∀ d ∈ valueText b v,
    isAllowed d = true
  | .text t, ht, b, d, hd => by
    have hallowed : ∀ l, l = (scalarLines false t).1.toList ∨
        l ∈ (scalarLines false t).2.map String.toList → ∀ e ∈ l, isAllowed e = true :=
      fun l hl e he ↦ isAllowed_of_mem_scalarLines ht hl he
    rw [valueText, List.mem_cons, List.mem_append, List.mem_cons] at hd
    obtain rfl | hd | rfl | hd := hd
    · rfl
    · exact hallowed _ (Or.inl rfl) d (by simpa [lines] using hd)
    · rfl
    · obtain rfl | rfl | ⟨l, hl, hd⟩ := mem_linesIn hd
      · rfl
      · rfl
      · exact hallowed l (Or.inr (by simpa [lines, charLines] using hl)) d hd
    all_goals exact nofun
  | .int n, hn, b, d, hd => by
    obtain ⟨k, rfl⟩ := Int.eq_ofNat_of_zero_le hn
    rw [valueText, lines, List.mem_cons, List.mem_append, List.mem_cons] at hd
    obtain rfl | hd | rfl | hd := hd
    · rfl
    · exact isAllowed_of_isOrdinary (isOrdinary_of_isDigit (Decimal.isDigit_of_mem_natText hd))
    · rfl
    · exact absurd hd List.not_mem_nil
    all_goals exact nofun
  | .object fields, ⟨_, hfields⟩, b, d, hd => by
    obtain rfl | hd := List.mem_cons.mp hd
    · rfl
    · exact isAllowed_of_mem_fieldLines hfields (b + 2) d hd

@[inherit_doc isAllowed_of_mem_valueText]
theorem isAllowed_of_mem_fieldLines : ∀ {fields : List (String × Value)}, AreTrees fields → ∀ b,
    ∀ d ∈ linesIn b (charLines (fieldLines fields)), isAllowed d = true
  | [], _, b, d, hd => absurd hd List.not_mem_nil
  | (key, v) :: fields, ⟨hkey, hv, hfields⟩, b, d, hd => by
    rw [linesIn_fieldLines hkey hv] at hd
    simp only [List.mem_append, List.mem_cons] at hd
    obtain hd | hd | rfl | hd | hd := hd
    · rw [List.eq_of_mem_replicate hd]
      rfl
    · exact isAllowed_of_isOrdinary (isOrdinary_of_isKeyChar (hkey.key.letters d hd))
    · rfl
    · exact isAllowed_of_mem_valueText hv b d hd
    · exact isAllowed_of_mem_fieldLines hfields b d hd

end

/-- A tree of fields is lexed as one block. -/
theorem tokens_ofText {fields : List (String × Value)} (hne : fields ≠ []) (h : AreTrees fields) :
    (Tokens.ofText (linesIn 0 (charLines (fieldLines fields)))).list.map (·.1) =
      tokensOf (.object fields) ++ [.textEnd] := by
  obtain ⟨cs, hcs, hopens⟩ := exists_fieldText hne h 0
  rw [List.replicate_zero, List.nil_append] at hcs
  have hopens' := hopens []
  rw [List.append_nil] at hopens'
  have hallowed : (linesIn 0 (charLines (fieldLines fields))).all isAllowed = true :=
    List.all_eq_true.mpr (isAllowed_of_mem_fieldLines h 0)
  have hstart : Cursor.start cs = ⟨cs, 0, 0, 0⟩ := by
    unfold Cursor.start
    split
    · exact absurd (hopens' _ rfl).1 (by decide)
    · rfl
  have hstands : (Lexing.start cs).Stands [] [-1] cs 0 true := by
    rw [Lexing.start, hstart]
    exact ⟨rfl, rfl, rfl, rfl, rfl, rfl⟩
  have hlines : List.replicate 0 ' ' ++ cs =
      linesIn 0 (charLines (fieldLines fields)) ++ (List.replicate 0 ' ' ++ []) := by
    simp [hcs]
  obtain ⟨s, ⟨n, hlength, hrun⟩, hcomes⟩ := Lexing.ComesTo.fields hne h
    (Lexing.Stands.comesTo (n := 0) hstands hopens') (by decide) hlines (Nat.le_refl 0) nofun
  have hfuel : ∃ fuel, cs.length + 2 = fuel + 1 + n := by
    refine ⟨cs.length + 1 - n, ?_⟩
    rw [hstands.rest] at hlength
    omega
  obtain ⟨fuel, hfuel⟩ := hfuel
  rw [Tokens.ofText, if_pos hallowed, hcs, hfuel, hrun, hcomes.textEnd]
  simp [tokensOf, Lexing.opening]

end PipingAssembly.Yaml
