import PipingAssembly.Proofs.Yaml.Scalars

/-!
# Reading quoted scalars

Between quotes a character is written by itself or by an escape, which is read as the character.
Spaces are kept, so that a text between quotes is read word by word, as a plain text is.
-/

namespace PipingAssembly.Yaml

/-! ### Escapes -/

/-- The value of a hexadecimal digit is read back. -/
theorem hexValue?_digitChar : ∀ n < 16, hexValue? (Nat.digitChar n).toUpper = some n := by
  decide

theorem length_capitalHex (k n : Nat) : (capitalHex k n).length = k := by
  induction k generalizing n with
  | zero => rfl
  | succ k ih => rw [capitalHex, List.length_append, ih, List.length_singleton]

theorem isAllowed_of_mem_capitalHex {k n : Nat} {d : Char} (h : d ∈ capitalHex k n) :
    isAllowed d = true := by
  have hdigits : ∀ n < 16, isAllowed (Nat.digitChar n).toUpper = true := by decide
  induction k generalizing n with
  | zero => exact absurd h List.not_mem_nil
  | succ k ih =>
    rw [capitalHex, List.mem_append, List.mem_singleton] at h
    obtain h | rfl := h
    · exact ih h
    · exact hdigits (n % 16) (Nat.mod_lt n (by decide))

private theorem exists_hexValues (k : Nat) {n : Nat} (hn : n < Nat.pow 16 k) :
    ∃ ds, (capitalHex k n).mapM hexValue? = some ds ∧ ds.foldl (fun n d ↦ 16 * n + d) 0 = n := by
  induction k generalizing n with
  | zero =>
    obtain rfl : n = 0 := Nat.lt_one_iff.mp hn
    exact ⟨[], rfl, rfl⟩
  | succ k ih =>
    obtain ⟨ds, hds, hvalue⟩ := ih (n := n / 16) (Nat.div_lt_of_lt_mul (Nat.mul_comm _ _ ▸ hn))
    refine ⟨ds ++ [n % 16], ?_, ?_⟩
    · rw [capitalHex, List.mapM_append, hds, List.mapM_cons,
        hexValue?_digitChar (n % 16) (Nat.mod_lt n (by decide))]
      rfl
    · rw [List.foldl_append, hvalue]
      exact Nat.div_add_mod n 16

/-- The character of a number is read back from the digits of the number. -/
theorem charOfHex?_capitalHex {k : Nat} {d : Char} (hd : d.toNat < Nat.pow 16 k) :
    charOfHex? (capitalHex k d.toNat) = some d := by
  obtain ⟨ds, hds, hvalue⟩ := exists_hexValues k hd
  have hvalid : d.toNat.isValidChar := d.valid
  rw [Nat.isValidChar] at hvalid
  rw [charOfHex?, hds]
  simp only [Option.bind_eq_bind, Option.bind_some, hvalue]
  rw [if_neg (by omega), Char.ofNat_toNat]

theorem escapeChar_cases (d : Char) :
    (escapeChar d = [d] ∧ isOrdinary d = true ∧ d ≠ '"' ∧ d ≠ '\\') ∨
    (∃ l, escapeChar d = ['\\', l] ∧ escapes.lookup l = some d ∧ isBreak l = false ∧
      isAllowed l = true ∧ l ≠ 'x' ∧ l ≠ 'u' ∧ l ≠ 'U') ∨
    ∃ l k, escapeChar d = '\\' :: l :: capitalHex k d.toNat ∧ d.toNat < Nat.pow 16 k ∧
      (l, k) ∈ [('x', 2), ('u', 4), ('U', 8)] := by
  unfold escapeChar
  split
  case h_15 hnul hbell hback htab hfeed hvtab hform hreturn hesc hquote hslash hnext hline hpar =>
    split
    case isTrue hprint =>
      refine Or.inl ⟨rfl, ?_, hquote, hslash⟩
      rw [isOrdinary, hprint, bne_iff_ne.mpr hfeed, bne_iff_ne.mpr hline, bne_iff_ne.mpr hpar]
      rfl
    case isFalse =>
      refine Or.inr (Or.inr ?_)
      split
      case isTrue hbyte => exact ⟨'x', 2, rfl, hbyte, by simp⟩
      case isFalse =>
        split
        case isTrue hword => exact ⟨'u', 4, rfl, hword, by simp⟩
        case isFalse =>
          have hvalid : d.toNat.isValidChar := d.valid
          rw [Nat.isValidChar] at hvalid
          have hpow : Nat.pow 16 8 = 0x100000000 := rfl
          exact ⟨'U', 8, rfl, by omega, by simp⟩
  all_goals exact Or.inr (Or.inl ⟨_, rfl, rfl, rfl, rfl, by decide, by decide, by decide⟩)

variable {c : Cursor} {d : Char} {rest : List Char}

private theorem readCode_capitalHex {k : Nat} (hd : d.toNat < Nat.pow 16 k)
    (hc : c.rest = capitalHex k d.toNat ++ rest) :
    readCode k c = .ok (d, c.after (capitalHex k d.toNat) rest) := by
  have hlength := length_capitalHex k d.toNat
  have htake : c.rest.take k = capitalHex k d.toNat := by
    rw [hc, List.take_left' hlength]
  have hskips := Cursor.skips_eq_after hc
  rw [hlength] at hskips
  rw [readCode, htake, charOfHex?_capitalHex hd]
  simp only [hlength, beq_self_eq_true, Option.filter_some, if_true, hskips]

/-- An escape is read as the character that was escaped. -/
theorem readEscape_escapeChar {l : Char} {digits : List Char}
    (hl : escapeChar d = '\\' :: l :: digits) (hc : c.rest = escapeChar d ++ rest) :
    readEscape c = .ok (d, c.after (escapeChar d) rest) := by
  have hafter : c.skips 2 = c.after ['\\', l] (digits ++ rest) :=
    Cursor.skips_eq_after (show c.rest = ['\\', l] ++ (digits ++ rest) by rw [hc, hl]; rfl)
  have hpeek : c.skip.peek? = some l := by
    rw [Cursor.skip_eq_after (by rw [hc, hl]; rfl)]
    rfl
  obtain ⟨hself, -⟩ | ⟨l', hl', hlookup, -, -, hx, hu, hU⟩ | ⟨l', k, hl', hd, hk⟩ :=
    escapeChar_cases d
  · rw [hself] at hl
    cases hl
  · obtain ⟨rfl, rfl⟩ : l' = l ∧ [] = digits := by simpa [hl'] using hl
    rw [readEscape, hpeek, hafter]
    split
    · exact absurd (Option.some.inj ‹_›) hx
    · exact absurd (Option.some.inj ‹_›) hu
    · exact absurd (Option.some.inj ‹_›) hU
    · rw [Option.bind_some, hlookup, hl']
      rfl
  · obtain ⟨rfl, rfl⟩ : l' = l ∧ capitalHex k d.toNat = digits := by simpa [hl'] using hl
    have hcode := readCode_capitalHex hd
      (Cursor.after_rest c ['\\', l'] (capitalHex k d.toNat ++ rest))
    rw [Cursor.after_after] at hcode
    rw [readEscape, hpeek, hafter, hl']
    simp only [List.mem_cons, Prod.mk.injEq, List.not_mem_nil, or_false] at hk
    obtain ⟨rfl, rfl⟩ | ⟨rfl, rfl⟩ | ⟨rfl, rfl⟩ := hk <;> exact hcode

/-! ### Words between quotes -/

/-- The quote of a quoted scalar. -/
def quoteOf (single : Bool) : Char := if single then '\'' else '"'

/-- A character between quotes. -/
def quotedChar (single : Bool) (d : Char) : List Char :=
  if single then if d = '\'' then ['\'', '\''] else [d] else escapeChar d

/-- Whether a character can be written between quotes; single quotes leave it as it is. -/
def FitsQuotes (single : Bool) (d : Char) : Prop := single = true → isOrdinary d = true

/-- What is written for a character may occur in a text. -/
theorem isAllowed_of_mem_quotedChar {single : Bool} (hfits : FitsQuotes single d) {e : Char}
    (he : e ∈ quotedChar single d) : isAllowed e = true := by
  cases single with
  | true =>
    rw [quotedChar, if_pos rfl] at he
    split at he
    · simp only [List.mem_cons, List.not_mem_nil, or_false, or_self] at he
      rw [he]
      rfl
    · rw [List.mem_singleton.mp he]
      exact isAllowed_of_isOrdinary (hfits rfl)
  | false =>
    rw [quotedChar, if_neg Bool.false_ne_true] at he
    obtain ⟨heq, hordinary, -⟩ | ⟨l, heq, -, -, hallowed, -⟩ | ⟨l, k, heq, -, hk⟩ :=
      escapeChar_cases d
    · rw [heq] at he
      rw [List.mem_singleton.mp he]
      exact isAllowed_of_isOrdinary hordinary
    · rw [heq] at he
      simp only [List.mem_cons, List.not_mem_nil, or_false] at he
      obtain rfl | rfl := he
      · rfl
      · exact hallowed
    · rw [heq] at he
      simp only [List.mem_cons] at he
      obtain rfl | rfl | he := he
      · rfl
      · simp only [List.mem_cons, Prod.mk.injEq, List.not_mem_nil, or_false] at hk
        obtain ⟨rfl, -⟩ | ⟨rfl, -⟩ | ⟨rfl, -⟩ := hk <;> rfl
      · exact isAllowed_of_mem_capitalHex he

section Quoted

variable {single : Bool} {w : List Char} {fuel : Nat}

/-- A character without a meaning of its own is read as itself. -/
private theorem readQuotedRun_self (hd : isOrdinary d = true) (hspace : d ≠ ' ')
    (hquote : d ≠ quoteOf single) (hslash : single = false → d ≠ '\\') (hc : c.rest = d :: rest)
    (read : Reversed) :
    readQuotedRun single (fuel + 1) read c =
      readQuotedRun single fuel (d :: read) (c.after [d] rest) := by
  have hblank : atBlankOrEnd (d :: rest) = false := by
    rw [atBlankOrEnd, isBreak_of_isOrdinary hd, isSpaceOrTab_of_isOrdinary hd,
      beq_false_of_ne hspace]
    rfl
  rw [readQuotedRun, hc]
  cases single <;> simp_all [quoteOf, Cursor.skip_eq_after hc]

/-- An escaped character is read as the character. -/
private theorem readQuotedRun_escape {l : Char} {digits : List Char}
    (hl : escapeChar d = '\\' :: l :: digits) (hbreak : isBreak l = false)
    (hc : c.rest = escapeChar d ++ rest) (read : Reversed) :
    readQuotedRun false (fuel + 1) read c =
      readQuotedRun false fuel (d :: read) (c.after (escapeChar d) rest) := by
  have hescape := readEscape_escapeChar hl hc
  have hc' : c.rest = '\\' :: l :: (digits ++ rest) := by rw [hc, hl]; rfl
  have hblank : atBlankOrEnd ('\\' :: l :: (digits ++ rest)) = false := rfl
  rw [readQuotedRun, hc']
  simp only [hblank, hescape, hbreak, bind, Except.bind, Bool.false_and, Bool.false_eq_true,
    if_false, List.head?_cons, Option.any_some, Bool.and_false, Bool.not_false, Bool.true_and,
    beq_self_eq_true, if_true, show ('\\' == '"') = false from rfl]

/-- A character that is written between quotes is read as itself. -/
private theorem readQuotedRun_char (hfits : FitsQuotes single d) (hd : d ≠ ' ')
    (hc : c.rest = quotedChar single d ++ rest) (read : Reversed) :
    readQuotedRun single (fuel + 1) read c =
      readQuotedRun single fuel (d :: read) (c.after (quotedChar single d) rest) := by
  cases single with
  | true =>
    by_cases hquote : d = '\''
    · subst hquote
      rw [readQuotedRun, hc]
      exact congrArg _ (Cursor.skips_eq_after (show c.rest = ['\'', '\''] ++ rest from hc))
    · rw [quotedChar, if_pos rfl, if_neg hquote] at hc ⊢
      exact readQuotedRun_self (hfits rfl) hd (show d ≠ quoteOf true from hquote)
        Bool.noConfusion hc read
  | false =>
    rw [quotedChar, if_neg Bool.false_ne_true] at hc ⊢
    obtain ⟨hself, hordinary, hquote, hslash⟩ | ⟨l, hl, -, hbreak, -⟩ | ⟨l, k, hl, -, hk⟩ :=
      escapeChar_cases d
    · rw [hself] at hc ⊢
      exact readQuotedRun_self hordinary hd (show d ≠ quoteOf false from hquote) (fun _ ↦ hslash) hc
        read
    · exact readQuotedRun_escape hl hbreak hc read
    · refine readQuotedRun_escape hl ?_ hc read
      simp only [List.mem_cons, Prod.mk.injEq, List.not_mem_nil, or_false] at hk
      obtain ⟨rfl, -⟩ | ⟨rfl, -⟩ | ⟨rfl, -⟩ := hk <;> rfl

/-- Whether a run of characters between quotes ends before the rest of a line. -/
def EndsRun (single : Bool) (rest : List Char) : Prop :=
  atBlankOrEnd rest = true ∨ ∃ r, rest = quoteOf single :: r ∧ r.head? ≠ some '\''

private theorem readQuotedRun_end (hrest : EndsRun single c.rest) (hfuel : 0 < fuel)
    (read : Reversed) : readQuotedRun single fuel read c = .ok (read, c, false) := by
  obtain ⟨fuel, rfl⟩ := Nat.exists_eq_succ_of_ne_zero (Nat.ne_of_gt hfuel)
  rw [readQuotedRun]
  obtain hblank | ⟨r, hr, hhead⟩ := hrest
  · cases hc : c.rest with
    | nil => rfl
    | cons b rest => exact if_pos (hc ▸ hblank)
  · rw [hr]
    cases single <;> simp [quoteOf, atBlankOrEnd, isBreak, isSpaceOrTab, hhead]

private theorem readQuotedRun_within (hw : ∀ d ∈ w, FitsQuotes single d ∧ d ≠ ' ')
    (hrest : EndsRun single rest) (hfuel : w.length < fuel) (read : Reversed)
    (hc : c.rest = w.flatMap (quotedChar single) ++ rest) :
    readQuotedRun single fuel read c =
      .ok (w.reverse ++ read, c.after (w.flatMap (quotedChar single)) rest, false) := by
  induction w generalizing c fuel read with
  | nil =>
    rw [List.flatMap_nil, List.nil_append] at hc
    rw [readQuotedRun_end (hc ▸ hrest) hfuel, List.flatMap_nil, Cursor.after_nil hc]
    rfl
  | cons d w ih =>
    obtain ⟨⟨hfits, hd⟩, hw⟩ := List.forall_mem_cons.mp hw
    obtain ⟨fuel, rfl⟩ := Nat.exists_eq_succ_of_ne_zero (Nat.ne_zero_of_lt hfuel)
    rw [List.flatMap_cons, List.append_assoc] at hc
    rw [readQuotedRun_char hfits hd hc, ih hw (Nat.lt_of_succ_lt_succ hfuel) (d :: read) rfl,
      Cursor.after_after, List.flatMap_cons, List.reverse_cons, List.append_assoc]
    rfl

private theorem length_le_flatMap (single : Bool) (w : List Char) :
    w.length ≤ (w.flatMap (quotedChar single)).length := by
  have hpos : ∀ d, 1 ≤ (quotedChar single d).length := by
    intro d
    cases single with
    | true =>
      rw [quotedChar, if_pos rfl]
      split <;> simp
    | false =>
      rw [quotedChar, if_neg Bool.false_ne_true]
      obtain ⟨heq, -⟩ | ⟨l, heq, -⟩ | ⟨l, k, heq, -⟩ := escapeChar_cases d <;> simp [heq]
  induction w with
  | nil => exact Nat.le_refl _
  | cons d w ih =>
    rw [List.flatMap_cons, List.length_append, List.length_cons]
    have := hpos d
    omega

/-- A word between quotes is read up to white space or to the closing quote. -/
theorem readQuotedRun_word (hw : ∀ d ∈ w, FitsQuotes single d ∧ d ≠ ' ')
    (hrest : EndsRun single rest) (read : Reversed)
    (hc : c.rest = w.flatMap (quotedChar single) ++ rest) :
    readQuotedRun single (c.rest.length + 1) read c =
      .ok (w.reverse ++ read, c.after (w.flatMap (quotedChar single)) rest, false) := by
  have hlength := length_le_flatMap single w
  refine readQuotedRun_within hw hrest ?_ read hc
  rw [hc, List.length_append]
  omega

/-! ### Quoted scalars -/

/-- What is written for a character other than a space begins a word. -/
theorem opensWord_quotedChar (hfits : FitsQuotes single d) (hd : d ≠ ' ') (rest : List Char) :
    OpensWord (quotedChar single d ++ rest) := by
  have hslash : ∀ cs, OpensWord ('\\' :: cs) := by
    rintro cs e he
    obtain rfl := Option.some.inj he
    exact ⟨rfl, rfl⟩
  cases single with
  | true =>
    rw [quotedChar, if_pos rfl]
    split
    · rintro e he
      obtain rfl := Option.some.inj he
      exact ⟨rfl, rfl⟩
    · exact opensWord_cons (hfits rfl) hd rest
  | false =>
    rw [quotedChar, if_neg Bool.false_ne_true]
    obtain ⟨heq, hordinary, -⟩ | ⟨l, heq, -⟩ | ⟨l, k, heq, -⟩ := escapeChar_cases d
    · rw [heq]
      exact opensWord_cons hordinary hd rest
    · rw [heq]
      exact hslash _
    · rw [heq]
      exact hslash _

private theorem flatMap_replicate (single : Bool) (n : Nat) :
    (List.replicate n ' ').flatMap (quotedChar single) = List.replicate n ' ' := by
  have hspace : quotedChar single ' ' = [' '] := by cases single <;> rfl
  induction n with
  | zero => rfl
  | succ n ih => rw [List.replicate_succ, List.flatMap_cons, ih, hspace, List.singleton_append]

section Steps

variable {read read' : Reversed} {next : Cursor} (hcolumn : 0 < c.column) (hne : c.rest ≠ [])
  (hrun : readQuotedRun single (c.rest.length + 1) read c = .ok (read', next, false))
include hcolumn hne hrun

/-- A quoted scalar ends where a run ends before the closing quote. -/
private theorem readQuotedFrom_last (hquote : next.peek? = some (quoteOf single)) :
    readQuotedFrom single (fuel + 1) read c = .ok (read', next.skip) := by
  rw [readQuotedFrom, Cursor.atDocumentMarker_eq_false hcolumn, Bool.false_or,
    if_neg (mt of_decide_eq_true hne), hrun]
  exact if_pos (beq_iff_eq.mpr hquote)

/-- A quoted scalar goes on behind a gap where a run ends before it. -/
private theorem readQuotedFrom_step {g : Gap} {c' : Cursor}
    (hquote : next.peek? ≠ some (quoteOf single))
    (hgap : readGap none (next.rest.length + 1) (.within []) next = .ok (g, c')) :
    readQuotedFrom single (fuel + 1) read c =
      readQuotedFrom single fuel (g.text.reverse ++ read') c' := by
  have hquote' : ¬(next.peek? == some (if single = true then '\'' else '"')) = true :=
    mt beq_iff_eq.mp hquote
  rw [readQuotedFrom, Cursor.atDocumentMarker_eq_false hcolumn, Bool.false_or,
    if_neg (mt of_decide_eq_true hne), hrun]
  simp only [bind, Except.bind, if_neg hquote']
  rw [show ({ Gap.none with broken := false } : Gap) = .within [] from rfl, hgap]

end Steps

/-- A text between quotes is read word by word up to the closing quote. The induction is on the
fuel, as every word but the last takes a space with it. -/
private theorem readQuotedFrom_text {cs : List Char} (hcs : ∀ d ∈ cs, FitsQuotes single d)
    (hrest : rest.head? ≠ some '\'') (hfuel : cs.length < fuel) (read : Reversed)
    (hcolumn : 0 < c.column)
    (hc : c.rest = cs.flatMap (quotedChar single) ++ quoteOf single :: rest) :
    readQuotedFrom single fuel read c = .ok (cs.reverse ++ read,
      c.after (cs.flatMap (quotedChar single) ++ [quoteOf single]) rest) := by
  induction fuel generalizing cs c read with
  | zero => exact absurd hfuel (Nat.not_lt_zero _)
  | succ fuel ih =>
    obtain ⟨w, n, r, rfl, hspace, hr, hn⟩ := exists_word cs
    have hw : ∀ d ∈ w, FitsQuotes single d ∧ d ≠ ' ' :=
      fun d hd ↦ ⟨hcs d (List.mem_append_left _ hd), fun heq ↦ hspace (heq ▸ hd)⟩
    have hne : c.rest ≠ [] := by rw [hc]; simp
    rw [List.flatMap_append, List.flatMap_append, flatMap_replicate, List.append_assoc,
      List.append_assoc] at hc
    obtain rfl | hn' := Nat.eq_zero_or_pos n
    · obtain rfl := hn rfl
      have hrun := readQuotedRun_word hw (Or.inr ⟨rest, rfl, hrest⟩) read hc
      rw [readQuotedFrom_last hcolumn hne hrun rfl, Cursor.skip_eq_after rfl, Cursor.after_after]
      simp
    · obtain ⟨n, rfl⟩ := Nat.exists_eq_succ_of_ne_zero (Nat.ne_of_gt hn')
      have hrun := readQuotedRun_word hw (Or.inl rfl) read hc
      have hopens : OpensWord (r.flatMap (quotedChar single) ++ quoteOf single :: rest) := by
        cases r with
        | nil =>
          rintro e he
          obtain rfl := Option.some.inj he
          cases single <;> exact ⟨rfl, rfl⟩
        | cons d r =>
          rw [List.flatMap_cons, List.append_assoc]
          exact opensWord_quotedChar (hcs d (by simp)) (fun heq ↦ hr (congrArg some heq)) _
      have hquote : (c.after (w.flatMap (quotedChar single)) (List.replicate (n + 1) ' ' ++
          (r.flatMap (quotedChar single) ++ quoteOf single :: rest))).peek? ≠
            some (quoteOf single) := by
        cases single <;> exact fun heq ↦ absurd (Option.some.inj heq) (by decide)
      rw [List.length_append, List.length_append, List.length_replicate] at hfuel
      rw [readQuotedFrom_step hcolumn hne hrun hquote (readGap_spaces hopens rfl), List.append_nil,
        Cursor.after_after, Gap.text_within, List.reverse_replicate]
      rw [ih (fun d hd ↦ hcs d (by simp [hd])) (by omega) _
        (by rw [Cursor.after_column]; omega) rfl, Cursor.after_after]
      simp [flatMap_replicate]

/-- A text between quotes is read up to the closing quote. -/
theorem readQuoted_text {cs : List Char} (hcs : ∀ d ∈ cs, FitsQuotes single d)
    (hrest : rest.head? ≠ some '\'')
    (hc : c.rest = quoteOf single :: (cs.flatMap (quotedChar single) ++ quoteOf single :: rest)) :
    readQuoted single c = .ok (String.ofList cs,
      c.after (quoteOf single :: (cs.flatMap (quotedChar single) ++ [quoteOf single])) rest) := by
  have hlength := length_le_flatMap single cs
  have hfuel : cs.length < c.rest.length + 1 := by
    rw [hc, List.length_cons, List.length_append]
    omega
  have hskip := Cursor.skip_eq_after hc
  have hread := readQuotedFrom_text hcs hrest hfuel [] (show 0 < c.skip.column by simp [hskip])
    (show c.skip.rest = _ by rw [hskip]; rfl)
  rw [readQuoted, hread, hskip, Cursor.after_after]
  simp [Except.map]

end Quoted

end PipingAssembly.Yaml
