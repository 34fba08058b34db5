import PipingAssembly.Proofs.Yaml.Scalars

/-!
# Reading literals

The lines of a literal stand further right than the block around it. A literal is read line by line,
each with the empty lines behind it, up to a line that stands further left.
-/

namespace PipingAssembly.Yaml

/-! ### Lines -/

/-- A line with its end in a column; an empty line has no indentation. -/
def lineIn (k : Nat) (l : List Char) : List Char :=
  if l = [] then ['\n'] else List.replicate k ' ' ++ (l ++ ['\n'])

/-- Lines with their ends in a column. -/
def linesIn (k : Nat) (ls : List (List Char)) : List Char := ls.flatMap (lineIn k)

theorem linesIn_nil (k : Nat) : linesIn k [] = [] := rfl

theorem linesIn_cons_of_ne_nil {k : Nat} {l : List Char} (hl : l ≠ []) (ls : List (List Char)) :
    linesIn k (l :: ls) = List.replicate k ' ' ++ (l ++ '\n' :: linesIn k ls) := by
  rw [linesIn, List.flatMap_cons, lineIn, if_neg hl]
  simp [linesIn]

theorem linesIn_append (k : Nat) (ls ls' : List (List Char)) :
    linesIn k (ls ++ ls') = linesIn k ls ++ linesIn k ls' :=
  List.flatMap_append

theorem linesIn_replicate (k j : Nat) :
    linesIn k (List.replicate j []) = List.replicate j '\n' := by
  induction j with
  | zero => rfl
  | succ j ih =>
    rw [List.replicate_succ, List.replicate_succ, ← ih]
    rfl

/-- The characters of lines are spaces, the ends of lines and those of the lines. -/
theorem mem_linesIn {k : Nat} {ls : List (List Char)} {d : Char} (h : d ∈ linesIn k ls) :
    d = ' ' ∨ d = '\n' ∨ ∃ l ∈ ls, d ∈ l := by
  obtain ⟨l, hl, hd⟩ := List.mem_flatMap.mp h
  rw [lineIn] at hd
  split at hd
  · exact Or.inr (Or.inl (List.mem_singleton.mp hd))
  · rw [List.mem_append, List.mem_append, List.mem_singleton] at hd
    obtain hd | hd | hd := hd
    · exact Or.inl (List.eq_of_mem_replicate hd)
    · exact Or.inr (Or.inr ⟨l, hl, hd⟩)
    · exact Or.inr (Or.inl hd)

theorem length_le_linesIn (k : Nat) (ls : List (List Char)) :
    ls.length ≤ (linesIn k ls).length := by
  have hpos : ∀ l, 1 ≤ (lineIn k l).length := by
    intro l
    rw [lineIn]
    split
    · exact Nat.le_refl 1
    · simp only [List.length_append, List.length_singleton]
      omega
  induction ls with
  | nil => exact Nat.le_refl 0
  | cons l ls ih =>
    have := hpos l
    rw [linesIn, List.flatMap_cons, List.length_append, List.length_cons]
    rw [linesIn] at ih
    omega

theorem intercalate_blank (l l' : List Char) (j : Nat) (ls : List (List Char)) :
    ['\n'].intercalate (l :: (List.replicate j [] ++ l' :: ls)) =
      l ++ '\n' :: (List.replicate j '\n' ++ ['\n'].intercalate (l' :: ls)) := by
  induction j generalizing l with
  | zero => simp [List.intercalate_cons_cons]
  | succ j ih =>
    rw [List.replicate_succ, List.cons_append, List.intercalate_cons_cons, ih]
    simp [List.replicate_succ]

/-- Lines begin with empty ones. -/
theorem exists_blank (ls : List (List Char)) :
    ∃ j ls', ls = List.replicate j [] ++ ls' ∧ ls'.head? ≠ some [] := by
  induction ls with
  | nil => exact ⟨0, [], rfl, nofun⟩
  | cons l ls ih =>
    obtain ⟨j, ls', rfl, hls'⟩ := ih
    by_cases hl : l = []
    · exact ⟨j + 1, ls', by rw [hl]; rfl, hls'⟩
    · exact ⟨0, l :: (List.replicate j [] ++ ls'), rfl, fun heq ↦ hl (Option.some.inj heq)⟩

/-! ### Blank lines -/

section Blank

variable {c : Cursor} {rest breaks : List Char} {indent : Option Nat} {j m fuel widest : Nat}

/-- How many spaces of a line count as its indentation. -/
private def indentation (indent : Option Nat) (c : Cursor) : Nat :=
  (c.rest.takeWhile (· == ' ')).length.min (indent.elim c.rest.length (· - c.column))

private theorem readBlankLines_succ (indent : Option Nat) (fuel : Nat) (breaks : List Char)
    (widest : Nat) (c : Cursor) :
    readBlankLines indent (fuel + 1) breaks widest c =
      let next := c.skips (indentation indent c)
      if indent.all (next.column < ·) && next.peek? == some '\t' then next.fail
      else if next.peek?.any isBreak then
        readBlankLines indent fuel (breaks ++ next.breakText) (max widest next.column)
          next.skipBreak
      else .ok (breaks, max widest next.column, next) := by
  cases indent <;> rfl

private theorem indentation_eq (hcolumn : c.column = 0)
    (hindent : indent = some m ∨ OpensWord rest ∧ ∀ k ∈ indent, m ≤ k)
    (hc : c.rest = List.replicate m ' ' ++ rest) : indentation indent c = m := by
  have htaken : (c.rest.takeWhile (· == ' ')).length =
      m + (rest.takeWhile (· == ' ')).length := by
    rw [hc, List.takeWhile_append_of_pos fun d hd ↦ beq_iff_eq.mpr (List.eq_of_mem_replicate hd),
      List.length_append, List.length_replicate]
  rw [indentation, htaken]
  obtain rfl | ⟨hopens, hle⟩ := hindent
  · rw [hcolumn]
    exact Nat.min_eq_right (Nat.le_add_right m _)
  · have hnone : rest.takeWhile (· == ' ') = [] := by
      cases rest with
      | nil => rfl
      | cons d rest =>
        have hd := (hopens d rfl).1
        rw [isSpaceOrTab, Bool.or_eq_false_iff] at hd
        exact List.takeWhile_cons_of_neg (Bool.eq_false_iff.mp hd.1)
    rw [hnone]
    cases indent with
    | none => exact Nat.min_eq_left (by simp [hc])
    | some k => exact Nat.min_eq_left (by simpa [hcolumn] using hle k rfl)

/-- A line with text stops the reading of blank lines behind its indentation. -/
private theorem readBlankLines_line (hcolumn : c.column = 0)
    (hbreak : ∀ d ∈ rest.head?, isBreak d = false)
    (hindent : indent = some m ∨ OpensWord rest ∧ ∀ k ∈ indent, m ≤ k)
    (hc : c.rest = List.replicate m ' ' ++ rest) :
    readBlankLines indent (fuel + 1) breaks widest c =
      .ok (breaks, max widest m, c.after (List.replicate m ' ') rest) := by
  have hskips := Cursor.skips_eq_after hc
  rw [List.length_replicate] at hskips
  have hafter : (c.after (List.replicate m ' ') rest).column = m := by simp [hcolumn]
  have htab : (indent.all (m < ·) && rest.head? == some '\t') = false := by
    obtain rfl | ⟨hopens, -⟩ := hindent
    · simp
    · rw [Bool.and_eq_false_iff]
      refine Or.inr (beq_false_of_ne fun heq ↦ ?_)
      exact absurd (hopens '\t' heq).1 (by decide)
  have hpeek : rest.head?.any isBreak = false := by
    cases hhead : rest.head? with
    | none => rfl
    | some d => exact hbreak d hhead
  rw [readBlankLines_succ, indentation_eq hcolumn hindent hc, hskips]
  simp only [hafter, Cursor.peek?, Cursor.after_rest, htab, hpeek, Bool.false_eq_true, if_false]

/-- Blank lines are read up to a line with text. -/
theorem readBlankLines_text (hcolumn : c.column = 0)
    (hbreak : ∀ d ∈ rest.head?, isBreak d = false)
    (hindent : indent = some m ∨ OpensWord rest ∧ ∀ k ∈ indent, m ≤ k) (hfuel : j < fuel)
    (hc : c.rest = List.replicate j '\n' ++ (List.replicate m ' ' ++ rest)) (breaks : List Char)
    (widest : Nat) :
    ∃ c', readBlankLines indent fuel breaks widest c =
      .ok (breaks ++ List.replicate j '\n', max widest m, c') ∧ c'.rest = rest ∧
        c'.column = m := by
  induction j generalizing c fuel breaks widest with
  | zero =>
    obtain ⟨fuel, rfl⟩ := Nat.exists_eq_succ_of_ne_zero (Nat.ne_zero_of_lt hfuel)
    rw [readBlankLines_line hcolumn hbreak hindent hc, List.replicate_zero, List.append_nil]
    exact ⟨_, rfl, rfl, by simp [hcolumn]⟩
  | succ j ih =>
    obtain ⟨fuel, rfl⟩ := Nat.exists_eq_succ_of_ne_zero (Nat.ne_zero_of_lt hfuel)
    rw [List.replicate_succ, List.cons_append] at hc
    have hnone : indentation indent c = 0 := by
      rw [indentation, hc]
      exact Nat.zero_min _
    have hskip : c.skipBreak =
        ⟨List.replicate j '\n' ++ (List.replicate m ' ' ++ rest), c.index + 1, c.line + 1, 0⟩ := by
      rw [Cursor.skipBreak, hc]
      rfl
    have hstep : readBlankLines indent (fuel + 1) breaks widest c =
        readBlankLines indent fuel (breaks ++ ['\n']) widest c.skipBreak := by
      rw [readBlankLines_succ, hnone]
      simp [Cursor.skips, Cursor.peek?, hc, isBreak, hcolumn, Cursor.breakText]
    obtain ⟨c', hread, hc'⟩ := ih (c := c.skipBreak) (by rw [hskip])
      (Nat.lt_of_succ_lt_succ hfuel) (by rw [hskip]) (breaks ++ ['\n']) widest
    refine ⟨c', ?_, hc'⟩
    rw [hstep, hread, List.append_assoc, ← List.singleton_append, List.replicate_succ]
    rfl

end Blank

/-! ### Literals -/

section Literal

variable {c : Cursor} {l rest : List Char} {ls : List (List Char)} {j k m fuel : Nat}

/-- The reading of a literal goes on behind a line and the blank lines after it. -/
private theorem readBlockLines_step (fuel : Nat) (hcolumn : c.column = k)
    (hl : ∀ d ∈ l, isBreak d = false) (hbreak : ∀ d ∈ rest.head?, isBreak d = false)
    (hm : m = k ∨ OpensWord rest ∧ m < k)
    (hc : c.rest = l ++ '\n' :: (List.replicate j '\n' ++ (List.replicate m ' ' ++ rest)))
    (read : List Char) (g : BlockGap) :
    ∃ blank c', readBlockLines true k (fuel + 1) read g c =
      readBlockLines true k fuel (l.reverse ++ ((g.first ++ g.further).reverse ++ read))
        ⟨['\n'], List.replicate j '\n', blank⟩ c' ∧ c'.rest = rest ∧ c'.column = m := by
  have hspan : c.span (!isBreak ·) =
      (l, c.after l ('\n' :: (List.replicate j '\n' ++ (List.replicate m ' ' ++ rest)))) := by
    refine Cursor.span_eq_after hc (fun d hd ↦ ?_) fun d hd ↦ ?_
    · rw [hl d hd]
      rfl
    · obtain rfl := Option.some.inj hd
      rfl
  have hgo : ¬(c.column ≠ k ∨ c.rest = []) := by simp [hcolumn, hc]
  have hindent : some k = some m ∨ OpensWord rest ∧ ∀ i ∈ some k, m ≤ i := by
    obtain rfl | ⟨hopens, hlt⟩ := hm
    · exact Or.inl rfl
    · exact Or.inr ⟨hopens, fun i hi ↦ Option.some.inj hi ▸ hlt.le⟩
  have hfuel :
      j < ('\n' :: (List.replicate j '\n' ++ (List.replicate m ' ' ++ rest))).length + 1 := by
    rw [List.length_cons, List.length_append, List.length_replicate]
    omega
  obtain ⟨c', hblank, hc', hcolumn'⟩ := readBlankLines_text
    (c := ⟨List.replicate j '\n' ++ (List.replicate m ' ' ++ rest), c.index + l.length + 1,
      c.line + 1, 0⟩) rfl hbreak hindent hfuel rfl [] 0
  refine ⟨c.peek?.any isSpaceOrTab, c', ?_, hc', hcolumn'⟩
  have hskip :
      (c.after l ('\n' :: (List.replicate j '\n' ++ (List.replicate m ' ' ++ rest)))).skipBreak =
      ⟨List.replicate j '\n' ++ (List.replicate m ' ' ++ rest), c.index + l.length + 1,
        c.line + 1, 0⟩ := rfl
  rw [readBlockLines, if_neg hgo, hspan]
  simp only [bind, Except.bind, Cursor.after_rest, hskip, hblank, Bool.not_true, Bool.false_and,
    Bool.false_eq_true, if_false, List.append_assoc]
  rfl

/-- The lines of a literal are read up to a line that stands further left. The induction is on the
fuel, as a line takes the blank lines behind it with it. -/
private theorem readBlockLines_text (hm : m < k) (hrest : OpensWord rest) (hl : l ≠ [])
    (hbreak : ∀ l' ∈ l :: ls, ∀ d ∈ l', isBreak d = false) (hlast : (l :: ls).getLast? ≠ some [])
    (hfuel : (l :: ls).length < fuel) (read : Reversed) (g : BlockGap) (hcolumn : c.column = k)
    (hc : c.rest = l ++ '\n' :: (linesIn k ls ++ (List.replicate m ' ' ++ rest))) :
    ∃ g' c', readBlockLines true k fuel read g c =
      .ok ((['\n'].intercalate (l :: ls)).reverse ++ ((g.first ++ g.further).reverse ++ read), g',
        c') ∧ c'.rest = rest ∧ c'.column = m := by
  induction fuel generalizing c l ls read g with
  | zero => exact absurd hfuel (Nat.not_lt_zero _)
  | succ fuel ih =>
    obtain ⟨j, ls', rfl, hls'⟩ := exists_blank ls
    rw [linesIn_append, linesIn_replicate, List.append_assoc] at hc
    cases ls' with
    | nil =>
      have hj : j = 0 := by
        cases j with
        | zero => rfl
        | succ j =>
          rw [List.append_nil, List.replicate_succ', ← List.cons_append,
            List.getLast?_concat] at hlast
          exact absurd rfl hlast
      subst hj
      obtain ⟨blank, c', hstep, hc', hcolumn'⟩ := readBlockLines_step fuel hcolumn
        (hbreak l List.mem_cons_self) (fun d hd ↦ (hrest d hd).2) (Or.inr ⟨hrest, hm⟩) hc read g
      refine ⟨⟨['\n'], [], blank⟩, c', ?_, hc', hcolumn'⟩
      obtain ⟨fuel, rfl⟩ := Nat.exists_eq_succ_of_ne_zero
        (show fuel ≠ 0 by rintro rfl; exact absurd hfuel (by simp))
      rw [hstep, readBlockLines, if_pos (Or.inl (hcolumn' ▸ hm.ne))]
      simp
    | cons l' ls' =>
      have hl' : l' ≠ [] := fun heq ↦ hls' (congrArg some heq)
      have hbreak' : ∀ l'' ∈ l' :: ls', ∀ d ∈ l'', isBreak d = false :=
        fun l'' h ↦ hbreak l'' (List.mem_cons_of_mem l (List.mem_append_right _ h))
      have hhead : ∀ d ∈ (l' ++ '\n' :: (linesIn k ls' ++ (List.replicate m ' ' ++ rest))).head?,
          isBreak d = false := by
        obtain ⟨b, l', rfl⟩ := List.exists_cons_of_ne_nil hl'
        rintro d hd
        obtain rfl := Option.some.inj hd
        exact hbreak' _ List.mem_cons_self b List.mem_cons_self
      rw [linesIn_cons_of_ne_nil hl', List.append_assoc, List.append_assoc, List.cons_append] at hc
      obtain ⟨blank, c', hstep, hc', hcolumn'⟩ := readBlockLines_step fuel hcolumn
        (hbreak l List.mem_cons_self) hhead (Or.inl rfl) hc read g
      have hlast' : (l' :: ls').getLast? ≠ some [] := by
        rwa [← List.cons_append, List.getLast?_append_cons] at hlast
      obtain ⟨g', c'', hread, hc''⟩ := ih hl' hbreak' hlast' (by simp at hfuel ⊢; omega) _ _
        hcolumn' hc'
      refine ⟨g', c'', ?_, hc''⟩
      rw [hstep, hread, intercalate_blank]
      simp

private theorem readHeader_strip (hc : c.rest = '-' :: '\n' :: rest) :
    readHeader c = .ok (.strip, none, c.after ['-'] ('\n' :: rest)) := by
  have hchomping : readChomping c = (some .strip, c.skip) := by
    rw [readChomping, Cursor.peek?_cons hc]
    rfl
  have hwidth : readWidth c.skip = .ok (none, c.skip) := by
    rw [readWidth, Cursor.skip_eq_after hc]
    rfl
  rw [readHeader, hchomping]
  simp only [hwidth, bind, Except.bind]
  rw [Cursor.skip_eq_after hc]
  rfl

/-- A literal whose last line break is dropped is what its lines are read as. -/
private theorem readBlock_strip {body : List Char} {parent : Int} {read : Reversed} {g : BlockGap}
    {c₁ c' : Cursor} (hc : c.rest = '|' :: '-' :: '\n' :: body) (hparent : parent < k) (hk : 0 < k)
    (hblank : readBlankLines none (body.length + 1) [] 0 ⟨body, c.index + 3, c.line + 1, 0⟩ =
      .ok ([], k, c₁))
    (hread : readBlockLines true k (c₁.rest.length + 1) [] ⟨[], [], false⟩ c₁ = .ok (read, g, c')) :
    readBlock true parent c = .ok (String.ofList read.reverse, c') := by
  have hheader : readHeader c.skip = .ok (.strip, none, c.after ['|', '-'] ('\n' :: body)) := by
    rw [Cursor.skip_eq_after hc, readHeader_strip rfl, Cursor.after_after]
    rfl
  have hcomment : (c.after ['|', '-'] ('\n' :: body)).skipComment =
      c.after ['|', '-'] ('\n' :: body) := rfl
  have hskip : (c.after ['|', '-'] ('\n' :: body)).skipBreak =
      ⟨body, c.index + 3, c.line + 1, 0⟩ := rfl
  have hindent : max (max k (parent + 1).toNat) 1 = k := by omega
  rw [readBlock, hheader]
  simp only [bind, Except.bind, hcomment, hskip, Option.map_none, Option.getD_none, hindent, hblank,
    hread, List.append_nil, Cursor.after_rest, atBreakOrEnd]
  rfl

/-- A literal is read back as its lines, up to a line that stands further left. -/
theorem readBlock_text {parent : Int} (hparent : parent < k) (hm : m < k)
    (hrest : OpensWord rest) (hl : l ≠ []) (hhead : l.head? ≠ some ' ')
    (hline : ∀ l' ∈ l :: ls, ∀ d ∈ l', isOrdinary d = true)
    (hlast : (l :: ls).getLast? ≠ some [])
    (hc : c.rest = '|' :: '-' :: '\n' :: (linesIn k (l :: ls) ++ (List.replicate m ' ' ++ rest))) :
    ∃ c', readBlock true parent c = .ok (String.ofList (['\n'].intercalate (l :: ls)), c') ∧
      c'.rest = rest ∧ c'.column = m := by
  rw [linesIn_cons_of_ne_nil hl, List.append_assoc, List.append_assoc] at hc
  have hopens : OpensWord (l ++ '\n' :: (linesIn k ls ++ (List.replicate m ' ' ++ rest))) := by
    obtain ⟨b, l, rfl⟩ := List.exists_cons_of_ne_nil hl
    exact opensWord_cons (hline _ List.mem_cons_self b List.mem_cons_self)
      (fun heq ↦ hhead (congrArg some heq)) _
  have hbreak : ∀ l' ∈ l :: ls, ∀ d ∈ l', isBreak d = false :=
    fun l' hl' d hd ↦ isBreak_of_isOrdinary (hline l' hl' d hd)
  obtain ⟨c₁, hblank, hc₁, hcolumn₁⟩ := readBlankLines_text (j := 0) (m := k)
    (c := ⟨_, c.index + 3, c.line + 1, 0⟩) rfl (fun d hd ↦ (hopens d hd).2)
    (Or.inr ⟨hopens, show ∀ i ∈ (none : Option Nat), k ≤ i from nofun⟩) (Nat.succ_pos _) rfl [] 0
  have hfuel : (l :: ls).length < c₁.rest.length + 1 := by
    have := length_le_linesIn k ls
    have := List.length_pos_of_ne_nil hl
    rw [hc₁, List.length_cons, List.length_append, List.length_cons, List.length_append]
    omega
  obtain ⟨g', c', hread, hc', hcolumn'⟩ := readBlockLines_text hm hrest hl hbreak hlast hfuel []
    ⟨[], [], false⟩ hcolumn₁ hc₁
  refine ⟨c', ?_, hc', hcolumn'⟩
  rw [readBlock_strip hc hparent (Nat.zero_lt_of_lt hm) hblank hread]
  simp

end Literal

end PipingAssembly.Yaml
