import PipingAssembly.Proofs.Results
import PipingAssembly.Proofs.Yaml.Cursors

/-!
# Reading plain and quoted scalars

A scalar of one line is read word by word. Spaces between two words are a gap that is kept as it is,
and a plain scalar ends with its line.
-/

namespace PipingAssembly.Yaml

/-! ### Words and gaps -/

/-- A text begins with a word, which may be empty, and the spaces behind it. -/
theorem exists_word (cs : List Char) :
    ∃ w n r, cs = w ++ (List.replicate n ' ' ++ r) ∧ ' ' ∉ w ∧ r.head? ≠ some ' ' ∧
      (n = 0 → r = []) := by
  induction cs with
  | nil => exact ⟨[], 0, [], rfl, List.not_mem_nil, nofun, fun _ ↦ rfl⟩
  | cons c cs ih =>
    obtain ⟨w, n, r, rfl, hw, hr, hn⟩ := ih
    by_cases hc : c = ' '
    · subst hc
      cases w with
      | nil => exact ⟨[], n + 1, r, rfl, List.not_mem_nil, hr, nofun⟩
      | cons d w =>
        refine ⟨[], 1, d :: w ++ (List.replicate n ' ' ++ r), rfl, List.not_mem_nil, ?_, nofun⟩
        rintro heq
        exact hw (by rw [Option.some.inj heq]; exact List.mem_cons_self)
    · exact ⟨c :: w, n, r, rfl, by simp [Ne.symm hc, hw], hr, hn⟩

/-- Whether a text begins neither with white space nor with a line break. -/
def OpensWord (cs : List Char) : Prop := ∀ d ∈ cs.head?, isSpaceOrTab d = false ∧ isBreak d = false

theorem opensWord_cons {d : Char} (hd : isOrdinary d = true) (hspace : d ≠ ' ') (rest : List Char) :
    OpensWord (d :: rest) := by
  rintro e he
  obtain rfl := Option.some.inj he
  rw [isSpaceOrTab_of_isOrdinary hd]
  exact ⟨beq_false_of_ne hspace, isBreak_of_isOrdinary hd⟩

/-- A gap of blanks within a line. -/
def Gap.within (blanks : Reversed) : Gap := ⟨blanks, [], [], false⟩

theorem Gap.text_within (n : Nat) :
    (Gap.within (List.replicate n ' ')).text = List.replicate n ' ' :=
  List.reverse_replicate

section Gaps

variable {g : Gap} {blanks : Reversed} {c : Cursor} {indent : Option Nat} {n fuel : Nat}
  {rest : List Char} (hrest : OpensWord rest)
include hrest

private theorem readGap_of_opensWord (hc : c.rest = rest) (hfuel : 0 < fuel) :
    readGap indent fuel g c = .ok (g, c) := by
  obtain ⟨fuel, rfl⟩ := Nat.exists_eq_succ_of_ne_zero (Nat.ne_of_gt hfuel)
  rw [readGap, Cursor.peek?, hc]
  cases hhead : rest.head? with
  | none => rfl
  | some d =>
    obtain ⟨hblank, hbreak⟩ := hrest d hhead
    simp [hblank, hbreak]

private theorem readGap_within (hc : c.rest = List.replicate n ' ' ++ rest) (hfuel : n < fuel) :
    readGap indent fuel (.within blanks) c =
      .ok (.within (List.replicate n ' ' ++ blanks), c.after (List.replicate n ' ') rest) := by
  induction n generalizing blanks c fuel with
  | zero =>
    rw [readGap_of_opensWord hrest hc hfuel, List.replicate_zero,
      Cursor.after_nil (show c.rest = rest from hc)]
    rfl
  | succ n ih =>
    obtain ⟨fuel, rfl⟩ := Nat.exists_eq_succ_of_ne_zero (Nat.ne_zero_of_lt hfuel)
    rw [List.replicate_succ, List.cons_append] at hc
    have hskip := Cursor.skip_eq_after hc
    have hstep : readGap indent (fuel + 1) (.within blanks) c =
        readGap indent fuel (.within (' ' :: blanks)) c.skip := by
      rw [readGap, Cursor.peek?_cons hc]
      rfl
    rw [hstep, ih (by rw [hskip]; rfl) (by omega), hskip, Cursor.after_after,
      List.append_cons, ← List.replicate_succ']
    rfl

/-- Spaces within a line are kept. -/
theorem readGap_spaces (hc : c.rest = List.replicate n ' ' ++ rest) :
    readGap indent (c.rest.length + 1) (.within blanks) c =
      .ok (.within (List.replicate n ' ' ++ blanks), c.after (List.replicate n ' ') rest) := by
  refine readGap_within hrest hc ?_
  rw [hc, List.length_append, List.length_replicate]
  omega

private theorem readGap_indentation (hg : g.broken = true)
    (hc : c.rest = List.replicate n ' ' ++ rest) (hfuel : n < fuel) :
    readGap indent fuel g c = .ok (g, c.after (List.replicate n ' ') rest) := by
  induction n generalizing c fuel with
  | zero =>
    rw [readGap_of_opensWord hrest hc hfuel, List.replicate_zero,
      Cursor.after_nil (show c.rest = rest from hc)]
  | succ n ih =>
    obtain ⟨fuel, rfl⟩ := Nat.exists_eq_succ_of_ne_zero (Nat.ne_zero_of_lt hfuel)
    rw [List.replicate_succ, List.cons_append] at hc
    have hskip := Cursor.skip_eq_after hc
    have hstep : readGap indent (fuel + 1) g c = readGap indent fuel g c.skip := by
      rw [readGap, Cursor.peek?_cons hc]
      simp only [hg, Bool.true_and, show (' ' == '\t') = false from rfl, Bool.false_and, if_true,
        if_false, Bool.false_eq_true, show isSpaceOrTab ' ' = true from rfl]
    rw [hstep, ih (by rw [hskip]; rfl) (by omega), hskip, Cursor.after_after]
    rfl

/-- A gap that begins with the end of a line goes on to the first word of the next one. -/
theorem readGap_lineEnd (hc : c.rest = '\n' :: (List.replicate n ' ' ++ rest)) :
    ∃ g c', readGap indent (c.rest.length + 1) (.within blanks) c = .ok (g, c') ∧
      g.broken = true ∧ c'.rest = rest ∧ c'.column = n := by
  have hlength : n < c.rest.length := by
    rw [hc, List.length_cons, List.length_append, List.length_replicate]
    omega
  have hskip : c.skipBreak = ⟨List.replicate n ' ' ++ rest, c.index + 1, c.line + 1, 0⟩ := by
    rw [Cursor.skipBreak, hc]
    rfl
  have hstep : readGap indent (c.rest.length + 1) (.within blanks) c =
      readGap indent c.rest.length ⟨[], c.breakText, [], true⟩ c.skipBreak := by
    rw [readGap, Cursor.peek?_cons hc]
    rfl
  rw [hstep, hskip, readGap_indentation hrest rfl rfl hlength]
  exact ⟨_, _, rfl, rfl, rfl, by simp⟩

end Gaps

/-! ### Plain scalars -/

/-- A colon in a text without markup stands before something. -/
theorem colon_of_containsMarkup {a : Char} {cs p q : List Char}
    (h : containsMarkup (a :: cs) = false) (hcs : cs = p ++ ':' :: q) :
    ∃ d r, q = d :: r ∧ isGap d = false := by
  subst hcs
  induction p generalizing a with
  | nil =>
    rw [List.nil_append, containsMarkup, Bool.or_eq_false_iff, Bool.or_eq_false_iff] at h
    cases q with
    | nil => cases h.1.1
    | cons d r => exact ⟨d, r, rfl, h.1.1⟩
  | cons b p ih =>
    rw [List.cons_append, containsMarkup, Bool.or_eq_false_iff] at h
    exact ih h.2

theorem containsMarkup_of_append {p : List Char} {a : Char} {cs : List Char}
    (h : containsMarkup (p ++ a :: cs) = false) : containsMarkup (a :: cs) = false := by
  induction p with
  | nil => exact h
  | cons b p ih =>
    apply ih
    cases p with
    | nil =>
      rw [List.cons_append, List.nil_append, containsMarkup, Bool.or_eq_false_iff] at h
      exact h.2
    | cons b' p =>
      rw [List.cons_append, List.cons_append, containsMarkup, Bool.or_eq_false_iff] at h
      exact h.2

section Plain

variable {c : Cursor} {w rest : List Char} {fuel : Nat}

private theorem readPlainRun_within (hw : ∀ d ∈ w, isOrdinary d = true ∧ d ≠ ' ')
    (hcolon : ∀ p q, w = p ++ ':' :: q → atBlankOrEnd (q ++ rest) = false)
    (hrest : atBlankOrEnd rest = true ∨ endsPlain false rest = true) (hfuel : w.length < fuel)
    (read : Reversed) (hc : c.rest = w ++ rest) :
    readPlainRun false fuel read c = .ok (w.reverse ++ read, c.after w rest) := by
  induction w generalizing c fuel read with
  | nil =>
    obtain ⟨fuel, rfl⟩ := Nat.exists_eq_succ_of_ne_zero (Nat.ne_zero_of_lt hfuel)
    rw [List.nil_append] at hc
    rw [readPlainRun, hc, List.reverse_nil, List.nil_append, Cursor.after_nil hc]
    cases rest with
    | nil => rfl
    | cons d rest =>
      obtain hblank | hends := hrest
      · simp [hblank]
      · simp [hends]
  | cons b w ih =>
    obtain ⟨⟨hb, hspace⟩, hw⟩ := List.forall_mem_cons.mp hw
    have hblank : atBlankOrEnd (b :: (w ++ rest)) = false := by
      rw [atBlankOrEnd, isBreak_of_isOrdinary hb, isSpaceOrTab_of_isOrdinary hb,
        beq_false_of_ne hspace]
      rfl
    have hends : endsPlain false (b :: (w ++ rest)) = false := by
      by_cases hbcolon : b = ':'
      · subst hbcolon
        exact hcolon [] w rfl
      · rw [endsPlain]
        · rfl
        · exact hbcolon
    have hskip := Cursor.skip_eq_after hc
    obtain ⟨fuel, rfl⟩ := Nat.exists_eq_succ_of_ne_zero (Nat.ne_zero_of_lt hfuel)
    have hstep : readPlainRun false (fuel + 1) read c =
        readPlainRun false fuel (b :: read) c.skip := by
      rw [readPlainRun, hc, List.cons_append]
      simp only [hblank, hends, Bool.false_and, Bool.false_eq_true, if_false]
    rw [hstep, ih hw (fun p q hq ↦ hcolon (b :: p) q (by rw [hq]; rfl))
      (Nat.lt_of_succ_lt_succ hfuel) (b :: read) (by rw [hskip]; rfl), hskip, Cursor.after_after,
      List.reverse_cons, List.append_assoc]
    rfl

/-- A word is read up to white space or to a colon that ends the scalar. -/
theorem readPlainRun_word (hw : ∀ d ∈ w, isOrdinary d = true ∧ d ≠ ' ')
    (hcolon : ∀ p q, w = p ++ ':' :: q → atBlankOrEnd (q ++ rest) = false)
    (hrest : atBlankOrEnd rest = true ∨ endsPlain false rest = true) (hc : c.rest = w ++ rest) :
    readPlainRun false (c.rest.length + 1) [] c = .ok (w.reverse, c.after w rest) := by
  have hfuel : w.length < c.rest.length + 1 := by
    rw [hc, List.length_append]
    omega
  rw [readPlainRun_within hw hcolon hrest hfuel [] hc, List.append_nil]

/-- Whether a text of one line can be read back without quotes. -/
structure IsPlain (cs : List Char) : Prop where
  ordinary : ∀ d ∈ cs, isOrdinary d = true
  markup : containsMarkup (' ' :: cs) = false
  head : cs.head? ≠ some ' '
  last : cs.getLast? ≠ some ' '

/-- Behind the gap after its first word a plain text is plain again. -/
private theorem IsPlain.behindGap {n : Nat} {r : List Char}
    (h : IsPlain (w ++ (List.replicate n ' ' ++ r)))
    (hr : r.head? ≠ some ' ') (hn : n ≠ 0) : r ≠ [] ∧ IsPlain r := by
  obtain ⟨n, rfl⟩ := Nat.exists_eq_succ_of_ne_zero hn
  have hlast : (List.replicate (n + 1) ' ').getLast? = some ' ' := by
    rw [List.replicate_succ', List.getLast?_concat]
  have hne : r ≠ [] := by
    rintro rfl
    apply h.last
    rw [List.append_nil, List.getLast?_append, hlast]
    rfl
  refine ⟨hne, fun d hd ↦ h.ordinary d (by simp [hd]), ?_, hr, fun heq ↦ h.last ?_⟩
  · have hmarkup := h.markup
    rw [List.replicate_succ', List.append_assoc, List.singleton_append, ← List.append_assoc,
      ← List.cons_append] at hmarkup
    exact containsMarkup_of_append hmarkup
  · rw [List.getLast?_append, List.getLast?_append, heq]
    rfl

theorem IsPlain.opensWord {cs : List Char} (h : IsPlain cs) (hne : cs ≠ []) (rest : List Char) :
    OpensWord (cs ++ rest) := by
  obtain ⟨b, cs, rfl⟩ := List.exists_cons_of_ne_nil hne
  exact opensWord_cons (h.ordinary b List.mem_cons_self) (fun heq ↦ h.head (congrArg some heq)) _

/-- A plain text behind a space does not begin a comment. -/
private theorem IsPlain.head_ne_hash {cs : List Char} (h : IsPlain cs) : cs.head? ≠ some '#' := by
  cases cs with
  | nil => exact nofun
  | cons b cs =>
    have hmarkup := h.markup
    rw [containsMarkup, Bool.or_eq_false_iff, Bool.or_eq_false_iff] at hmarkup
    simpa [isGap] using hmarkup.1.2

/-- A colon within a word of a plain text does not end the scalar. -/
private theorem IsPlain.colon {cs more : List Char} (h : IsPlain (w ++ cs)) {p q : List Char}
    (hw : w = p ++ ':' :: q) : atBlankOrEnd (q ++ (cs ++ more)) = false := by
  subst hw
  obtain ⟨d, r, hqr, hgap⟩ := colon_of_containsMarkup h.markup
    (show (p ++ ':' :: q) ++ cs = p ++ ':' :: (q ++ cs) by simp)
  have hd : isOrdinary d = true := h.ordinary d (by simp [List.append_assoc, hqr])
  have hspace : (d == ' ') = false := by
    rw [isGap, Bool.or_eq_false_iff, Bool.or_eq_false_iff] at hgap
    exact hgap.1.1
  rw [← List.append_assoc, hqr, List.cons_append, atBlankOrEnd, isBreak_of_isOrdinary hd,
    isSpaceOrTab_of_isOrdinary hd, hspace]
  rfl

/-- A plain scalar goes on behind a word if the text after the gap is not indented less. -/
private theorem readPlainFrom_step {indent : Nat} {read blanks : Reversed} {g : Gap} {c' : Cursor}
    (hmarker : c.atDocumentMarker = false) (hhash : c.peek? ≠ some '#') (hw : w ≠ [])
    (hrun : readPlainRun false (c.rest.length + 1) [] c = .ok (w.reverse, c.after w rest))
    (hblank : atBlankOrEnd rest = true) (hrest : rest ≠ [])
    (hgap : readGap (some indent) (rest.length + 1) (.within []) (c.after w rest) = .ok (g, c')) :
    readPlainFrom false indent (fuel + 1) read (.within blanks) c =
      if c'.column < indent then .ok (w.reverse ++ (blanks ++ read), c', g.broken)
      else readPlainFrom false indent fuel (w.reverse ++ (blanks ++ read)) g c' := by
  have hreverse : w.reverse ≠ [] := mt List.reverse_eq_nil_iff.mp hw
  have htext : (Gap.within blanks).text.reverse = blanks := List.reverse_reverse blanks
  rw [readPlainFrom, hmarker, Bool.false_or, if_neg (by simpa using hhash), hrun]
  simp only [bind, Except.bind, if_neg hreverse, Cursor.after_rest, hblank, Bool.not_true,
    Bool.false_or, show Gap.none = Gap.within [] from rfl, hgap, Bool.not_false, Bool.true_and,
    decide_eq_true_eq, htext, List.append_assoc]
  exact if_neg (mt of_decide_eq_true hrest)

/-- A plain text is read word by word up to the end of its line, if the next line is indented less
than the text. -/
private theorem readPlainFrom_text {indent m : Nat} {rest : List Char} (hm : m < indent)
    (hrest : OpensWord rest) {cs : List Char} (hcs : IsPlain cs) (hne : cs ≠ [])
    (hfuel : cs.length ≤ fuel) (read blanks : Reversed) (hcolumn : indent ≤ c.column)
    (hmarker : c.atDocumentMarker = false)
    (hc : c.rest = cs ++ '\n' :: (List.replicate m ' ' ++ rest)) :
    ∃ c', readPlainFrom false indent fuel read (.within blanks) c =
      .ok (cs.reverse ++ (blanks ++ read), c', true) ∧ c'.rest = rest ∧ c'.column = m := by
  induction fuel generalizing cs c read blanks with
  | zero => exact absurd (List.length_eq_zero_iff.mp (Nat.le_zero.mp hfuel)) hne
  | succ fuel ih =>
    obtain ⟨w, n, r, rfl, hspace, hr, hn⟩ := exists_word cs
    have hword : w ≠ [] := by
      rintro rfl
      cases n with
      | zero => exact hne (hn rfl)
      | succ n => exact hcs.head rfl
    have hhash : c.peek? ≠ some '#' := by
      rw [Cursor.peek?, hc, List.head?_append_of_ne_nil _ hne]
      exact hcs.head_ne_hash
    have hblank : atBlankOrEnd (List.replicate n ' ' ++ r ++
        '\n' :: (List.replicate m ' ' ++ rest)) = true := by
      cases n with
      | zero => rw [hn rfl]; rfl
      | succ n => rfl
    have hrun := readPlainRun_word
      (fun d hd ↦ ⟨hcs.ordinary d (by simp [hd]), fun heq ↦ hspace (heq ▸ hd)⟩)
      (fun p q hw ↦ hcs.colon hw) (Or.inl hblank) (by rw [hc, List.append_assoc])
    obtain rfl | hn' := Nat.eq_zero_or_pos n
    · obtain rfl := hn rfl
      obtain ⟨g, c', hgap, hbroken, hc', hcolumn'⟩ := readGap_lineEnd hrest
        (Cursor.after_rest c w ('\n' :: (List.replicate m ' ' ++ rest)))
      refine ⟨c', ?_, hc', hcolumn'⟩
      rw [readPlainFrom_step hmarker hhash hword hrun hblank (by simp) hgap,
        if_pos (hcolumn' ▸ hm), hbroken, List.replicate_zero, List.nil_append, List.append_nil]
    · obtain ⟨hr', hplain⟩ := hcs.behindGap hr (Nat.ne_of_gt hn')
      have hbehind : (c.after w (List.replicate n ' ' ++ r ++
          '\n' :: (List.replicate m ' ' ++ rest))).rest =
          List.replicate n ' ' ++ (r ++ '\n' :: (List.replicate m ' ' ++ rest)) :=
        List.append_assoc _ _ _
      have hlength : 0 < w.length := List.length_pos_of_ne_nil hword
      rw [readPlainFrom_step hmarker hhash hword hrun hblank (by simp)
        (readGap_spaces (hplain.opensWord hr' _) hbehind), Cursor.after_after, List.append_nil,
        Cursor.after_column, if_neg (by omega)]
      obtain ⟨c', hread, hc', hcolumn'⟩ := ih hplain hr' (by simp at hfuel; omega)
        (w.reverse ++ (blanks ++ read)) (List.replicate n ' ')
        (show indent ≤ (c.after (w ++ List.replicate n ' ') _).column from
          Nat.le_add_right_of_le hcolumn)
        (Cursor.atDocumentMarker_eq_false (by rw [Cursor.after_column, List.length_append]; omega))
        rfl
      refine ⟨c', ?_, hc', hcolumn'⟩
      rw [hread]
      simp

/-- A plain text is read up to the end of its line, if the next line is indented less than it. -/
theorem readPlain_text {indent m : Nat} {cs : List Char} (hcs : IsPlain cs) (hne : cs ≠ [])
    (hcolumn : indent ≤ c.column) (hm : m < indent) (hrest : OpensWord rest)
    (hc : c.rest = cs ++ '\n' :: (List.replicate m ' ' ++ rest)) :
    ∃ c', readPlain false indent c = .ok (String.ofList cs, c', true) ∧ c'.rest = rest ∧
      c'.column = m := by
  have hfuel : cs.length ≤ c.rest.length + 1 := by
    rw [hc, List.length_append]
    omega
  obtain ⟨c', hread, hc', hcolumn'⟩ := readPlainFrom_text hm hrest hcs hne hfuel [] [] hcolumn
    (Cursor.atDocumentMarker_eq_false (by omega)) hc
  refine ⟨c', ?_, hc', hcolumn'⟩
  rw [readPlain, show Gap.none = Gap.within [] from rfl, hread]
  simp [Except.map]

/-- A word is read up to a colon that white space follows. -/
theorem readPlain_word {indent : Nat} (hw : ∀ d ∈ w, isOrdinary d = true ∧ d ≠ ' ' ∧ d ≠ ':')
    (hne : w ≠ []) (hhash : w.head? ≠ some '#') (hmarker : c.atDocumentMarker = false)
    (hblank : atBlankOrEnd rest = true) (hc : c.rest = w ++ ':' :: rest) :
    readPlain false indent c = .ok (String.ofList w, c.after w (':' :: rest), false) := by
  have hrun := readPlainRun_word (fun d hd ↦ ⟨(hw d hd).1, (hw d hd).2.1⟩)
    (fun p q hpq ↦ absurd rfl (hw ':' (by simp [hpq])).2.2)
    (Or.inr (show endsPlain false (':' :: rest) = true from hblank)) hc
  have hpeek : (c.peek? == some '#') = false := by
    obtain ⟨b, w', rfl⟩ := List.exists_cons_of_ne_nil hne
    rw [Cursor.peek?, hc]
    simpa using hhash
  have hreverse : w.reverse ≠ [] := by simpa using hne
  rw [readPlain, readPlainFrom, hmarker, hpeek, if_neg (by decide), hrun]
  simp [Except.map, bind, Except.bind, hne, Gap.none, Gap.text, atBlankOrEnd, isBreak, isSpaceOrTab]

end Plain

end PipingAssembly.Yaml
