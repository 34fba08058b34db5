import PipingAssembly.Proofs.Yaml.Literals
import PipingAssembly.Proofs.Yaml.Quotes

/-!
# Lexing blocks

A block is lexed token by token. Before each token white space is passed over and the blocks that
stand further right are closed, so that the lexing is described by the tokens it has, the columns of
its open blocks, and the text that begins with the next token.
-/

namespace PipingAssembly.Yaml

/-! ### Beginnings of tokens -/

/-- Whether a text is over or begins with a token. -/
def OpensToken (cs : List Char) : Prop :=
  ∀ d ∈ cs.head?, isOrdinary d = true ∧ d ≠ ' ' ∧ d ≠ '#'

theorem OpensToken.opensWord {cs : List Char} (h : OpensToken cs) : OpensWord cs := by
  cases cs with
  | nil => exact nofun
  | cons d cs =>
    obtain ⟨hd, hspace, -⟩ := h d rfl
    exact opensWord_cons hd hspace cs

/-- Whether a text begins a plain scalar: not with a mark, unless with one of three that something
stands behind. -/
def OpensPlain (cs : List Char) : Prop :=
  ∃ d r, cs = d :: r ∧ isOrdinary d = true ∧ d ≠ ' ' ∧ d ∉ leadingMarks ∧
    (d = '?' ∨ d = ':' ∨ d = '-' → atBlankOrEnd r = false)

/-- Whether a character is a letter or an underscore. -/
def isKeyChar (d : Char) : Bool := d.isAlpha || d == '_'

theorem isOrdinary_of_isKeyChar {d : Char} (h : isKeyChar d = true) : isOrdinary d = true := by
  have hrange : 0x41 ≤ d.toNat ∧ d.toNat ≤ 0x7A := by
    have hle : ∀ {a b : Char}, a.val ≤ b.val → a.toNat ≤ b.toNat := UInt32.le_iff_toNat_le.mp
    rw [isKeyChar, Bool.or_eq_true, beq_iff_eq] at h
    obtain halpha | rfl := h
    · obtain hupper | hlower := Bool.or_eq_true_iff.mp halpha
      · obtain ⟨hlow, hhigh⟩ := of_decide_eq_true hupper
        exact ⟨hle hlow, (hle hhigh).trans (by decide)⟩
      · obtain ⟨hlow, hhigh⟩ := Bool.and_eq_true_iff.mp hlower
        exact ⟨(hle (of_decide_eq_true hlow)).trans' (by decide), hle (of_decide_eq_true hhigh)⟩
    · decide
  have hprint : isPrintable d = true := by
    have hle : ' ' ≤ d ∧ d ≤ '~' := ⟨hrange.1.trans' (by decide), hrange.2.trans (by decide)⟩
    simp [isPrintable, hle]
  have hne : ∀ e : Char, 0x7A < e.toNat ∨ e.toNat < 0x41 → d ≠ e := by
    rintro e he rfl
    omega
  simp [isOrdinary, hprint, hne '\n' (by decide), hne '\u2028' (by decide),
    hne '\u2029' (by decide)]

/-- Whether a text is a key that is written without quotes, and short. -/
structure IsKey (w : List Char) : Prop where
  letters : ∀ d ∈ w, isKeyChar d = true
  nonempty : w ≠ []
  short : w.length ≤ 1024

theorem IsKey.opensPlain {w : List Char} (hw : IsKey w) (rest : List Char) :
    OpensPlain (w ++ rest) := by
  obtain ⟨d, w, rfl⟩ := List.exists_cons_of_ne_nil hw.nonempty
  have hd := hw.letters d List.mem_cons_self
  refine ⟨d, w ++ rest, rfl, isOrdinary_of_isKeyChar hd, ne_of_test hd rfl, fun hmark ↦ ?_, ?_⟩
  · have hall : leadingMarks.all (!isKeyChar ·) = true := rfl
    have hnot := List.all_eq_true.mp hall d hmark
    rw [hd] at hnot
    exact Bool.noConfusion hnot
  · rintro (rfl | rfl | rfl) <;> exact Bool.noConfusion hd

namespace Lexing

/-- The columns of the open blocks, the innermost first. -/
def blocks (s : Lexing) : List Int := s.indent :: s.outerIndents

/-- Whether a lexing has tokens and open blocks, without a candidate, and stands in a column before
a text. -/
structure Stands (s : Lexing) (ts : List Token) (blocks : List Int) (cs : List Char)
    (column : Nat) (keyAllowed : Bool) : Prop where
  tokens : s.tokens.map (·.1) = ts
  blocks : s.blocks = blocks
  rest : s.cursor.rest = cs
  column : s.cursor.column = column
  keyAllowed : s.keyAllowed = keyAllowed
  candidates : s.candidates = [none]

section Lexing

variable {s s' : Lexing} {ts : List Token} {blocks : List Int} {cs rest : List Char}
  {m n column fuel : Nat} {allowed : Bool}

theorem inFlow_of_candidates {k : Option KeyCandidate} (h : s.candidates = [k]) :
    s.inFlow = false := by
  rw [inFlow, h]
  rfl

/-! ### White space before a token -/

/-- A byte order mark begins no text of a line. -/
private theorem peek?_ne_mark {c : Cursor} (hopens : OpensToken rest)
    (hrest : c.rest = List.replicate n ' ' ++ rest) : c.peek? ≠ some '\uFEFF' := by
  rw [Cursor.peek?, hrest]
  cases n with
  | zero => exact fun heq ↦ absurd (hopens _ heq).1 (by decide)
  | succ n => exact fun heq ↦ absurd (Option.some.inj heq) (by decide)

/-- Spaces before a token are passed over. -/
theorem skipToToken_spaces (hopens : OpensToken rest)
    (hrest : s.cursor.rest = List.replicate n ' ' ++ rest) :
    skipToToken (fuel + 1) s =
      { s with cursor := s.cursor.after (List.replicate n ' ') rest } := by
  have hmark : ¬(s.cursor.index = 0 ∧ s.cursor.peek? = some '\uFEFF') :=
    fun h ↦ peek?_ne_mark hopens hrest h.2
  have hskip := Cursor.skipWhile_eq_after hrest
    (p := fun d ↦ d == ' ' || ((s.inFlow || !s.keyAllowed) && d == '\t'))
    (fun d hd ↦ by rw [List.eq_of_mem_replicate hd]; rfl) fun d hd ↦ by
      obtain ⟨hordinary, hspace, -⟩ := hopens d hd
      have hblank := isSpaceOrTab_of_isOrdinary hordinary
      rw [isSpaceOrTab, beq_false_of_ne hspace, Bool.false_or] at hblank
      rw [beq_false_of_ne hspace, hblank, Bool.and_false, Bool.or_false]
  have hhash : (s.cursor.after (List.replicate n ' ') rest).peek? ≠ some '#' :=
    fun heq ↦ (hopens _ heq).2.2 rfl
  have hbreak : ¬(s.cursor.after (List.replicate n ' ') rest).peek?.any isBreak = true := by
    rw [Cursor.peek?, Cursor.after_rest]
    cases hhead : rest.head? with
    | none => exact Bool.false_ne_true
    | some d => exact Bool.eq_false_iff.mp (isBreak_of_isOrdinary (hopens d hhead).1)
  rw [skipToToken]
  simp only [if_neg hmark, hskip, if_neg hhash, if_neg hbreak]

/-- The end of a line before a token is passed over; behind it a key may stand. -/
theorem skipToToken_lineEnd (fuel : Nat) (hflow : s.inFlow = false) (hopens : OpensToken rest)
    (hrest : s.cursor.rest = '\n' :: (List.replicate n ' ' ++ rest)) :
    ∃ c, skipToToken (fuel + 2) s = { s with cursor := c, keyAllowed := true } ∧ c.rest = rest ∧
      c.column = n := by
  have hskip := Cursor.skipWhile_eq_after
    (show s.cursor.rest = [] ++ '\n' :: (List.replicate n ' ' ++ rest) from hrest)
    (p := fun d ↦ d == ' ' || ((s.inFlow || !s.keyAllowed) && d == '\t')) (fun d hd ↦ nomatch hd)
    fun d hd ↦ by
      obtain rfl := Option.some.inj hd
      rw [show ('\n' == ' ') = false from rfl, show ('\n' == '\t') = false from rfl, Bool.and_false]
      rfl
  rw [Cursor.after_nil hrest] at hskip
  have hpeek := Cursor.peek?_cons hrest
  have hbreak : s.cursor.skipBreak =
      ⟨List.replicate n ' ' ++ rest, s.cursor.index + 1, s.cursor.line + 1, 0⟩ := by
    rw [Cursor.skipBreak, hrest]
    rfl
  have hstep : skipToToken (fuel + 2) s =
      skipToToken (fuel + 1) { s with cursor := s.cursor.skipBreak, keyAllowed := true } := by
    have hmark : ¬(s.cursor.index = 0 ∧ some '\n' = some '\uFEFF') := fun h ↦ absurd h.2 (by decide)
    rw [skipToToken]
    simp only [hpeek, if_neg hmark, hskip, show ¬some '\n' = some '#' by decide, if_false,
      show (some '\n').any isBreak = true from rfl, if_true]
    rw [hflow, Bool.not_false, Bool.or_true]
  refine ⟨_, hstep.trans (skipToToken_spaces hopens (by rw [hbreak])), rfl, ?_⟩
  simp [hbreak]

/-! ### The next token -/

/-- Whether a lexing comes to a text that begins with the next token, once some of the blocks that
stand further right than the token are closed. -/
def ComesTo (s : Lexing) (ts : List Token) (blocks : List Int) (cs : List Char) (column : Nat)
    (keyAllowed : Bool) : Prop :=
  cs.length ≤ s.cursor.rest.length ∧ ∃ inner ts', (∀ i ∈ inner, (column : Int) < i) ∧
    ts = List.replicate inner.length .blockEnd ++ ts' ∧
    (s.skipToToken (s.cursor.rest.length + 1)).Stands ts' (inner ++ blocks) cs column keyAllowed

theorem Stands.comesTo (h : s.Stands ts blocks (List.replicate n ' ' ++ rest) column allowed)
    (hopens : OpensToken rest) : s.ComesTo ts blocks rest (column + n) allowed := by
  refine ⟨by rw [h.rest, List.length_append]; omega, [], ts, nofun, rfl, ?_⟩
  rw [skipToToken_spaces hopens h.rest]
  exact ⟨h.tokens, h.blocks, rfl, by simp [h.column], h.keyAllowed, h.candidates⟩

theorem Stands.comesTo_lineEnd
    (h : s.Stands ts blocks ('\n' :: (List.replicate n ' ' ++ rest)) column allowed)
    (hopens : OpensToken rest) : s.ComesTo ts blocks rest n true := by
  have hlength : s.cursor.rest.length = n + rest.length + 1 := by rw [h.rest]; simp
  obtain ⟨c, hskip, hc, hcolumn⟩ := skipToToken_lineEnd (n + rest.length)
    (inFlow_of_candidates h.candidates) hopens h.rest
  refine ⟨by omega, [], ts, nofun, rfl, ?_⟩
  rw [hlength, hskip]
  exact ⟨h.tokens, h.blocks, hc, hcolumn, rfl, h.candidates⟩

/-- A block that stands further right than the next token is closed. -/
theorem ComesTo.close {i : Int} (h : s.ComesTo ts (i :: blocks) cs m allowed) (hi : (m : Int) < i) :
    s.ComesTo (.blockEnd :: ts) blocks cs m allowed := by
  obtain ⟨hlength, inner, ts', hinner, rfl, hstands⟩ := h
  refine ⟨hlength, inner ++ [i], ts', ?_, ?_, by simpa using hstands⟩
  · rw [List.forall_mem_append, List.forall_mem_singleton]
    exact ⟨hinner, hi⟩
  · rw [List.length_append, List.length_singleton, List.replicate_succ]
    rfl

/-- A candidate that can still be a key is kept. -/
theorem dropStale_of_candidates {k : Option KeyCandidate} (h : s.candidates = [k])
    (hk : ∀ a ∈ k, isStale s.cursor a = false) : s.dropStale = .ok s := by
  have hstale : k.any (isStale s.cursor) = false := by
    cases k with
    | none => rfl
    | some a => exact hk a rfl
  cases s
  subst h
  simp [dropStale, hstale]

theorem Stands.dropStale (h : s.Stands ts blocks cs m allowed) : s.dropStale = .ok s :=
  dropStale_of_candidates h.candidates nofun

/-- Blocks that stand further right than a column are closed. -/
theorem Stands.closeBlocks (inner : List Int) {i : Int} {is : List Int}
    (h : s.Stands ts (inner ++ i :: is) cs m allowed) {column : Int}
    (hinner : ∀ i ∈ inner, column < i) (hi : i ≤ column) :
    (s.closeBlocks column).Stands (List.replicate inner.length .blockEnd ++ ts) (i :: is) cs m
      allowed := by
  have hblocks : s.indent :: s.outerIndents = inner ++ i :: is := h.blocks
  have hstop : ¬decide (column < i) = true := by simpa using hi
  have htaken : (s.indent :: s.outerIndents).takeWhile (column < ·) = inner := by
    rw [hblocks, List.takeWhile_append_of_pos (by simpa using hinner),
      List.takeWhile_cons_of_neg (p := fun x ↦ decide (column < x)) hstop, List.append_nil]
  have hdropped : (s.indent :: s.outerIndents).dropWhile (column < ·) = i :: is := by
    rw [hblocks, List.dropWhile_append_of_pos (by simpa using hinner),
      List.dropWhile_cons_of_neg (p := fun x ↦ decide (column < x)) hstop]
  rw [Lexing.closeBlocks, inFlow_of_candidates h.candidates, if_neg Bool.false_ne_true]
  simp only [htaken, hdropped]
  refine ⟨?_, rfl, h.rest, h.column, h.keyAllowed, h.candidates⟩
  rw [List.map_append, List.map_replicate, h.tokens]

/-- The next token is read where a lexing comes to it, with the blocks further right closed. -/
theorem ComesTo.next {i : Int} {is : List Int} (h : s.ComesTo ts (i :: is) cs m allowed)
    (hi : i ≤ m) : ∃ s' : Lexing, s'.Stands ts (i :: is) cs m allowed ∧
      s.next = s'.token.bind Lexing.dropStale := by
  obtain ⟨-, inner, ts', hinner, rfl, hstands⟩ := h
  have hcolumn := hstands.column
  refine ⟨_, hstands.closeBlocks inner hinner hi, ?_⟩
  rw [Lexing.next, hstands.dropStale, ← hcolumn]
  rfl

/-! ### Runs -/

/-- Whether a run from one lexing goes on from another, within as many tokens as characters. -/
def Leads (s s' : Lexing) : Prop :=
  ∃ n, n + s'.cursor.rest.length ≤ s.cursor.rest.length ∧
    ∀ fuel, run (fuel + n) s = run fuel s'

theorem Leads.trans {s'' : Lexing} (h : s.Leads s') (h' : s'.Leads s'') : s.Leads s'' := by
  obtain ⟨n, hlength, hrun⟩ := h
  obtain ⟨n', hlength', hrun'⟩ := h'
  refine ⟨n + n', by omega, fun fuel ↦ ?_⟩
  rw [Nat.add_comm n n', ← Nat.add_assoc, hrun, hrun']

/-- A token other than the end of the text leads on. -/
theorem leads_of_next (h : s.next = .ok s') (htoken : s'.tokens.head?.any (·.1 == .textEnd) = false)
    (hrest : s'.cursor.rest.length < s.cursor.rest.length) : s.Leads s' := by
  refine ⟨1, by omega, fun fuel ↦ ?_⟩
  rw [run, h]
  simp [htoken]

/-! ### Kinds of tokens -/

private theorem atMarker_of_ne {c : Cursor} {d mark : Char} (hc : c.rest = d :: rest)
    (hd : d ≠ mark) : c.atMarker mark = false := by
  rw [Cursor.atMarker, hc]
  split
  · rename_i heq
    obtain ⟨rfl, -⟩ := List.cons.inj heq
    simp [hd]
  · exact Bool.and_false _

private theorem atPlain_cons {d : Char} {r : List Char} (hd : isOrdinary d = true)
    (hspace : d ≠ ' ') (hmark : d ∉ leadingMarks)
    (hblank : d = '?' ∨ d = ':' ∨ d = '-' → atBlankOrEnd r = false) :
    atPlain false (d :: r) = true := by
  rw [atPlain, Bool.or_eq_true, Bool.or_eq_true]
  by_cases hdash : d = '-'
  · refine Or.inl (Or.inr ?_)
    have hr := hblank (Or.inr (Or.inr hdash))
    cases r with
    | nil => exact Bool.noConfusion hr
    | cons e r =>
      rw [atBlankOrEnd, Bool.or_eq_false_iff] at hr
      simp [hdash, hr.2]
  by_cases hquestion : d = '?' ∨ d = ':'
  · refine Or.inr ?_
    rw [hblank (hquestion.elim Or.inl fun h ↦ Or.inr (Or.inl h))]
    simpa using hquestion
  · refine Or.inl (Or.inl ?_)
    have hfirst : atBlankOrEnd (d :: r) = false := by
      rw [atBlankOrEnd, isBreak_of_isOrdinary hd, isSpaceOrTab_of_isOrdinary hd,
        beq_false_of_ne hspace]
      rfl
    have hmarks : "-?:,[]\x7b\x7d#&*!|>'\"%@\x60".toList = ['-', '?', ':', ',', '[', ']', '\x7b',
        '\x7d', '#', '&', '*', '!', '|', '>', '\'', '"', '%', '@', '\x60'] := rfl
    rw [hfirst, hmarks]
    simp only [leadingMarks, List.mem_cons, List.not_mem_nil, or_false, not_or] at hmark hquestion
    simp [hdash, hquestion, hmark]

theorem token_plain (hflow : s.inFlow = false) (hcs : OpensPlain s.cursor.rest)
    (hmarker : s.cursor.atDocumentMarker = false) : s.token = s.plain := by
  obtain ⟨d, r, hc, hd, hspace, hmark, hblank⟩ := hcs
  rw [Cursor.atDocumentMarker, Bool.or_eq_false_iff] at hmarker
  have hafter : ∀ e, e = '?' ∨ e = ':' ∨ e = '-' →
      ¬(d = e ∧ atBlankOrEnd (s.cursor.rest.drop 1) = true) := by
    rintro e he ⟨rfl, htrue⟩
    rw [hc, List.drop_one, List.tail_cons, hblank he] at htrue
    exact Bool.noConfusion htrue
  have hplain : atPlain s.inFlow s.cursor.rest = true :=
    hflow ▸ hc ▸ atPlain_cons hd hspace hmark hblank
  simp only [leadingMarks, List.mem_cons, List.not_mem_nil, or_false, not_or] at hmark
  rw [token, Cursor.peek?_cons hc]
  simp only [hmarker, hflow, hmark, hafter '?' (by decide), hafter ':' (by decide),
    hafter '-' (by decide), Bool.false_eq_true, if_false, false_or, and_false, false_and]
  rw [← hflow, if_pos hplain]

theorem token_literal (hc : s.cursor.rest = '|' :: rest) (hflow : s.inFlow = false) :
    s.token = s.block true := by
  rw [token, Cursor.peek?_cons hc]
  simp [atMarker_of_ne hc, hflow]

theorem token_quoted {single : Bool} (hc : s.cursor.rest = quoteOf single :: rest) :
    s.token = s.quoted single := by
  rw [token, Cursor.peek?_cons hc]
  cases single <;> simp [atMarker_of_ne hc, quoteOf]

theorem token_value (hc : s.cursor.rest = ':' :: rest) (hrest : atBlankOrEnd rest = true) :
    s.token = s.value := by
  rw [token, Cursor.peek?_cons hc]
  simp [atMarker_of_ne hc, hc, hrest]

/-! ### Keys -/

/-- Whether a lexing has a scalar that may turn out to be a key of a block in the column `m`. -/
structure HoldsKey (s : Lexing) (w : List Char) (ts : List Token) (blocks : List Int)
    (cs : List Char) (m : Nat) : Prop where
  tokens : s.tokens.map (·.1) = .scalar (String.ofList w) true :: ts
  blocks : s.blocks = blocks
  rest : s.cursor.rest = cs
  column : s.cursor.column = m + w.length
  candidates : ∃ k, s.candidates = [some k] ∧ s.count = k.number + 1 ∧ k.place.column = m ∧
    isStale s.cursor k = false

theorem Stands.dropCandidate (h : s.Stands ts blocks cs m allowed) : s.dropCandidate = .ok s := by
  have hself : s.setCandidate none = s := by
    rw [setCandidate, h.candidates, List.tail_cons, ← h.candidates]
  rw [Lexing.dropCandidate, candidate, h.candidates, hself]
  rfl

theorem Stands.saveCandidate (h : s.Stands ts blocks cs m true) :
    ∃ required, s.saveCandidate =
      .ok { s with candidates := [some ⟨required, s.count, s.cursor.index, s.cursor.place⟩] } := by
  refine ⟨!s.inFlow && s.indent == (s.cursor.column : Int), ?_⟩
  rw [Lexing.saveCandidate, h.keyAllowed, if_pos rfl, h.dropCandidate]
  simp [bind, Except.bind, pure, Except.pure, setCandidate, h.candidates, h.keyAllowed]

/-- A lexing behind a scalar that begins where it stands. -/
def withScalar (text : String) (isPlain : Bool) (c : Cursor) (keyAllowed : Bool) (s : Lexing) :
    Lexing :=
  { s.emit (.scalar text isPlain) with cursor := c, keyAllowed := keyAllowed }

/-- A plain scalar is added as a token. -/
private theorem plain_eq {t : Lexing} {text : String} {c : Cursor} {broken : Bool}
    (hsave : s.saveCandidate = .ok t) (hflow : t.inFlow = false)
    (hread : readPlain false (t.indent + 1).toNat t.cursor = .ok (text, c, broken)) :
    s.plain = .ok (t.withScalar text true c broken) := by
  rw [Lexing.plain, hsave]
  simp only [bind, Except.bind]
  rw [hflow, hread]
  rfl

/-- A key is lexed as a candidate. -/
theorem ComesTo.holdsKey {i : Int} {is : List Int} {w : List Char}
    (h : s.ComesTo ts (i :: is) (w ++ ':' :: rest) m true) (hi : i ≤ m) (hw : IsKey w)
    (hrest : atBlankOrEnd rest = true) :
    ∃ s', s.Leads s' ∧ s'.HoldsKey w ts (i :: is) (':' :: rest) m := by
  obtain ⟨s₁, hstands, hnext⟩ := h.next hi
  have hflow := inFlow_of_candidates hstands.candidates
  obtain ⟨d, w', hdw⟩ := List.exists_cons_of_ne_nil hw.nonempty
  have hletter := hw.letters d (hdw ▸ List.mem_cons_self)
  have hcons : s₁.cursor.rest = d :: (w' ++ ':' :: rest) := by rw [hstands.rest, hdw]; rfl
  have hmarker : s₁.cursor.atDocumentMarker = false := by
    rw [Cursor.atDocumentMarker, atMarker_of_ne hcons (ne_of_test hletter rfl),
      atMarker_of_ne hcons (ne_of_test hletter rfl)]
    rfl
  have hhash : w.head? ≠ some '#' := by
    rw [hdw]
    exact fun heq ↦ ne_of_test hletter rfl (Option.some.inj heq)
  have hread : readPlain false (s₁.indent + 1).toNat s₁.cursor = _ := readPlain_word
    (fun d hd ↦ ⟨isOrdinary_of_isKeyChar (hw.letters d hd), ne_of_test (hw.letters d hd) rfl,
      ne_of_test (hw.letters d hd) rfl⟩) hw.nonempty hhash hmarker hrest hstands.rest
  obtain ⟨required, hsave⟩ := hstands.saveCandidate
  have htoken := (token_plain hflow (hstands.rest ▸ hw.opensPlain _) hmarker).trans
    (plain_eq hsave rfl hread)
  have hfresh : isStale (s₁.cursor.after w (':' :: rest))
      ⟨required, s₁.count, s₁.cursor.index, s₁.cursor.place⟩ = false := by
    have := hw.short
    simp [isStale, Cursor.place]
    omega
  rw [htoken, Except.bind,
    dropStale_of_candidates rfl fun a ha ↦ Option.some.inj ha ▸ hfresh] at hnext
  refine ⟨_, leads_of_next hnext rfl ?_, ?_⟩
  · have hlength := h.1
    have hpos := List.length_pos_of_ne_nil hw.nonempty
    rw [List.length_append] at hlength
    show (':' :: rest).length < _
    omega
  · exact ⟨congrArg _ hstands.tokens, hstands.blocks, rfl, congrArg (· + w.length) hstands.column,
      _, rfl, rfl, hstands.column, hfresh⟩

/-! ### Values of keys -/

/-- The token that opens a block in a column, unless the innermost block is there already. -/
def opening (i : Int) (m : Nat) : List Token := if i = m then [] else [.blockMappingStart]

/-- The blocks with one in a column. -/
def opened (i : Int) (is : List Int) (m : Nat) : List Int := if i = m then i :: is else m :: i :: is

/-- A block is opened before the key that is its first. -/
private theorem exists_openBlock {k : KeyCandidate} {first second : Token × Place}
    {old : List (Token × Place)} (hk : s.candidates = [some k])
    (htokens : s.tokens = first :: second :: old) (hcount : s.count = k.number + 2)
    (hi : s.indent ≤ k.place.column) :
    ∃ s', s.openBlock (some k) .blockMappingStart = s' ∧ s'.tokens.map (·.1) =
        first.1 :: second.1 :: (opening s.indent k.place.column ++ old.map (·.1)) ∧
      s'.blocks = opened s.indent s.outerIndents k.place.column ∧ s'.cursor = s.cursor ∧
      s'.candidates = [some k] := by
  have hflow := inFlow_of_candidates hk
  by_cases heq : s.indent = k.place.column
  · refine ⟨s, if_pos (Or.inr (Int.le_of_eq heq.symm)), ?_, ?_, rfl, hk⟩
    · rw [opening, if_pos heq, htokens]
      rfl
    · rw [opened, if_pos heq]
      rfl
  · have hopens : ¬(s.inFlow = true ∨ (k.place.column : Int) ≤ s.indent) := by
      rw [hflow]
      simp only [Bool.false_eq_true, false_or, Int.not_le]
      omega
    refine ⟨_, if_neg hopens, ?_, ?_, rfl, hk⟩
    · rw [opening, if_neg heq]
      simp [emitBefore, htokens, hcount]
    · rw [opened, if_neg heq]
      rfl

private theorem closeBlocks_eq_self {column : Int} (h : s.indent ≤ column) :
    s.closeBlocks column = s := by
  rw [closeBlocks]
  split
  · rfl
  · have hstop : ¬decide (column < s.indent) = true := by simpa using h
    simp only [List.takeWhile_cons_of_neg (p := fun i ↦ decide (column < i)) hstop,
      List.dropWhile_cons_of_neg (p := fun i ↦ decide (column < i)) hstop]
    rfl

/-- The token behind a candidate is a colon. -/
private theorem HoldsKey.next {i : Int} {is : List Int} {w : List Char}
    (h : s.HoldsKey w ts (i :: is) (':' :: rest) m) (hi : i ≤ m)
    (hrest : atBlankOrEnd rest = true) : s.next = s.value.bind Lexing.dropStale := by
  obtain ⟨k, hk, -, -, hfresh⟩ := h.candidates
  have hopens : OpensToken (':' :: rest) := by
    rintro e he
    obtain rfl := Option.some.inj he
    decide
  have hskip : s.skipToToken (s.cursor.rest.length + 1) = s := by
    rw [skipToToken_spaces (n := 0) hopens h.rest, List.replicate_zero, Cursor.after_nil h.rest]
  have hclosed : s.closeBlocks s.cursor.column = s :=
    closeBlocks_eq_self (by rw [(List.cons.inj h.blocks).1, h.column]; omega)
  rw [Lexing.next, hskip, dropStale_of_candidates hk fun a ha ↦ Option.some.inj ha ▸ hfresh,
    ← token_value h.rest hrest]
  show ((s.closeBlocks s.cursor.column).token).bind Lexing.dropStale = _
  rw [hclosed]

/-- The colon behind a candidate makes it a key, and opens a block further right. -/
theorem HoldsKey.value {i : Int} {is : List Int} {w : List Char}
    (h : s.HoldsKey w ts (i :: is) (':' :: rest) m) (hi : i ≤ m)
    (hrest : atBlankOrEnd rest = true) :
    ∃ s', s.Leads s' ∧ s'.Stands
      (.value :: .scalar (String.ofList w) true :: .key :: (opening i m ++ ts)) (opened i is m) rest
      (m + w.length + 1) false := by
  obtain ⟨k, hk, hcount, hcolumn, -⟩ := h.candidates
  obtain ⟨hindent, houter⟩ := List.cons.inj h.blocks
  obtain ⟨first, old, htokens, hfirst, hold⟩ := List.map_eq_cons_iff.mp h.tokens
  obtain ⟨s₁, hopen, htokens₁, hblocks₁, hcursor₁, hk₁⟩ := exists_openBlock
    (s := s.emitBefore k .key) hk
    (show _ = first :: (Token.key, k.place) :: old by simp [emitBefore, htokens, hcount])
    (show s.count + 1 = _ by rw [hcount]) (show s.indent ≤ _ by rw [hindent, hcolumn]; exact hi)
  have hvalue : s.value = .ok ((s₁.setCandidate none).indicator 1 .value false) := by
    rw [Lexing.value, candidate, hk]
    exact congrArg (fun t : Lexing ↦ Except.ok ((t.setCandidate none).indicator 1 .value false))
      hopen
  have hnext := h.next hi hrest
  have hnone : ((s₁.setCandidate none).indicator 1 .value false).candidates = [none] := by
    show none :: s₁.candidates.tail = _
    rw [hk₁]
    rfl
  have hskips : s₁.cursor.skips 1 = s.cursor.after [':'] rest := by
    rw [hcursor₁]
    exact Cursor.skips_eq_after (show s.cursor.rest = [':'] ++ rest from h.rest)
  rw [hvalue, Except.bind, dropStale_of_candidates hnone nofun] at hnext
  have htokens' := htokens₁
  rw [hfirst, hold, show (s.emitBefore k .key).indent = i from hindent, hcolumn] at htokens'
  rw [show (s.emitBefore k .key).indent = i from hindent,
    show (s.emitBefore k .key).outerIndents = is from houter, hcolumn] at hblocks₁
  refine ⟨_, leads_of_next hnext rfl ?_, congrArg _ htokens', hblocks₁, ?_, ?_, rfl, hnone⟩
  · show (s₁.cursor.skips 1).rest.length < _
    rw [hskips, h.rest]
    exact Nat.lt_succ_self _
  · show (s₁.cursor.skips 1).rest = rest
    rw [hskips]
    rfl
  · show (s₁.cursor.skips 1).column = _
    rw [hskips, Cursor.after_column, h.column]
    rfl

/-- A key and the colon behind it are lexed, and open a block further right. -/
theorem ComesTo.key {i : Int} {is : List Int} {w : List Char}
    (h : s.ComesTo ts (i :: is) (w ++ ':' :: rest) m true) (hi : i ≤ m) (hw : IsKey w)
    (hrest : atBlankOrEnd rest = true) :
    ∃ s', s.Leads s' ∧ s'.Stands
      (.value :: .scalar (String.ofList w) true :: .key :: (opening i m ++ ts)) (opened i is m) rest
      (m + w.length + 1) false := by
  obtain ⟨s₁, hleads₁, hholds⟩ := h.holdsKey hi hw hrest
  obtain ⟨s₂, hleads₂, hstands⟩ := hholds.value hi hrest
  exact ⟨s₂, hleads₁.trans hleads₂, hstands⟩

/-! ### Scalars -/

section Scalar

variable {b : Nat} {is : List Int} {p : Place} {c : Cursor}

/-- A scalar behind the colon of a key leads on. -/
private theorem ComesTo.leads_scalar {s₁ : Lexing} {text : String} {isPlain : Bool}
    (h : s.ComesTo ts (b :: is) cs m false) (hstands : s₁.Stands ts (b :: is) cs m false)
    (hnext : s.next = s₁.token.bind Lexing.dropStale)
    (htoken : s₁.token = .ok (s₁.withScalar text isPlain c allowed))
    (hlength : c.rest.length < cs.length) :
    ∃ s', s.Leads s' ∧
      s'.Stands (.scalar text isPlain :: ts) (b :: is) c.rest c.column allowed := by
  have hstands' : (s₁.withScalar text isPlain c allowed).Stands (.scalar text isPlain :: ts)
      (b :: is) c.rest c.column allowed :=
    ⟨congrArg _ hstands.tokens, hstands.blocks, rfl, rfl, rfl, hstands.candidates⟩
  rw [htoken, Except.bind, hstands'.dropStale] at hnext
  exact ⟨_, leads_of_next hnext rfl (hlength.trans_le h.1), hstands'⟩

theorem Stands.saveCandidate_of_not_allowed (h : s.Stands ts blocks cs m false) :
    s.saveCandidate = .ok s := by
  rw [Lexing.saveCandidate, h.keyAllowed, if_neg Bool.false_ne_true]

/-- A text without quotes is lexed up to the next line, which is not indented more than the
block. -/
theorem ComesTo.plain {cs : List Char} (hcs : IsPlain cs) (hne : cs ≠ [])
    (hopens : ∀ rest, OpensPlain (cs ++ '\n' :: rest))
    (h : s.ComesTo ts (b :: is) (cs ++ '\n' :: (List.replicate m ' ' ++ rest)) column false)
    (hb : b < column) (hm : m ≤ b) (hrest : OpensToken rest) :
    ∃ s', s.Leads s' ∧
      s'.ComesTo (.scalar (String.ofList cs) true :: ts) (b :: is) rest m true := by
  obtain ⟨s₁, hstands, hnext⟩ := h.next (by omega)
  have hindent : (s₁.indent + 1).toNat = b + 1 := by
    rw [(List.cons.inj hstands.blocks).1]
    omega
  obtain ⟨c, hread, rfl, rfl⟩ := readPlain_text hcs hne
    (show b + 1 ≤ s₁.cursor.column by rw [hstands.column]; exact hb) (Nat.lt_succ_of_le hm)
    hrest.opensWord hstands.rest
  have htoken := (token_plain (inFlow_of_candidates hstands.candidates) (hstands.rest ▸ hopens _)
    (Cursor.atDocumentMarker_eq_false (by rw [hstands.column]; omega))).trans
    (plain_eq hstands.saveCandidate_of_not_allowed (inFlow_of_candidates hstands.candidates)
      (hindent ▸ hread))
  obtain ⟨s₂, hleads, hstands₂⟩ := h.leads_scalar hstands hnext htoken (by simp; omega)
  exact ⟨s₂, hleads, Stands.comesTo (n := 0) hstands₂ hrest⟩

private theorem quoted_eq {single : Bool} {text : String} (hsave : s.saveCandidate = .ok s)
    (hread : readQuoted single s.cursor = .ok (text, c)) :
    s.quoted single = .ok (s.withScalar text false c false) := by
  rw [Lexing.quoted, keyToken, hsave, hread]
  rfl

/-- A text between quotes is lexed up to the closing quote. -/
theorem ComesTo.quoted {single : Bool} {cs : List Char} (hcs : ∀ d ∈ cs, FitsQuotes single d)
    (h : s.ComesTo ts (b :: is) (quoteOf single :: (cs.flatMap (quotedChar single) ++
      quoteOf single :: '\n' :: (List.replicate m ' ' ++ rest))) column false)
    (hb : b < column) (hrest : OpensToken rest) :
    ∃ s', s.Leads s' ∧
      s'.ComesTo (.scalar (String.ofList cs) false :: ts) (b :: is) rest m true := by
  obtain ⟨s₁, hstands, hnext⟩ := h.next (by omega)
  have hread := readQuoted_text hcs
    (show ('\n' :: (List.replicate m ' ' ++ rest)).head? ≠ some '\'' from
      fun heq ↦ absurd (Option.some.inj heq) (by decide)) hstands.rest
  have htoken := (token_quoted hstands.rest).trans
    (quoted_eq hstands.saveCandidate_of_not_allowed hread)
  obtain ⟨s₂, hleads, hstands₂⟩ := h.leads_scalar hstands hnext htoken (by simp; omega)
  exact ⟨s₂, hleads, hstands₂.comesTo_lineEnd hrest⟩

private theorem block_eq {text : String} (h : s.Stands ts blocks cs m allowed)
    (hread : readBlock true s.indent s.cursor = .ok (text, c)) :
    s.block true = .ok (s.withScalar text false c true) := by
  rw [block, h.dropCandidate]
  simp only [bind, Except.bind]
  rw [hread]
  rfl

/-- A literal is lexed up to the next line, which is not indented more than the block. -/
theorem ComesTo.literal {l : List Char} {ls : List (List Char)} {k : Nat} (hk : b < k)
    (hl : l ≠ []) (hhead : l.head? ≠ some ' ')
    (hline : ∀ l' ∈ l :: ls, ∀ d ∈ l', isOrdinary d = true)
    (hlast : (l :: ls).getLast? ≠ some [])
    (h : s.ComesTo ts (b :: is)
      ('|' :: '-' :: '\n' :: (linesIn k (l :: ls) ++ (List.replicate m ' ' ++ rest))) column false)
    (hb : b < column) (hm : m ≤ b) (hrest : OpensToken rest) :
    ∃ s', s.Leads s' ∧ s'.ComesTo
      (.scalar (String.ofList (['\n'].intercalate (l :: ls))) false :: ts) (b :: is) rest m
      true := by
  obtain ⟨s₁, hstands, hnext⟩ := h.next (by omega)
  have hindent : s₁.indent = b := (List.cons.inj hstands.blocks).1
  obtain ⟨c, hread, rfl, rfl⟩ := readBlock_text (show s₁.indent < k by rw [hindent]; omega)
    (hm.trans_lt hk) hrest.opensWord hl hhead hline hlast hstands.rest
  have htoken := (token_literal hstands.rest (inFlow_of_candidates hstands.candidates)).trans
    (block_eq hstands hread)
  obtain ⟨s₂, hleads, hstands₂⟩ := h.leads_scalar hstands hnext htoken (by simp; omega)
  exact ⟨s₂, hleads, Stands.comesTo (n := 0) hstands₂ hrest⟩

end Scalar

end Lexing

end Lexing

end PipingAssembly.Yaml
