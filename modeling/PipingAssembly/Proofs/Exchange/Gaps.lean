import PipingAssembly.Proofs.Exchange.Lexing
import PipingAssembly.Exchange.Entity

/-!
# What may stand between tokens

A text falls into stretches: the characters of a token, a blank, a comment. A token ends before the
first character that does not go on it, and neither a blank nor a slash goes on any token but a text
in quotes. So blanks and comments may be put in front of any stretch without a change of the tokens.
-/

namespace PipingAssembly.Exchange

/-! ### Where a token ends -/

namespace LexState

/-- Whether a character goes on what has been begun. -/
def takes : LexState → Char → Bool
  | between, _ => false
  | slash, c => c == '*'
  | comment _, _ => true
  | reference _, c => c.isDigit
  | text _, _ => true
  | textQuote _, c => c == '\''
  | dot, c => c.isAlpha || continuesNumber ['.'] c
  | enumeration _, c => isNameChar c || c == '.'
  | number read, c => continuesNumber read c
  | word _, c => isNameChar c

/-- The state after some characters. -/
def after (s : LexState) (cs : List Char) : LexState := cs.foldl (fun s c ↦ (s.step c).2) s

/-- The tokens that some characters end. -/
def ended : LexState → List Char → List Token
  | _, [] => []
  | s, c :: cs => (s.step c).1 ++ ended (s.step c).2 cs

variable {s : LexState} {c d : Char} {cs xs ys : List Char}

/-- What a character does not go on ends before it. -/
theorem step_of_takes_eq_false (h : s.takes c = false) : s.step c = s.endBefore c := by
  cases s with
  | between => rfl
  | comment | text => cases h
  | slash => exact if_neg (by simpa [takes] using h)
  | reference digits => exact if_neg (Bool.eq_false_iff.mp h)
  | textQuote read => exact if_neg (by simpa [takes] using h)
  | number read => exact if_neg (Bool.eq_false_iff.mp h)
  | word read => exact if_neg (Bool.eq_false_iff.mp h)
  | dot =>
    obtain ⟨hname, hnumber⟩ := Bool.or_eq_false_iff.mp h
    exact (if_neg (Bool.eq_false_iff.mp hname)).trans (if_neg (Bool.eq_false_iff.mp hnumber))
  | enumeration read =>
    obtain ⟨hname, hdot⟩ := Bool.or_eq_false_iff.mp h
    exact (if_neg (Bool.eq_false_iff.mp hname)).trans (if_neg (beq_eq_false_iff_ne.mp hdot))

theorem run_append_eq (s : LexState) (xs ys : List Char) :
    s.run (xs ++ ys) = s.ended xs ++ (s.after xs).run ys := by
  induction xs generalizing s with
  | nil => rfl
  | cons x xs ih =>
    rw [List.cons_append, run, ih, ended, List.append_assoc]
    rfl

theorem run_eq_ended_append (s : LexState) (xs : List Char) :
    s.run xs = s.ended xs ++ (s.after xs).finish := by
  have h := run_append_eq s xs []
  rwa [List.append_nil] at h

theorem after_append (s : LexState) (xs ys : List Char) :
    s.after (xs ++ ys) = (s.after xs).after ys :=
  List.foldl_append

/-- Before a character that does not go on what has been begun a text can be cut. -/
theorem run_append_of_takes_eq_false (h : (s.after xs).takes c = false) (ys : List Char) :
    s.run (xs ++ c :: ys) = s.run xs ++ between.run (c :: ys) := by
  rw [run_append_eq, run_of_step_eq (step_of_takes_eq_false h), run_eq_ended_append s xs,
    List.append_assoc]

theorem after_append_of_takes_eq_false (h : (s.after xs).takes c = false) (ys : List Char) :
    s.after (xs ++ c :: ys) = between.after (c :: ys) := by
  have hstep : ((s.after xs).step c).2 = (between.step c).2 := by
    rw [step_of_takes_eq_false h]
    rfl
  rw [after_append]
  exact congrArg (·.after ys) hstep

end LexState

/-! ### Blanks and comments -/

/-- Some blanks, or one comment, in which no asterisk and slash that end it come before its end. -/
def IsFiller (w : List Char) : Prop :=
  (∀ c ∈ w, Text.isBlank c = true) ∨
    ∃ body, ¬['*', '/'] <:+: body ∧ w = ['/', '*'] ++ body ++ ['*', '/']

/-- A character that blanks and comments begin with. -/
def OpensFiller (c : Char) : Prop := Text.isBlank c = true ∨ c = '/'

/-- A blank is below all other characters of ASCII, or outside of it. -/
theorem toNat_of_isBlank {c : Char} (h : Text.isBlank c = true) :
    c.toNat ≤ 32 ∨ 128 ≤ c.toNat := by
  rw [Text.isBlank] at h
  split at h
  · left
    simp only [Bool.or_eq_true, beq_iff_eq, Bool.and_eq_true, decide_eq_true_eq] at h
    obtain rfl | h := h
    · decide
    · omega
  · omega

theorem LexState.begin_of_isBlank {c : Char} (h : Text.isBlank c = true) :
    begin c = ([], between) :=
  if_pos h

/-- Such a character is no letter, no digit and none of the signs that go on tokens. -/
theorem OpensFiller.ends {c : Char} (h : OpensFiller c) :
    c.isAlpha = false ∧ c.isDigit = false ∧
      ∀ d ∈ ['_', '.', 'E', 'e', '-', '+', '*', '\''], (c == d) = false := by
  obtain hblank | rfl := h
  · have hrange := toNat_of_isBlank hblank
    refine ⟨?_, ?_, fun d hd ↦ ?_⟩
    · rw [Bool.eq_false_iff]
      intro halpha
      have hbegin :=
        (LexState.begin_of_isBlank hblank).symm.trans (LexState.begin_of_isAlpha halpha)
      cases hbegin
    · have hiff : c.isDigit = true ↔ 48 ≤ c.toNat ∧ c.toNat ≤ 57 := by
        simp only [Char.isDigit, Bool.and_eq_true, decide_eq_true_eq, UInt32.le_iff_toNat_le,
          ge_iff_le]
        rfl
      rw [Bool.eq_false_iff, ne_eq, hiff]
      omega
    · have hsigns : ∀ d ∈ ['_', '.', 'E', 'e', '-', '+', '*', '\''],
          32 < d.toNat ∧ d.toNat < 128 := by simp
      obtain ⟨hlow, hhigh⟩ := hsigns d hd
      rw [beq_eq_false_iff_ne]
      rintro rfl
      omega
  · exact ⟨rfl, rfl, by simp⟩

namespace LexState

variable {s : LexState} {c d : Char} {cs xs ys : List Char}

/-- It goes on nothing but texts and comments, which take every character. -/
theorem takes_eq_false_of_opensFiller (h : s.takes c = false) (hd : OpensFiller d) :
    s.takes d = false := by
  obtain ⟨halpha, hdigit, hsigns⟩ := hd.ends
  simp only [List.mem_cons, forall_eq_or_imp, List.not_mem_nil, false_implies, implies_true,
    and_true] at hsigns
  obtain ⟨hunderscore, hdot, hE, he, hminus, hplus, hstar, hquote⟩ := hsigns
  have hname : isNameChar d = false := by
    rw [isNameChar, Char.isAlphanum, halpha, hdigit, hunderscore]
    rfl
  have hnumber : ∀ read, continuesNumber read d = false := by
    intro read
    rw [continuesNumber, hdigit, hdot, hE, he, hminus, hplus]
    rfl
  cases s with
  | between => rfl
  | comment | text => cases h
  | slash => exact hstar
  | reference => exact hdigit
  | textQuote => exact hquote
  | dot => rw [takes, halpha, hnumber]; rfl
  | enumeration => rw [takes, hname, hdot]; rfl
  | number read => exact hnumber read
  | word => exact hname

/-- A comment ends with the first asterisk that a slash follows. -/
theorem run_comment (star : Bool) {body : List Char} (h : ¬['*', '/'] <:+: body)
    (hstar : star = true → body.head? ≠ some '/') (rest : List Char) :
    (comment star).run (body ++ '*' :: '/' :: rest) = between.run rest := by
  induction body generalizing star with
  | nil => cases star <;> rfl
  | cons c body ih =>
    have hbody : ¬['*', '/'] <:+: body := fun hoccurs ↦
      h (hoccurs.trans (List.suffix_cons c body).isInfix)
    have hnext : (c == '*') = true → body.head? ≠ some '/' := by
      intro hc hhead
      obtain ⟨more, rfl⟩ : ∃ more, body = '/' :: more := by
        cases body with
        | nil => cases hhead
        | cons d more => exact ⟨more, by rw [Option.some.inj hhead]⟩
      rw [beq_iff_eq.mp hc] at h
      exact h ⟨[], more, rfl⟩
    have hstep : (comment star).step c = ([], comment (c == '*')) :=
      if_neg fun hends ↦ hstar hends.1 (by rw [hends.2]; rfl)
    rw [List.cons_append, run, hstep, List.nil_append, ih _ hbody hnext]

end LexState

/-- Blanks and comments in front of a text give no tokens. -/
theorem IsFiller.run_append {w : List Char} (h : IsFiller w) (rest : List Char) :
    LexState.between.run (w ++ rest) = LexState.between.run rest := by
  obtain hblanks | ⟨body, hbody, rfl⟩ := h
  · induction w with
    | nil => rfl
    | cons c w ih =>
      obtain ⟨hc, hw⟩ := List.forall_mem_cons.mp hblanks
      have hstep : LexState.between.step c = ([], .between) := LexState.begin_of_isBlank hc
      rw [List.cons_append, LexState.run, hstep, List.nil_append, ih hw]
  · have hcomment : (LexState.comment false).run (body ++ '*' :: '/' :: rest) =
        LexState.between.run rest :=
      LexState.run_comment false hbody (absurd · Bool.false_ne_true) rest
    rw [List.append_assoc, List.append_assoc]
    exact hcomment

theorem IsFiller.opensFiller {c : Char} {w : List Char} (h : IsFiller (c :: w)) :
    OpensFiller c := by
  obtain hblanks | ⟨body, -, heq⟩ := h
  · exact Or.inl (hblanks c List.mem_cons_self)
  · exact Or.inr (List.cons.inj heq).1

/-! ### Stretches -/

namespace LexState

/-- The characters that go on what has been begun, and what is left. -/
def split : LexState → List Char → List Char × List Char
  | _, [] => ([], [])
  | s, c :: cs =>
    if s.takes c then (c :: ((s.step c).2.split cs).1, ((s.step c).2.split cs).2) else ([], c :: cs)

variable {s : LexState} {c : Char} {cs : List Char}

theorem split_append (s : LexState) (cs : List Char) : (s.split cs).1 ++ (s.split cs).2 = cs := by
  induction cs generalizing s with
  | nil => rfl
  | cons c cs ih =>
    rw [split]
    split
    · exact congrArg (c :: ·) (ih _)
    · rfl

theorem length_split_le (s : LexState) (cs : List Char) : (s.split cs).2.length ≤ cs.length := by
  have h := congrArg List.length (s.split_append cs)
  rw [List.length_append] at h
  omega

/-- What is left does not go on what the characters in front of it have begun. -/
theorem takes_of_split (h : (s.split cs).2 = c :: xs) :
    (s.after (s.split cs).1).takes c = false := by
  induction cs generalizing s with
  | nil => cases h
  | cons d cs ih =>
    rw [split] at h ⊢
    by_cases hd : s.takes d = true
    · rw [if_pos hd] at h ⊢
      exact ih h
    · rw [if_neg hd] at h ⊢
      obtain ⟨rfl, -⟩ := List.cons.inj h
      exact Bool.eq_false_iff.mpr hd

end LexState

/-- The stretches of a text: the characters of each token, each blank and each comment. -/
def stretches : List Char → List (List Char)
  | [] => []
  | c :: cs =>
    (c :: ((LexState.begin c).2.split cs).1) :: stretches ((LexState.begin c).2.split cs).2
termination_by cs => cs.length
decreasing_by exact Nat.lt_succ_of_le (LexState.length_split_le _ _)

theorem stretches_cons (c : Char) (cs : List Char) :
    stretches (c :: cs) =
      [c :: ((LexState.begin c).2.split cs).1] ++ stretches ((LexState.begin c).2.split cs).2 := by
  rw [stretches, List.singleton_append]

theorem flatten_stretches (cs : List Char) : (stretches cs).flatten = cs := by
  fun_induction stretches cs with
  | case1 => rfl
  | case2 c cs ih => rw [List.flatten_cons, ih, List.cons_append, LexState.split_append]

/-- Behind some stretches a new one begins: its first character goes on nothing. -/
theorem takes_of_stretches {cs : List Char} {ps qs : List (List Char)}
    (h : stretches cs = ps ++ qs) {c : Char} {rest : List Char} (hqs : qs.flatten = c :: rest) :
    (LexState.between.after ps.flatten).takes c = false := by
  induction ps generalizing cs with
  | nil => rfl
  | cons p ps ih =>
    cases cs with
    | nil =>
      rw [stretches] at h
      cases h
    | cons d cs =>
      rw [stretches, List.cons_append, List.cons.injEq] at h
      obtain ⟨rfl, hrest⟩ := h
      let taken := ((LexState.begin d).2.split cs).1
      have hleft : ((LexState.begin d).2.split cs).2 = ps.flatten ++ c :: rest := by
        rw [← flatten_stretches ((LexState.begin d).2.split cs).2, hrest, List.flatten_append, hqs]
      change (LexState.between.after (d :: taken ++ ps.flatten)).takes c = false
      cases hflatten : ps.flatten with
      | nil =>
        rw [hflatten, List.nil_append] at hleft
        rw [List.append_nil]
        exact LexState.takes_of_split hleft
      | cons e more =>
        rw [hflatten, List.cons_append] at hleft
        have hfresh : (LexState.between.after (d :: taken)).takes e = false :=
          LexState.takes_of_split hleft
        rw [LexState.after_append_of_takes_eq_false hfresh, ← hflatten]
        exact ih hrest

theorem tokens_append_of_stretches {cs : List Char} {ps qs : List (List Char)}
    (h : stretches cs = ps ++ qs) :
    tokens (ps.flatten ++ qs.flatten) = tokens ps.flatten ++ tokens qs.flatten := by
  cases hqs : qs.flatten with
  | nil => rw [List.append_nil, show tokens [] = [] from rfl, List.append_nil]
  | cons c rest =>
    exact LexState.run_append_of_takes_eq_false (takes_of_stretches h hqs) rest

/-- A text has the tokens of its stretches. -/
theorem tokens_eq_flatMap_stretches (cs : List Char) :
    tokens cs = (stretches cs).flatMap tokens := by
  fun_induction stretches cs with
  | case1 => rfl
  | case2 c cs ih =>
    have hcut := tokens_append_of_stretches (stretches_cons c cs)
    rw [flatten_stretches, List.flatten_singleton, List.cons_append, LexState.split_append] at hcut
    rw [hcut, ih, List.flatMap_cons]

/-! ### What a stretch holds -/

namespace LexState

/-- Whether what has been begun is a token, whatever follows. -/
def holdsToken : LexState → Bool
  | between | slash | comment _ => false
  | _ => true

variable {s : LexState} {c : Char}

theorem exists_finish (h : s.holdsToken = true) : ∃ t, s.finish = [t] := by
  cases s with
  | between | slash | comment => cases h
  | _ => exact ⟨_, rfl⟩

/-- A character that goes on a token leaves it open, or is its last one. -/
theorem step_of_takes (hs : s.holdsToken = true) (h : s.takes c = true) :
    (∃ s' : LexState, s.step c = ([], s') ∧ s'.holdsToken = true) ∨
      ∃ t, s.step c = ([t], between) := by
  cases s with
  | between | slash | comment => cases hs
  | reference | number | word => exact Or.inl ⟨_, if_pos h, rfl⟩
  | textQuote => exact Or.inl ⟨_, if_pos (beq_iff_eq.mp h), rfl⟩
  | text =>
    by_cases hc : c = '\''
    · exact Or.inl ⟨_, if_pos hc, rfl⟩
    · exact Or.inl ⟨_, if_neg hc, rfl⟩
  | dot =>
    by_cases hc : c.isAlpha = true
    · exact Or.inl ⟨_, if_pos hc, rfl⟩
    · have hnumber : continuesNumber ['.'] c = true := (Bool.or_eq_true_iff.mp h).resolve_left hc
      exact Or.inl ⟨_, (if_neg hc).trans (if_pos hnumber), rfl⟩
  | enumeration =>
    by_cases hc : isNameChar c = true
    · exact Or.inl ⟨_, if_pos hc, rfl⟩
    · have hdot : c = '.' := beq_iff_eq.mp ((Bool.or_eq_true_iff.mp h).resolve_left hc)
      exact Or.inr ⟨_, (if_neg hc).trans (if_pos hdot)⟩

/-- The characters that go on a token give this token. -/
theorem exists_run_split (hs : s.holdsToken = true) (cs : List Char) :
    ∃ t, s.run (s.split cs).1 = [t] := by
  induction cs generalizing s with
  | nil => exact exists_finish hs
  | cons c cs ih =>
    rw [split]
    by_cases hc : s.takes c = true
    · rw [if_pos hc, run]
      obtain ⟨s', hstep, hs'⟩ | ⟨t, hstep⟩ := step_of_takes hs hc
      · rw [hstep]
        exact ih hs'
      · rw [hstep]
        cases cs <;> exact ⟨t, rfl⟩
    · rw [if_neg hc]
      exact exists_finish hs

/-- The characters that go on a comment give no token. -/
theorem run_split_comment (star : Bool) (cs : List Char) :
    (comment star).run ((comment star).split cs).1 = [] := by
  induction cs generalizing star with
  | nil => rfl
  | cons c cs ih =>
    have htakes : (comment star).takes c = true := rfl
    rw [split, if_pos htakes, run]
    by_cases hends : star = true ∧ c = '/'
    · rw [show (comment star).step c = ([], between) from if_pos hends]
      cases cs <;> rfl
    · rw [show (comment star).step c = ([], comment (c == '*')) from if_neg hends]
      exact ih _

/-- A character has given a token, or has begun one. -/
def BeginsToken (r : List Token × LexState) : Prop :=
  (∃ t, r = ([t], between)) ∨ ∃ s : LexState, r = ([], s) ∧ s.holdsToken = true

theorem BeginsToken.ite {p : Prop} [Decidable p] {r r' : List Token × LexState}
    (h : BeginsToken r) (h' : BeginsToken r') : BeginsToken (if p then r else r') := by
  by_cases hp : p
  · rwa [if_pos hp]
  · rwa [if_neg hp]

/-- Between tokens every character but a blank and a slash gives a token or begins one. -/
theorem beginsToken_begin (hblank : ¬Text.isBlank c = true) (hslash : c ≠ '/') :
    BeginsToken (begin c) := by
  have hbegun : ∀ s : LexState, s.holdsToken = true → BeginsToken ([], s) :=
    fun s hs ↦ Or.inr ⟨s, rfl, hs⟩
  have hwhole : ∀ t, BeginsToken ([t], between) := fun t ↦ Or.inl ⟨t, rfl⟩
  rw [begin, if_neg hblank, if_neg hslash]
  refine (hbegun _ rfl).ite <| (hbegun _ rfl).ite <| (hbegun _ rfl).ite <| (hbegun _ rfl).ite <|
    (hbegun _ rfl).ite <| (hwhole _).ite <| (hwhole _).ite <| (hwhole _).ite <| (hwhole _).ite <|
    (hwhole _).ite <| (hwhole _).ite (hwhole _)

end LexState

/-- A slash is a token by itself, or the beginning of a comment. -/
theorem slash_cases (cs : List Char) :
    (∃ t, LexState.slash.run (LexState.slash.split cs).1 = [t]) ∨
      (LexState.slash.run (LexState.slash.split cs).1 = [] ∧
        ((∃ c, '/' :: (LexState.slash.split cs).1 = [c] ∧ Text.isBlank c = true) ∨
          ['/', '*'] <+: '/' :: (LexState.slash.split cs).1)) := by
  cases cs with
  | nil => exact Or.inl ⟨.other, rfl⟩
  | cons d cs =>
    rw [LexState.split]
    by_cases hstar : LexState.slash.takes d = true
    · obtain rfl := beq_iff_eq.mp hstar
      refine Or.inr ⟨?_, Or.inr ⟨_, rfl⟩⟩
      exact LexState.run_split_comment false cs
    · rw [if_neg hstar]
      exact Or.inl ⟨.other, rfl⟩

/-- A stretch is the characters of one token, or a blank, or a comment. -/
theorem stretch_cases {cs p : List Char} (hp : p ∈ stretches cs) :
    (∃ t, tokens p = [t]) ∨ (tokens p = [] ∧
      ((∃ c, p = [c] ∧ Text.isBlank c = true) ∨ ['/', '*'] <+: p)) := by
  fun_induction stretches cs with
  | case1 => cases hp
  | case2 c cs ih =>
    obtain rfl | hp := List.mem_cons.mp hp
    · have htokens : ∀ taken, tokens (c :: taken) =
          (LexState.begin c).1 ++ (LexState.begin c).2.run taken := fun _ ↦ rfl
      have hnone : (LexState.between.split cs).1 = [] := by cases cs <;> rfl
      rw [htokens]
      by_cases hblank : Text.isBlank c = true
      · rw [LexState.begin_of_isBlank hblank, hnone]
        exact Or.inr ⟨rfl, Or.inl ⟨c, rfl, hblank⟩⟩
      · by_cases hslash : c = '/'
        · subst hslash
          exact slash_cases cs
        · obtain ⟨t, hbegin⟩ | ⟨s, hbegin, hs⟩ := LexState.beginsToken_begin hblank hslash
          · rw [hbegin, hnone]
            exact Or.inl ⟨t, rfl⟩
          · rw [hbegin]
            exact Or.inl (LexState.exists_run_split hs cs)
    · exact ih hp

theorem ne_nil_of_mem_stretches {cs p : List Char} (hp : p ∈ stretches cs) : p ≠ [] := by
  fun_induction stretches cs with
  | case1 => cases hp
  | case2 c cs ih =>
    obtain rfl | hp := List.mem_cons.mp hp
    · exact List.cons_ne_nil _ _
    · exact ih hp

/-- Blanks or a comment in front of a stretch give no token and end the one before. -/
theorem tokens_append_filler_append {cs : List Char} {ps qs : List (List Char)}
    (h : stretches cs = ps ++ qs) (hqs : qs ≠ []) {w : List Char} (hw : IsFiller w) :
    tokens (ps.flatten ++ w ++ qs.flatten) = tokens cs := by
  have hcs : ps.flatten ++ qs.flatten = cs := by
    rw [← List.flatten_append, ← h, flatten_stretches]
  cases w with
  | nil => rw [List.append_nil, hcs]
  | cons d w =>
    obtain ⟨q, qs, rfl⟩ := List.exists_cons_of_ne_nil hqs
    have hq : q ≠ [] := ne_nil_of_mem_stretches (h ▸ List.mem_append_right ps List.mem_cons_self)
    obtain ⟨c, q, rfl⟩ := List.exists_cons_of_ne_nil hq
    have htakes := takes_of_stretches h (List.flatten_cons.trans (List.cons_append ..))
    have hends := LexState.takes_eq_false_of_opensFiller htakes hw.opensFiller
    calc tokens (ps.flatten ++ (d :: w) ++ ((c :: q) :: qs).flatten)
        = LexState.between.run (ps.flatten ++ d :: (w ++ ((c :: q) :: qs).flatten)) := by
          rw [List.append_assoc, tokens]
          rfl
      _ = tokens ps.flatten ++ LexState.between.run (d :: w ++ ((c :: q) :: qs).flatten) :=
          LexState.run_append_of_takes_eq_false hends _
      _ = tokens ps.flatten ++ tokens ((c :: q) :: qs).flatten := by
          rw [hw.run_append, tokens, tokens]
      _ = tokens cs := by rw [← tokens_append_of_stretches h, hcs]

/-- A text falls into stretches: its tokens are those of its stretches one by one, and a stretch
without a token is a blank or a comment. Blanks, or a comment, that are put in front of any stretch
change no token and no entity of the text. -/
theorem tokens_insert_filler (s : String) :
    (stretches s.toList).flatten = s.toList ∧
      tokens s.toList = (stretches s.toList).flatMap tokens ∧
      (∀ p ∈ stretches s.toList, (∃ t, tokens p = [t]) ∨ (tokens p = [] ∧
        ((∃ c, p = [c] ∧ Text.isBlank c = true) ∨ ['/', '*'] <+: p))) ∧
      ∀ ps qs w, stretches s.toList = ps ++ qs → qs ≠ [] → IsFiller w →
        tokens (ps.flatten ++ w ++ qs.flatten) = tokens s.toList ∧
        readEntities (String.ofList (ps.flatten ++ w ++ qs.flatten)) = readEntities s := by
  refine ⟨flatten_stretches _, tokens_eq_flatMap_stretches _, fun p hp ↦ stretch_cases hp,
    fun ps qs w h hqs hw ↦ ?_⟩
  have htokens := tokens_append_filler_append h hqs hw
  refine ⟨htokens, ?_⟩
  rw [readEntities, readEntities, String.toList_ofList, htokens]

/-- A slash, which would begin a comment in front of an asterisk, stays a token by itself in front
of a comment, also if an asterisk follows that. -/
theorem tokens_insert_filler_slash :
    stretches "1E+/ *;".toList = [['1', 'E', '+'], ['/'], [' ']] ++ [['*'], [';']] ∧
      IsFiller "/*'/**/".toList ∧ tokens "1E+/ /*'/**/*;".toList = tokens "1E+/ *;".toList := by
  have hstretches :
      stretches "1E+/ *;".toList = [['1', 'E', '+'], ['/'], [' ']] ++ [['*'], [';']] := by
    decide +kernel
  have hfiller : IsFiller "/*'/**/".toList := Or.inr ⟨['\'', '/', '*'], by decide, rfl⟩
  exact ⟨hstretches, hfiller,
    ((tokens_insert_filler "1E+/ *;").2.2.2 _ _ _ hstretches (by decide) hfiller).1⟩

end PipingAssembly.Exchange
