import PipingAssembly.Proofs.Files.Places
import PipingAssembly.Proofs.Yaml.Blocks

/-!
# Texts in the styles they are written in

The style of a text is chosen by the characters it has and by what its edges are, so that each style
gives what the reader of the style asks for.
-/

namespace PipingAssembly.Yaml

/-! ### Characters -/

/-- Without escapes every character of a text stands as it is, apart from the ends of its lines. -/
theorem isOrdinary_of_needsEscapes {cs : List Char} (h : needsEscapes cs = false) {d : Char}
    (hd : d ∈ cs) (hfeed : d ≠ '\n') : isOrdinary d = true := by
  rw [needsEscapes, Bool.or_eq_false_iff, Bool.or_eq_false_iff, List.any_eq_false,
    List.any_eq_false] at h
  obtain ⟨⟨hprint, -⟩, hseparator⟩ := h
  have hprint' : isPrintable d = true := by simpa using hprint d hd
  have hseparator' := hseparator d hd
  simp only [Bool.or_eq_true, beq_iff_eq, not_or] at hseparator'
  rw [isOrdinary, hprint', bne_iff_ne.mpr hfeed, bne_iff_ne.mpr hseparator'.1,
    bne_iff_ne.mpr hseparator'.2]
  rfl

/-- The text between the ends of its lines. -/
theorem intercalate_splitWhere (cs : List Char) :
    ['\n'].intercalate (Text.splitWhere (· == '\n') cs) = cs := by
  induction cs with
  | nil => rfl
  | cons c cs ih =>
    rw [Text.splitWhere]
    cases hparts : Text.splitWhere (· == '\n') cs with
    | nil => exact absurd hparts (Text.splitWhere_ne_nil cs)
    | cons part parts =>
      rw [hparts] at ih
      by_cases hc : c = '\n'
      · subst hc
        simp [List.intercalate_cons_cons, ih]
      · have hc' : ¬(c == '\n') = true := by simpa using hc
        simp only [if_neg hc']
        cases parts <;> simpa [List.intercalate_cons_cons] using ih

/-- The lines of a text have its characters, without the ends of lines. -/
theorem mem_of_mem_splitWhere {cs l : List Char} (hl : l ∈ Text.splitWhere (· == '\n') cs)
    {d : Char} (hd : d ∈ l) : d ∈ cs ∧ d ≠ '\n' := by
  induction cs generalizing l with
  | nil =>
    obtain rfl := List.mem_singleton.mp hl
    exact absurd hd List.not_mem_nil
  | cons c cs ih =>
    rw [Text.splitWhere] at hl
    cases hparts : Text.splitWhere (· == '\n') cs with
    | nil => exact absurd hparts (Text.splitWhere_ne_nil cs)
    | cons part parts =>
      simp only [hparts] at hl ih
      have hrest : ∀ {l}, l ∈ part :: parts → d ∈ l → d ∈ c :: cs ∧ d ≠ '\n' :=
        fun hl hd ↦ (ih hl hd).imp_left (List.mem_cons_of_mem c)
      split at hl
      · obtain rfl | hl := List.mem_cons.mp hl
        · exact absurd hd List.not_mem_nil
        · exact hrest hl hd
      · rename_i hc
        obtain rfl | hl := List.mem_cons.mp hl
        · obtain rfl | hd := List.mem_cons.mp hd
          · exact ⟨List.mem_cons_self, by simpa using hc⟩
          · exact hrest List.mem_cons_self hd
        · exact hrest (List.mem_cons_of_mem part hl) hd

/-! ### Styles -/

section Style

variable {s : String} {isKey : Bool}

/-- What the choice of a style says of a text. -/
theorem scalarStyle_cases (isKey : Bool) (s : String) :
    (scalarStyle isKey s = .doubleQuoted) ∨
    (scalarStyle isKey s = .literal ∧ needsEscapes s.toList = false ∧ '\n' ∈ s.toList ∧
      s.toList.getLast? ≠ some ' ') ∨
    (needsEscapes s.toList = false ∧ '\n' ∉ s.toList ∧ (scalarStyle isKey s = .singleQuoted ∨
      scalarStyle isKey s = .plain ∧ s.toList.head? ≠ some ' ' ∧ s.toList.getLast? ≠ some ' ' ∧
        opensMarkup s.toList = false ∧ containsMarkup s.toList = false ∧
        resolvesElsewhere s = false)) := by
  unfold scalarStyle
  dsimp only
  split
  · exact Or.inl rfl
  rename_i hescapes
  rw [Bool.not_eq_true] at hescapes
  split
  · rename_i hfeed
    split
    · exact Or.inl rfl
    · rename_i hlast
      refine Or.inr (Or.inl ⟨rfl, hescapes, by simpa using hfeed, ?_⟩)
      simp at hlast
      exact hlast.2
  · rename_i hfeed
    refine Or.inr (Or.inr ⟨hescapes, by simpa using hfeed, ?_⟩)
    split
    · exact Or.inl rfl
    · rename_i hplain
      simp only [Bool.not_eq_true, Bool.or_eq_false_iff, beq_eq_false_iff_ne, ne_eq] at hplain
      obtain ⟨⟨⟨⟨⟨hhead, hlast⟩, -⟩, hopens⟩, hcontains⟩, hresolves⟩ := hplain
      exact Or.inr ⟨rfl, hhead, hlast, hopens, hcontains, hresolves⟩

end Style

section Plain

variable {cs : List Char} (hordinary : ∀ d ∈ cs, isOrdinary d = true) (hhead : cs.head? ≠ some ' ')
  (hopens : opensMarkup cs = false)
include hordinary hhead hopens

theorem isPlain_of_markup (hlast : cs.getLast? ≠ some ' ') (hcontains : containsMarkup cs = false) :
    IsPlain cs := by
  refine ⟨hordinary, ?_, hhead, hlast⟩
  cases cs with
  | nil => rfl
  | cons b rest =>
    rw [opensMarkup, Bool.or_eq_false_iff] at hopens
    obtain ⟨hmark, hcolon⟩ := hopens
    have hhash : (b == '#') = false := by
      refine beq_false_of_ne ?_
      rintro rfl
      exact Bool.noConfusion hmark
    have hcolon' : (b == ':' && rest.head?.all isGap) = false := by
      cases hb : b == ':' with
      | false => rfl
      | true => simpa [hb] using hcolon
    rw [containsMarkup, hcolon', hhash, hcontains]
    rfl

/-- A text that needs no quotes for its beginning begins a plain scalar. -/
theorem opensPlain_of_markup (hne : cs ≠ []) (rest : List Char) :
    OpensPlain (cs ++ '\n' :: rest) := by
  obtain ⟨d, r, rfl⟩ := List.exists_cons_of_ne_nil hne
  rw [opensMarkup, Bool.or_eq_false_iff] at hopens
  obtain ⟨hmark, hgap⟩ := hopens
  refine ⟨d, r ++ '\n' :: rest, rfl, hordinary d List.mem_cons_self,
    fun heq ↦ hhead (congrArg some heq), by simpa using hmark, fun hd ↦ ?_⟩
  have hsigns : (d == '?' || d == ':' || d == '-') = true := by
    obtain rfl | rfl | rfl := hd <;> rfl
  rw [hsigns, Bool.true_and] at hgap
  cases r with
  | nil => exact Bool.noConfusion hgap
  | cons e r =>
    have he := hordinary e (List.mem_cons_of_mem d List.mem_cons_self)
    have hspace : (e == ' ') = false := by
      rw [List.head?_cons, Option.all_some, isGap, Bool.or_eq_false_iff,
        Bool.or_eq_false_iff] at hgap
      exact hgap.1.1
    rw [List.cons_append, atBlankOrEnd, isBreak_of_isOrdinary he, isSpaceOrTab_of_isOrdinary he,
      hspace]
    rfl

end Plain

theorem OpensPlain.opensToken {cs : List Char} (h : OpensPlain cs) : OpensToken cs := by
  obtain ⟨d, r, rfl, hd, hspace, hmark, -⟩ := h
  rintro e he
  obtain rfl := Option.some.inj he
  refine ⟨hd, hspace, ?_⟩
  rintro rfl
  exact hmark (by decide)

/-- Whether no line break and no blank is at the edges of a text where they have a meaning for a
literal. -/
structure IsTrimmed (s : String) : Prop where
  blank : s.toList.head? ≠ some ' '
  first : s.toList.head? ≠ some '\n'
  last : s.toList.getLast? ≠ some '\n'

/-! ### Written texts -/

theorem toList_singleQuoted (cs : List Char) : (singleQuoted cs).toList =
    quoteOf true :: (cs.flatMap (quotedChar true) ++ [quoteOf true]) := by
  simp only [singleQuoted, String.toList_append, String.toList_ofList]
  rfl

theorem toList_doubleQuoted (cs : List Char) : (doubleQuoted cs).toList =
    quoteOf false :: (cs.flatMap (quotedChar false) ++ [quoteOf false]) := by
  simp only [doubleQuoted, String.toList_append, String.toList_ofList]
  rfl

/-- A text whose last line is empty ends with the end of a line. -/
private theorem getLast?_intercalate {l : List Char} {ls : List (List Char)} (hne : ls ≠ [])
    (hlast : (l :: ls).getLast? = some []) :
    (['\n'].intercalate (l :: ls)).getLast? = some '\n' := by
  induction ls generalizing l with
  | nil => exact absurd rfl hne
  | cons l' ls ih =>
    rw [List.intercalate_cons_cons]
    cases ls with
    | nil =>
      obtain rfl := Option.some.inj hlast
      simp
    | cons l'' ls =>
      rw [List.getLast?_append, ih (List.cons_ne_nil l'' ls) hlast]
      rfl

private theorem literalHeader_of_trimmed {cs : List Char} (hblank : cs.head? ≠ some ' ')
    (hfirst : cs.head? ≠ some '\n') (hlast : cs.getLast? ≠ some '\n') :
    literalHeader cs = "|-" := by
  have hhead : ¬(cs.head? = some ' ' ∨ cs.head? = some '\n') := not_or.mpr ⟨hblank, hfirst⟩
  have hreverse : cs.reverse.head? ≠ some '\n' := by rwa [List.head?_reverse]
  rw [literalHeader, if_neg hhead]
  split
  · rename_i heq
    exact absurd (congrArg List.head? heq) hreverse
  · rename_i heq
    exact absurd (congrArg List.head? heq) hreverse
  · rename_i heq
    exact absurd (congrArg List.head? heq) hreverse
  · rfl

/-- The lines of a literal whose edges are trimmed. -/
theorem exists_literal {s : String} (hs : IsTrimmed s) (hescapes : needsEscapes s.toList = false)
    (hfeed : '\n' ∈ s.toList) :
    ∃ l ls, literalHeader s.toList = "|-" ∧
      (literalLines s.toList).map String.toList = l :: ls ∧ l ≠ [] ∧ l.head? ≠ some ' ' ∧
      (∀ l' ∈ l :: ls, ∀ d ∈ l', isOrdinary d = true) ∧ (l :: ls).getLast? ≠ some [] ∧
      ['\n'].intercalate (l :: ls) = s.toList := by
  have hheader := literalHeader_of_trimmed hs.blank hs.first hs.last
  have hlines : (literalLines s.toList).map String.toList =
      Text.splitWhere (· == '\n') s.toList := by
    rw [literalLines, if_neg hs.last, List.map_map]
    simp [Function.comp_def]
  cases hparts : Text.splitWhere (· == '\n') s.toList with
  | nil => exact absurd hparts (Text.splitWhere_ne_nil _)
  | cons l ls =>
    have hjoin := intercalate_splitWhere s.toList
    rw [hparts] at hlines hjoin
    have hls : ls ≠ [] := by
      rintro rfl
      rw [List.intercalate_singleton] at hjoin
      exact (mem_of_mem_splitWhere (hparts ▸ List.mem_cons_self) (hjoin ▸ hfeed)).2 rfl
    have hl : l ≠ [] := by
      rintro rfl
      obtain ⟨l', ls, rfl⟩ := List.exists_cons_of_ne_nil hls
      rw [List.intercalate_cons_cons] at hjoin
      exact hs.first (hjoin ▸ rfl)
    refine ⟨l, ls, hheader, hlines, hl, ?_, ?_, ?_, hjoin⟩
    · obtain ⟨d, l, rfl⟩ := List.exists_cons_of_ne_nil hl
      obtain ⟨l', ls, rfl⟩ := List.exists_cons_of_ne_nil hls
      rw [List.intercalate_cons_cons] at hjoin
      exact fun heq ↦ hs.blank (hjoin ▸ heq)
    · intro l' hl' d hd
      obtain ⟨hmem, hne⟩ := mem_of_mem_splitWhere (hparts ▸ hl') hd
      exact isOrdinary_of_needsEscapes hescapes hmem hne
    · exact fun heq ↦ hs.last (hjoin ▸ getLast?_intercalate hls heq)

private theorem isAllowed_of_mem_quoted {single : Bool} {cs : List Char}
    (hcs : ∀ d ∈ cs, FitsQuotes single d) {e : Char}
    (he : e ∈ quoteOf single :: (cs.flatMap (quotedChar single) ++ [quoteOf single])) :
    isAllowed e = true := by
  have hquote : isAllowed (quoteOf single) = true := by cases single <;> rfl
  rw [List.mem_cons, List.mem_append, List.mem_singleton] at he
  obtain rfl | he | rfl := he
  · exact hquote
  · obtain ⟨d, hd, he⟩ := List.mem_flatMap.mp he
    exact isAllowed_of_mem_quotedChar (hcs d hd) he
  · exact hquote

/-- What is written for a text may occur in a text. -/
theorem isAllowed_of_mem_scalarLines {t : String} (ht : IsTrimmed t) {l : List Char}
    (hl : l = (scalarLines false t).1.toList ∨ l ∈ (scalarLines false t).2.map String.toList)
    {d : Char} (hd : d ∈ l) : isAllowed d = true := by
  rw [scalarLines] at hl
  obtain hstyle | ⟨hstyle, hescapes, hfeed, -⟩ | ⟨hescapes, hfeed, hstyle | ⟨hstyle, -⟩⟩ :=
    scalarStyle_cases false t
  · rw [hstyle] at hl
    obtain rfl | hl := hl
    · rw [toList_doubleQuoted] at hd
      exact isAllowed_of_mem_quoted (fun _ _ ↦ Bool.noConfusion) hd
    · exact absurd hl List.not_mem_nil
  · rw [hstyle] at hl
    obtain ⟨first, ls, hheader, hlines, -, -, hline, -, -⟩ := exists_literal ht hescapes hfeed
    simp only [hheader, hlines] at hl
    obtain rfl | hl := hl
    · simp only [show "|-".toList = ['|', '-'] from rfl, List.mem_cons, List.not_mem_nil,
        or_false] at hd
      obtain rfl | rfl := hd <;> rfl
    · exact isAllowed_of_isOrdinary (hline l hl d hd)
  · rw [hstyle] at hl
    obtain rfl | hl := hl
    · rw [toList_singleQuoted] at hd
      exact isAllowed_of_mem_quoted (fun e he _ ↦ isOrdinary_of_needsEscapes hescapes he
        fun heq ↦ hfeed (heq ▸ he)) hd
    · exact absurd hl List.not_mem_nil
  · rw [hstyle] at hl
    obtain rfl | hl := hl
    · exact isAllowed_of_isOrdinary
        (isOrdinary_of_needsEscapes hescapes hd fun heq ↦ hfeed (heq ▸ hd))
    · exact absurd hl List.not_mem_nil

namespace Lexing

variable {s : Lexing} {ts : List Token} {b m column : Nat} {is : List Int} {rest : List Char}

/-- A text is lexed in its style up to the next line, which is not indented more than the block. -/
theorem Stands.text {t : String} (ht : IsTrimmed t)
    (h : s.Stands ts (b :: is) (' ' :: ((scalarLines false t).1.toList ++ '\n' ::
      (linesIn (b + 2) ((scalarLines false t).2.map String.toList) ++
        (List.replicate m ' ' ++ rest)))) column false)
    (hb : b < column) (hm : m ≤ b) (hrest : OpensToken rest) :
    ∃ s', s.Leads s' ∧
      s'.ComesTo (.scalar t (scalarStyle false t == .plain) :: ts) (b :: is) rest m true := by
  have hquote : ∀ (single : Bool) cs, OpensToken (quoteOf single :: cs) := by
    rintro single cs e he
    obtain rfl := Option.some.inj he
    cases single <;> decide
  have hb' : b < column + 1 := Nat.lt_succ_of_lt hb
  rw [scalarLines] at h
  obtain hstyle | ⟨hstyle, hescapes, hfeed, -⟩ | ⟨hescapes, hfeed, hstyle | ⟨hstyle, hhead, hlast,
      hopens, hcontains, hresolves⟩⟩ := scalarStyle_cases false t
  · rw [hstyle] at h ⊢
    simp only [toList_doubleQuoted, List.map_nil, linesIn_nil, List.nil_append, List.cons_append,
      List.append_assoc] at h
    have hcomes := Stands.comesTo (n := 1) h (hquote false _)
    rw [← String.ofList_toList (s := t)]
    exact hcomes.quoted (fun d _ ↦ Bool.noConfusion) hb' hrest
  · rw [hstyle] at h ⊢
    obtain ⟨l, ls, hheader, hlines, hl, hblank, hline, hlast, hjoin⟩ :=
      exists_literal ht hescapes hfeed
    simp only [hheader, hlines] at h
    have hcomes := Stands.comesTo (n := 1) h fun e he ↦ by
      obtain rfl := Option.some.inj he
      decide
    rw [← String.ofList_toList (s := t), ← hjoin]
    exact hcomes.literal (by omega) hl hblank hline hlast hb' hm hrest
  · rw [hstyle] at h ⊢
    simp only [toList_singleQuoted, List.map_nil, linesIn_nil, List.nil_append, List.cons_append,
      List.append_assoc] at h
    have hcomes := Stands.comesTo (n := 1) h (hquote true _)
    rw [← String.ofList_toList (s := t)]
    refine hcomes.quoted (fun d hd _ ↦ ?_) hb' hrest
    exact isOrdinary_of_needsEscapes hescapes hd fun heq ↦ hfeed (heq ▸ hd)
  · rw [hstyle] at h ⊢
    have hne : t.toList ≠ [] := by
      rintro hnil
      rw [String.toList_eq_nil_iff] at hnil
      subst hnil
      exact absurd hresolves (by decide)
    have hordinary : ∀ d ∈ t.toList, isOrdinary d = true :=
      fun d hd ↦ isOrdinary_of_needsEscapes hescapes hd fun heq ↦ hfeed (heq ▸ hd)
    have hplain := opensPlain_of_markup hordinary hhead hopens hne
    simp only [List.map_nil, linesIn_nil, List.nil_append] at h
    have hcomes := Stands.comesTo (n := 1) h (hplain _).opensToken
    rw [← String.ofList_toList (s := t)]
    exact hcomes.plain (isPlain_of_markup hordinary hhead hopens hlast hcontains) hne hplain hb' hm
      hrest

end Lexing

end PipingAssembly.Yaml
