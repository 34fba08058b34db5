import PipingAssembly.Json.Reader
import PipingAssembly.Json.Writer
import PipingAssembly.Proofs.Decimal.Numerals

/-!
# Numbers in JSON texts

A number is read up to what cannot belong to it, so what follows behind a comma or a closing bracket
has no part in its value. The texts in which numbers are written are read to their end. A whole
number of at most 64 bits reads back as itself. What a floating-point number reads back as is what
its text reads as by itself.
-/

namespace PipingAssembly.Json

/-- What may follow a value: nothing, a comma or a closing bracket. -/
def Follows (rest : List Char) : Prop :=
  ∀ c, rest.head? = some c → c = ',' ∨ c = ']' ∨ c = '\x7d'

theorem follows_nil : Follows [] := by
  intro c hc
  cases hc

theorem follows_cons {c : Char} (hc : c = ',' ∨ c = ']' ∨ c = '\x7d') (rest : List Char) :
    Follows (c :: rest) := by
  intro d hd
  cases hd
  exact hc

/-- What has been read with more behind it is left with that behind it. -/
abbrev before {α : Type} (rest : List Char) (read : Option (α × List Char)) :
    Option (α × List Char) :=
  read.map fun (a, left) ↦ (a, left ++ rest)

/-! ### Reading up to what follows -/

section Frame

variable {rest : List Char} (hrest : Follows rest)
include hrest

private theorem head_cases (p : Char → Bool)
    (hp : p ',' = false ∧ p ']' = false ∧ p '\x7d' = false) :
    rest = [] ∨ ∃ c r, rest = c :: r ∧ p c = false := by
  cases rest with
  | nil => exact Or.inl rfl
  | cons c r =>
    obtain rfl | rfl | rfl := hrest c rfl
    · exact Or.inr ⟨_, r, rfl, hp.1⟩
    · exact Or.inr ⟨_, r, rfl, hp.2.1⟩
    · exact Or.inr ⟨_, r, rfl, hp.2.2⟩

private theorem takeWhile_isDigit_append (xs : List Char) :
    (xs ++ rest).takeWhile Char.isDigit = xs.takeWhile Char.isDigit := by
  induction xs with
  | nil =>
    obtain rfl | ⟨c, r, rfl, hc⟩ := head_cases hrest Char.isDigit (by decide)
    · rfl
    · exact List.takeWhile_cons_of_neg (by simp [hc])
  | cons x xs ih =>
    rw [List.cons_append, List.takeWhile_cons, List.takeWhile_cons, ih]

private theorem dropWhile_isDigit_append (xs : List Char) :
    (xs ++ rest).dropWhile Char.isDigit = xs.dropWhile Char.isDigit ++ rest := by
  induction xs with
  | nil =>
    obtain rfl | ⟨c, r, rfl, hc⟩ := head_cases hrest Char.isDigit (by decide)
    · rfl
    · exact List.dropWhile_cons_of_neg (by simp [hc])
  | cons x xs ih =>
    rw [List.cons_append, List.dropWhile_cons, List.dropWhile_cons, ih]
    split <;> rfl

private theorem readSignificand_append (n : Nat) (xs : List Char) :
    readSignificand n (xs ++ rest) =
      ((readSignificand n xs).1, (readSignificand n xs).2.1,
        (readSignificand n xs).2.2 ++ rest) := by
  induction xs generalizing n with
  | nil =>
    obtain rfl | ⟨c, r, rfl, hc⟩ := head_cases hrest Char.isDigit (by decide)
    · rfl
    · simp only [List.nil_append, readSignificand, hc, Bool.false_eq_true, if_false]
  | cons x xs ih =>
    rw [List.cons_append, readSignificand, readSignificand]
    by_cases hx : x.isDigit = true
    · by_cases hlt : 10 * n + (x.toNat - '0'.toNat) < wordLimit
      · simp only [hx, hlt, if_true, ih]
      · simp only [hx, hlt, if_true, if_false, List.cons_append]
    · simp only [hx, Bool.false_eq_true, if_false, List.cons_append]

private theorem splitSign_append (xs : List Char) :
    Decimal.splitSign (xs ++ rest) =
      ((Decimal.splitSign xs).1, (Decimal.splitSign xs).2 ++ rest) := by
  have hunsigned : ∀ c r, c ≠ '+' → c ≠ '-' →
      Decimal.splitSign (c :: r) = (false, c :: r) := by
    intro c r hplus hminus
    rw [Decimal.splitSign]
    · exact fun _ heq ↦ hplus (List.cons.inj heq).1
    · exact fun _ heq ↦ hminus (List.cons.inj heq).1
  cases xs with
  | nil =>
    obtain rfl | ⟨c, r, rfl, hc⟩ := head_cases hrest (fun c ↦ c == '+' || c == '-') (by decide)
    · rfl
    · obtain ⟨hplus, hminus⟩ := Bool.or_eq_false_iff.mp hc
      exact hunsigned c r (ne_of_beq_false hplus) (ne_of_beq_false hminus)
  | cons x xs =>
    by_cases hplus : x = '+'
    · subst hplus
      rfl
    · by_cases hminus : x = '-'
      · subst hminus
        rfl
      · rw [List.cons_append, hunsigned x _ hplus hminus, hunsigned x _ hplus hminus]
        rfl

private theorem splitDigits_append (xs : List Char) :
    Decimal.splitDigits (xs ++ rest) =
      ((Decimal.splitDigits xs).1, (Decimal.splitDigits xs).2 ++ rest) := by
  rw [Decimal.splitDigits, takeWhile_isDigit_append hrest, dropWhile_isDigit_append hrest]
  rfl

private theorem readExponent?_append (negative : Bool) (n : Nat) (e : Int) (xs : List Char) :
    readExponent? negative n e (xs ++ rest) = before rest (readExponent? negative n e xs) := by
  rw [readExponent?, readExponent?, splitSign_append hrest]
  simp only [splitDigits_append hrest]
  by_cases hnil : (Decimal.splitDigits (Decimal.splitSign xs).2).1 = []
  · rw [if_pos hnil, if_pos hnil]
    rfl
  · rw [if_neg hnil, if_neg hnil]
    split
    · split <;> rfl
    · rw [before, Option.map_map]
      rfl

/-- What stands before the end of a number is the same with more behind it, so a reader of its first
character takes the same way. -/
private theorem append_ne_cons {d : Char} (hd : d ≠ ',' ∧ d ≠ ']' ∧ d ≠ '\x7d')
    {xs : List Char} (hxs : ∀ r, xs ≠ d :: r) (r : List Char) : xs ++ rest ≠ d :: r := by
  intro heq
  cases xs with
  | nil =>
    obtain rfl | rfl | rfl := hrest d (congrArg List.head? heq)
    · exact hd.1 rfl
    · exact hd.2.1 rfl
    · exact hd.2.2 rfl
  | cons x xs => exact hxs xs (by rw [(List.cons.inj heq).1])

private theorem readTail?_append (negative : Bool) (n : Nat) (e : Int) (xs : List Char) :
    readTail? negative n e (xs ++ rest) = before rest (readTail? negative n e xs) := by
  by_cases he : ∃ r, xs = 'e' :: r
  · obtain ⟨r, rfl⟩ := he
    exact readExponent?_append hrest negative n e r
  · by_cases hE : ∃ r, xs = 'E' :: r
    · obtain ⟨r, rfl⟩ := hE
      exact readExponent?_append hrest negative n e r
    · rw [not_exists] at he hE
      rw [readTail?, readTail?, before, Option.map_map]
      · rfl
      all_goals
        first
        | exact he
        | exact hE
        | exact append_ne_cons hrest (by decide) (by assumption)

private theorem readFraction?_append (negative : Bool) (n : Nat) (e : Int) (xs : List Char) :
    readFraction? negative n e (xs ++ rest) = before rest (readFraction? negative n e xs) := by
  cases xs with
  | nil =>
    obtain rfl | ⟨c, r, rfl, hc⟩ := head_cases hrest Char.isDigit (by decide)
    · rfl
    · simp only [List.nil_append, readFraction?, hc, Bool.false_eq_true, if_false]
      rfl
  | cons x xs =>
    rw [List.cons_append, readFraction?, readFraction?]
    by_cases hx : x.isDigit = true
    · rw [if_pos hx, if_pos hx, ← List.cons_append, readSignificand_append hrest]
      simp only [dropWhile_isDigit_append hrest, readTail?_append hrest]
    · rw [if_neg hx, if_neg hx]
      rfl

private theorem readAfterDigits?_append (negative : Bool) (n : Nat) (more xs : List Char) :
    readAfterDigits? negative n more (xs ++ rest) =
      before rest (readAfterDigits? negative n more xs) := by
  by_cases hpoint : ∃ r, xs = '.' :: r
  · obtain ⟨r, rfl⟩ := hpoint
    exact readFraction?_append hrest negative n more.length r
  · by_cases he : ∃ r, xs = 'e' :: r
    · obtain ⟨r, rfl⟩ := he
      exact readExponent?_append hrest negative n more.length r
    · by_cases hE : ∃ r, xs = 'E' :: r
      · obtain ⟨r, rfl⟩ := hE
        exact readExponent?_append hrest negative n more.length r
      · rw [not_exists] at hpoint he hE
        rw [readAfterDigits?, readAfterDigits?]
        · split
          · rfl
          · rw [before, Option.map_map]
            rfl
        all_goals
          first
          | assumption
          | exact append_ne_cons hrest (by decide) (by assumption)

private theorem head?_any_append (p : Char → Bool)
    (hp : p ',' = false ∧ p ']' = false ∧ p '\x7d' = false) (xs : List Char) :
    (xs ++ rest).head?.any p = xs.head?.any p := by
  cases xs with
  | nil =>
    obtain rfl | ⟨c, r, rfl, hc⟩ := head_cases hrest p hp
    · rfl
    · exact hc
  | cons x xs => rfl

private theorem readUnsigned?_append (negative : Bool) (xs : List Char) :
    readUnsigned? negative (xs ++ rest) = before rest (readUnsigned? negative xs) := by
  cases xs with
  | nil =>
    obtain rfl | ⟨c, r, rfl, hc⟩ := head_cases hrest Char.isDigit (by decide)
    · rfl
    · simp [readUnsigned?, hc]
  | cons x xs =>
    rw [List.cons_append, readUnsigned?, readUnsigned?, head?_any_append hrest _ (by decide)]
    by_cases hx : x.isDigit = true
    · by_cases hzero : x = '0' ∧ xs.head?.any Char.isDigit = true
      · rw [if_neg (not_not_intro hx), if_neg (not_not_intro hx), if_pos hzero, if_pos hzero]
        rfl
      · rw [if_neg (not_not_intro hx), if_neg (not_not_intro hx), if_neg hzero, if_neg hzero,
          ← List.cons_append, readSignificand_append hrest]
        simp only [takeWhile_isDigit_append hrest, dropWhile_isDigit_append hrest,
          readAfterDigits?_append hrest]
    · rw [if_pos hx, if_pos hx]
      rfl

/-- A number is read in the same way whatever follows it. -/
theorem readNumber?_append (xs : List Char) :
    readNumber? (xs ++ rest) = before rest (readNumber? xs) := by
  by_cases hminus : ∃ r, xs = '-' :: r
  · obtain ⟨r, rfl⟩ := hminus
    exact readUnsigned?_append hrest true r
  · rw [not_exists] at hminus
    rw [readNumber?, readNumber?]
    · exact readUnsigned?_append hrest false xs
    · exact hminus
    · exact append_ne_cons hrest (by decide) hminus

end Frame

/-! ### Reading to the end -/

/-- An exponent as it is written, or nothing. -/
def IsExponent (cs : List Char) : Prop :=
  cs = [] ∨ ∃ ds, (cs = 'e' :: ds ∨ cs = 'e' :: '-' :: ds) ∧ ∀ c ∈ ds, c.isDigit = true

/-- Digits with a point among them or without. -/
def IsDecimal (cs : List Char) : Prop :=
  ∃ ds fs, (cs = ds ∨ cs = ds ++ '.' :: fs) ∧ ds ≠ [] ∧ (∀ c ∈ ds, c.isDigit = true) ∧
    ∀ c ∈ fs, c.isDigit = true

/-- A decimal number begins with a digit. -/
theorem IsDecimal.exists_cons {cs : List Char} (h : IsDecimal cs) :
    ∃ c r, cs = c :: r ∧ c.isDigit = true := by
  obtain ⟨ds, fs, hcs, hne, hds, -⟩ := h
  obtain ⟨c, r, rfl⟩ := List.exists_cons_of_ne_nil hne
  obtain rfl | rfl := hcs
  · exact ⟨c, r, rfl, hds c List.mem_cons_self⟩
  · exact ⟨c, r ++ '.' :: fs, rfl, hds c List.mem_cons_self⟩

/-- Nothing is left of what a reader has read. -/
abbrev ReadsToEnd {α : Type} (read : Option (α × List Char)) : Prop :=
  ∀ a left, read = some (a, left) → left = []

private theorem dropWhile_isDigit_of_forall {ds : List Char} (hds : ∀ c ∈ ds, c.isDigit = true)
    {t : List Char} (ht : t.head?.any Char.isDigit = false) :
    (ds ++ t).dropWhile Char.isDigit = t := by
  rw [List.dropWhile_append_of_pos hds]
  cases t with
  | nil => rfl
  | cons c t => exact List.dropWhile_cons_of_neg (by simpa using ht)

private theorem IsExponent.head?_any {cs : List Char} (h : IsExponent cs) :
    cs.head?.any Char.isDigit = false := by
  obtain rfl | ⟨ds, rfl | rfl, -⟩ := h <;> rfl

private theorem readsToEnd_map (v : Option Value) :
    ReadsToEnd (v.map fun a ↦ (a, ([] : List Char))) := by
  intro a left h
  obtain ⟨b, -, hb⟩ := Option.map_eq_some_iff.mp h
  exact (Prod.ext_iff.mp hb).2.symm

private theorem readsToEnd_readExponent? (negative : Bool) (n : Nat) (e : Int) {cs : List Char}
    (hsplit : (Decimal.splitDigits (Decimal.splitSign cs).2).2 = []) :
    ReadsToEnd (readExponent? negative n e cs) := by
  intro a left h
  rw [readExponent?] at h
  simp only [hsplit] at h
  split at h
  · cases h
  · split at h
    · split at h
      · cases h
      · exact (Prod.ext_iff.mp (Option.some.inj h)).2.symm
    · exact readsToEnd_map _ a left h

private theorem splitDigits_of_forall {ds : List Char} (hds : ∀ c ∈ ds, c.isDigit = true) :
    (Decimal.splitDigits ds).2 = [] := by
  rw [Decimal.splitDigits]
  simpa using dropWhile_isDigit_of_forall hds (t := []) rfl

private theorem splitSign_of_forall {ds : List Char} (hds : ∀ c ∈ ds, c.isDigit = true) :
    Decimal.splitSign ds = (false, ds) := by
  rw [Decimal.splitSign]
  · rintro r rfl
    exact absurd (hds '+' List.mem_cons_self) (by decide)
  · rintro r rfl
    exact absurd (hds '-' List.mem_cons_self) (by decide)

private theorem readsToEnd_exponent (negative : Bool) (n : Nat) (e : Int) {t : List Char}
    (ht : ∃ ds, (t = ds ∨ t = '-' :: ds) ∧ ∀ c ∈ ds, c.isDigit = true) :
    ReadsToEnd (readExponent? negative n e t) := by
  apply readsToEnd_readExponent?
  obtain ⟨ds, rfl | rfl, hds⟩ := ht
  · rw [splitSign_of_forall hds, splitDigits_of_forall hds]
  · exact splitDigits_of_forall hds

private theorem readsToEnd_readTail? (negative : Bool) (n : Nat) (e : Int) {t : List Char}
    (ht : IsExponent t) : ReadsToEnd (readTail? negative n e t) := by
  obtain rfl | ⟨ds, rfl | rfl, hds⟩ := ht
  · exact readsToEnd_map _
  · exact readsToEnd_exponent negative n e ⟨ds, Or.inl rfl, hds⟩
  · exact readsToEnd_exponent negative n e ⟨ds, Or.inr rfl, hds⟩

/-- The digits of a significand are the leading digits. -/
private theorem dropWhile_readSignificand (n : Nat) (cs : List Char) :
    (readSignificand n cs).2.2.dropWhile Char.isDigit = cs.dropWhile Char.isDigit := by
  induction cs generalizing n with
  | nil => rfl
  | cons c cs ih =>
    rw [readSignificand]
    by_cases hc : c.isDigit = true
    · by_cases hlt : 10 * n + (c.toNat - '0'.toNat) < wordLimit
      · simp only [hc, hlt, if_true, ih, List.dropWhile_cons_of_pos]
      · simp only [hc, hlt, if_true, if_false]
    · simp only [hc, Bool.false_eq_true, if_false]

private theorem readsToEnd_readFraction? (negative : Bool) (n : Nat) (e : Int)
    {fs t : List Char} (hfs : ∀ c ∈ fs, c.isDigit = true) (ht : IsExponent t) :
    ReadsToEnd (readFraction? negative n e (fs ++ t)) := by
  intro a left h
  unfold readFraction? at h
  split at h
  · cases h
  · split at h
    · change readTail? _ _ _ ((readSignificand n (fs ++ t)).2.2.dropWhile Char.isDigit) = _ at h
      rw [dropWhile_readSignificand, dropWhile_isDigit_of_forall hfs ht.head?_any] at h
      exact readsToEnd_readTail? _ _ _ ht a left h
    · cases h

private theorem readsToEnd_readAfterDigits? (negative : Bool) (n : Nat) (more : List Char)
    {t : List Char} (ht : IsExponent t ∨ ∃ fs t', t = '.' :: (fs ++ t') ∧
      (∀ c ∈ fs, c.isDigit = true) ∧ IsExponent t') :
    ReadsToEnd (readAfterDigits? negative n more t) := by
  obtain ht | ⟨fs, t', rfl, hfs, ht'⟩ := ht
  · obtain rfl | ⟨ds, rfl | rfl, hds⟩ := ht
    · intro a left h
      rw [readAfterDigits?] at h
      · split at h
        · exact (Prod.ext_iff.mp (Option.some.inj h)).2.symm
        · exact readsToEnd_map _ a left h
      all_goals exact fun _ heq ↦ nomatch heq
    · exact readsToEnd_exponent negative n _ ⟨ds, Or.inl rfl, hds⟩
    · exact readsToEnd_exponent negative n _ ⟨ds, Or.inr rfl, hds⟩
  · exact readsToEnd_readFraction? negative n _ hfs ht'

/-- A decimal number with an exponent is read to its end. -/
theorem readsToEnd_readUnsigned? (negative : Bool) {cs t : List Char} (hcs : IsDecimal cs)
    (ht : IsExponent t) : ReadsToEnd (readUnsigned? negative (cs ++ t)) := by
  obtain ⟨ds, fs, hcs, -, hds, hfs⟩ := hcs
  obtain ⟨t', hcs', hnondigit, ht'⟩ : ∃ t', cs ++ t = ds ++ t' ∧
      t'.head?.any Char.isDigit = false ∧ (IsExponent t' ∨ ∃ fs t'', t' = '.' :: (fs ++ t'') ∧
        (∀ c ∈ fs, c.isDigit = true) ∧ IsExponent t'') := by
    obtain rfl | rfl := hcs
    · exact ⟨t, rfl, ht.head?_any, Or.inl ht⟩
    · exact ⟨'.' :: (fs ++ t), List.append_assoc .., rfl, Or.inr ⟨fs, t, rfl, hfs, ht⟩⟩
  intro a left h
  rw [hcs'] at h
  unfold readUnsigned? at h
  split at h
  · cases h
  · split at h
    · cases h
    · split at h
      · cases h
      · change readAfterDigits? _ _ _ ((readSignificand 0 (ds ++ t')).2.2.dropWhile Char.isDigit) =
          _ at h
        rw [dropWhile_readSignificand, dropWhile_isDigit_of_forall hds hnondigit] at h
        exact readsToEnd_readAfterDigits? _ _ _ ht' a left h

/-! ### The texts of numbers -/

private theorem isDecimal_natText (n : Nat) : IsDecimal (Decimal.natText n).toList :=
  ⟨_, [], Or.inl rfl, Decimal.toList_natText_ne_nil n, fun _ ↦ Decimal.isDigit_of_mem_natText,
    nofun⟩

private theorem isDigit_of_mem_padStart {width n : Nat} {c : Char}
    (h : c ∈ (Decimal.padStart width '0' (Decimal.natText n)).toList) : c.isDigit = true := by
  rw [Decimal.padStart, String.toList_append, String.toList_ofList, List.mem_append] at h
  obtain h | h := h
  · rw [List.eq_of_mem_replicate h]
    decide
  · exact Decimal.isDigit_of_mem_natText h

private theorem isDecimal_pointText (n places : Nat) :
    IsDecimal (Decimal.pointText n places).toList := by
  unfold Decimal.pointText
  split
  · exact isDecimal_natText n
  · rw [String.toList_append, String.toList_append, List.append_assoc]
    exact ⟨_, _, Or.inr rfl, Decimal.toList_natText_ne_nil _,
      fun _ ↦ Decimal.isDigit_of_mem_natText, fun _ ↦ isDigit_of_mem_padStart⟩

private theorem isDecimal_positional (d : Decimal.Digits) : IsDecimal d.positional.toList := by
  unfold Decimal.Digits.positional
  split
  · exact isDecimal_natText _
  · exact isDecimal_pointText _ _

private theorem isExponent_natText (negative : Prop) [Decidable negative] (n : Nat) :
    IsExponent ('e' :: ((if negative then "-" else "").toList ++ (Decimal.natText n).toList)) := by
  refine Or.inr ⟨(Decimal.natText n).toList, ?_, fun _ ↦ Decimal.isDigit_of_mem_natText⟩
  split
  · exact Or.inr rfl
  · exact Or.inl rfl

private theorem exists_decimal_exponent (d : Decimal.Digits) :
    ∃ cs t, d.pointed.toList = cs ++ t ∧ IsDecimal cs ∧ IsExponent t := by
  unfold Decimal.Digits.pointed
  dsimp only
  split
  case isTrue h =>
    refine ⟨_, [], (List.append_nil _).symm, ?_, Or.inl rfl⟩
    rw [Decimal.Digits.positional, if_pos h.1, String.toList_append]
    exact ⟨_, ['0'], Or.inr rfl, Decimal.toList_natText_ne_nil _,
      fun _ ↦ Decimal.isDigit_of_mem_natText, List.forall_mem_singleton.mpr rfl⟩
  case isFalse =>
    split
    · exact ⟨_, [], (List.append_nil _).symm, isDecimal_positional d, Or.inl rfl⟩
    · simp only [String.toList_append, List.append_assoc]
      refine ⟨_, _, rfl, ?_, isExponent_natText _ _⟩
      split
      · exact isDecimal_natText _
      · exact isDecimal_pointText _ _

/-- What a number in a document begins with. -/
def StartsNumber (cs : List Char) : Prop :=
  ∃ c r, cs = c :: r ∧ (c = '-' ∨ c.isDigit = true)

theorem StartsNumber.append {cs : List Char} (h : StartsNumber cs) (rest : List Char) :
    StartsNumber (cs ++ rest) := by
  obtain ⟨c, r, rfl, hc⟩ := h
  exact ⟨c, r ++ rest, rfl, hc⟩

/-- The text of a finite number is a number up to its end. -/
private theorem readsToEnd_pointedText (negative : Bool) (mantissa : Nat) (exponent : Int) :
    StartsNumber (Decimal.pointedText negative mantissa exponent).toList ∧
      ReadsToEnd (readNumber? (Decimal.pointedText negative mantissa exponent).toList) := by
  obtain ⟨cs, t, hunsigned, hcs, ht⟩ : ∃ cs t,
      (if mantissa = 0 then "0.0" else (Decimal.shortest mantissa exponent).pointed).toList =
        cs ++ t ∧ IsDecimal cs ∧ IsExponent t := by
    split
    · exact ⟨"0.0".toList, [], rfl, ⟨['0'], ['0'], Or.inr rfl, List.cons_ne_nil _ _,
        List.forall_mem_singleton.mpr rfl, List.forall_mem_singleton.mpr rfl⟩, Or.inl rfl⟩
    · exact exists_decimal_exponent _
  rw [Decimal.pointedText, String.toList_append, hunsigned]
  cases negative with
  | true =>
    refine ⟨⟨'-', cs ++ t, rfl, Or.inl rfl⟩, ?_⟩
    change ReadsToEnd (readUnsigned? true (cs ++ t))
    exact readsToEnd_readUnsigned? true hcs ht
  | false =>
    change StartsNumber (cs ++ t) ∧ ReadsToEnd (readNumber? (cs ++ t))
    have hread := readsToEnd_readUnsigned? false hcs ht
    obtain ⟨c, r, rfl, hc⟩ := hcs.exists_cons
    refine ⟨⟨c, r ++ t, rfl, Or.inr hc⟩, ?_⟩
    rw [readNumber?]
    · exact hread
    · rintro r' heq
      rw [(List.cons.inj heq).1] at hc
      exact absurd hc (by decide)

theorem startsNumber_pointedText (negative : Bool) (mantissa : Nat) (exponent : Int) :
    StartsNumber (Decimal.pointedText negative mantissa exponent).toList :=
  (readsToEnd_pointedText negative mantissa exponent).1

/-- What begins like a number is read as one. -/
theorem readValue?_of_startsNumber {cs : List Char} (h : StartsNumber cs) (fuel depth : Nat) :
    readValue? (fuel + 1) depth cs = readNumber? cs := by
  obtain ⟨c, r, rfl, hc⟩ := h
  have hne : ∀ d : Char, d ≠ '-' → d.isDigit = false → c ≠ d := by
    rintro d hminus hdigit rfl
    obtain h | h := hc
    · exact hminus h
    · rw [hdigit] at h
      cases h
  have hkeep : skipBlanks (c :: r) = c :: r := by
    apply List.dropWhile_cons_of_neg
    simp only [Bool.or_eq_true, beq_iff_eq, not_or]
    refine ⟨⟨⟨?_, ?_⟩, ?_⟩, ?_⟩ <;> exact hne _ (by decide) (by decide)
  rw [readValue?, hkeep]
  split
  all_goals first
    | rfl
    | next heq => exact absurd (List.cons.inj heq).1 (hne _ (by decide) (by decide))

/-- The text of a number that is not finite is that of nothing. -/
theorem realText_of_isFinite_eq_false {x : Float} (h : Decimal.isFinite x = false) :
    realText x = "null" := by
  rw [realText]
  rw [Decimal.isFinite] at h
  split
  case h_1 heq =>
    rw [heq] at h
    cases h
  case h_2 => rfl

/-- A floating-point number is written as a number or as nothing. -/
theorem startsNumber_realText (x : Float) :
    StartsNumber (realText x).toList ∨ realText x = "null" := by
  unfold realText
  split
  · exact Or.inl (startsNumber_pointedText _ _ _)
  · exact Or.inr rfl

/-- The text of a number, with more behind it, is read as the text alone. A number that is not
finite reads as nothing. -/
theorem readValue?_realText (x : Float) {rest : List Char} (hrest : Follows rest)
    (fuel depth : Nat) :
    readValue? (fuel + 1) depth ((realText x).toList ++ rest) =
      (read? (realText x)).map (·, rest) := by
  unfold realText
  split
  case h_1 negative m e _ =>
    obtain ⟨hstart, hend⟩ := readsToEnd_pointedText negative m e
    rw [readValue?_of_startsNumber (hstart.append rest), readNumber?_append hrest, read?]
    simp only [readValue?_of_startsNumber hstart]
    cases hread : readNumber? (Decimal.pointedText negative m e).toList with
    | none => rfl
    | some result =>
      obtain ⟨v, left⟩ := result
      obtain rfl := hend v left hread
      rfl
  case h_2 => rfl

/-! ### What a number reads as -/

/-- What a reader gives is a whole or a floating-point number. -/
def GivesNumber (read : Option (Value × List Char)) : Prop :=
  ∀ v left, read = some (v, left) → (∃ n, v = .int n) ∨ ∃ x, v = .real x

private theorem givesNumber_none : GivesNumber none := nofun

private theorem givesNumber_some {v : Value} (hv : (∃ n, v = .int n) ∨ ∃ x, v = .real x)
    (left : List Char) : GivesNumber (some (v, left)) := by
  intro w left' h
  cases h
  exact hv

private theorem givesNumber_real? (negative : Bool) (n : Nat) (e : Int) (left : List Char) :
    GivesNumber ((real? negative n e).map (·, left)) := by
  rw [real?, Option.map_map]
  cases scale? 5 (Decimal.nearest n 1) e with
  | none => exact givesNumber_none
  | some x => exact givesNumber_some (Or.inr ⟨_, rfl⟩) left

private theorem givesNumber_readExponent? (negative : Bool) (n : Nat) (e : Int) (cs : List Char) :
    GivesNumber (readExponent? negative n e cs) := by
  unfold readExponent?
  dsimp only
  split
  · exact givesNumber_none
  · split
    · split
      · exact givesNumber_none
      · exact givesNumber_some (Or.inr ⟨_, rfl⟩) _
    · exact givesNumber_real? _ _ _ _

private theorem givesNumber_readFraction? (negative : Bool) (n : Nat) (e : Int) (cs : List Char) :
    GivesNumber (readFraction? negative n e cs) := by
  unfold readFraction?
  split
  · exact givesNumber_none
  · split
    · unfold readTail?
      dsimp only
      split
      · exact givesNumber_readExponent? _ _ _ _
      · exact givesNumber_readExponent? _ _ _ _
      · exact givesNumber_real? _ _ _ _
    · exact givesNumber_none

private theorem givesNumber_readUnsigned? (negative : Bool) (cs : List Char) :
    GivesNumber (readUnsigned? negative cs) := by
  unfold readUnsigned?
  split
  · exact givesNumber_none
  · split
    · exact givesNumber_none
    · split
      · exact givesNumber_none
      · unfold readAfterDigits?
        dsimp only
        split
        · exact givesNumber_readFraction? _ _ _ _
        · exact givesNumber_readExponent? _ _ _ _
        · exact givesNumber_readExponent? _ _ _ _
        · split
          · unfold whole
            split
            · exact givesNumber_some (Or.inl ⟨_, rfl⟩) _
            · split
              · exact givesNumber_some (Or.inr ⟨_, rfl⟩) _
              · exact givesNumber_some (Or.inl ⟨_, rfl⟩) _
          · exact givesNumber_real? _ _ _ _

private theorem givesNumber_readNumber? (cs : List Char) : GivesNumber (readNumber? cs) := by
  unfold readNumber?
  split
  · exact givesNumber_readUnsigned? true _
  · exact givesNumber_readUnsigned? false _

/-- The text of a floating-point number reads as a number or as nothing. -/
theorem read?_realText_cases {x : Float} {v : Value} (h : read? (realText x) = some v) :
    v = .null ∨ (∃ n, v = .int n) ∨ ∃ y, v = .real y := by
  obtain hstart | hnull := startsNumber_realText x
  · rw [read?] at h
    simp only [readValue?_of_startsNumber hstart] at h
    split at h
    case h_1 w left hread =>
      split at h
      · obtain rfl := Option.some.inj h
        exact Or.inr (givesNumber_readNumber? _ w left hread)
      · cases h
    case h_2 => cases h
  · rw [hnull] at h
    exact Or.inl (Option.some.inj h).symm

/-! ### Whole numbers -/

private theorem le_ofDigitChars (ds : List Char) (n : Nat) : n ≤ Nat.ofDigitChars 10 ds n := by
  induction ds generalizing n with
  | nil => exact Nat.le_refl n
  | cons d ds ih =>
    have hnext := ih (10 * n + (d.toNat - '0'.toNat))
    rw [Nat.ofDigitChars_cons]
    omega

/-- Digits whose number fits a word are read as a significand. -/
private theorem readSignificand_of_lt {ds : List Char} (hds : ∀ c ∈ ds, c.isDigit = true) {n : Nat}
    (hlt : Nat.ofDigitChars 10 ds n < wordLimit) :
    readSignificand n ds = (Nat.ofDigitChars 10 ds n, ds.length, []) := by
  induction ds generalizing n with
  | nil => rfl
  | cons d ds ih =>
    rw [Nat.ofDigitChars_cons] at hlt ⊢
    have hnext := Nat.lt_of_le_of_lt (le_ofDigitChars ds _) hlt
    have hrest := ih (fun c hc ↦ hds c (List.mem_cons_of_mem d hc)) hlt
    rw [readSignificand, if_pos (hds d List.mem_cons_self)]
    simp only [hnext, if_true, hrest]
    rfl

private theorem readUnsigned?_natText (negative : Bool) {n : Nat} (hn : n < wordLimit) :
    readUnsigned? negative (Decimal.natText n).toList = some (whole negative n, []) := by
  have hdigits : ∀ c ∈ (Decimal.natText n).toList, c.isDigit = true :=
    fun _ ↦ Decimal.isDigit_of_mem_natText
  have hvalue : Nat.ofDigitChars 10 (Decimal.natText n).toList 0 = n := by
    rw [Decimal.toList_natText, Nat.ofDigitChars_ten_toDigits]
  have hread := readSignificand_of_lt hdigits (hvalue.symm ▸ hn)
  rw [hvalue] at hread
  cases hcs : (Decimal.natText n).toList with
  | nil => exact absurd hcs (Decimal.toList_natText_ne_nil n)
  | cons c cs =>
    have hzero : ¬(c = '0' ∧ cs.head?.any Char.isDigit = true) := by
      rintro ⟨rfl, hmore⟩
      rw [Decimal.natText_eq_zero_cons hcs] at hmore
      cases hmore
    rw [hcs] at hdigits hread
    rw [readUnsigned?, if_neg (not_not_intro (hdigits c List.mem_cons_self)), if_neg hzero, hread]
    rfl

theorem startsNumber_natText (n : Nat) : StartsNumber (Decimal.natText n).toList := by
  obtain ⟨c, r, hc, hdigit⟩ := (isDecimal_natText n).exists_cons
  exact ⟨c, r, hc, Or.inr hdigit⟩

private theorem toList_toString_negSucc (m : Nat) :
    (toString (Int.negSucc m)).toList = '-' :: (Decimal.natText (m + 1)).toList :=
  String.toList_append ..

theorem startsNumber_toString (n : Int) : StartsNumber (toString n).toList := by
  cases n with
  | ofNat m => exact startsNumber_natText m
  | negSucc m => exact ⟨'-', _, toList_toString_negSucc m, Or.inl rfl⟩

private theorem readNumber?_toString {n : Int} (hlow : -(pow2 63 : Int) ≤ n) (hhigh : n < pow2 64) :
    readNumber? (toString n).toList = some (.int n, []) := by
  cases n with
  | ofNat m =>
    change readNumber? (Decimal.natText m).toList = some (.int m, [])
    have hread : readUnsigned? false (Decimal.natText m).toList = some (.int m, []) :=
      readUnsigned?_natText false (Int.ofNat_lt.mp hhigh)
    obtain ⟨c, r, hc, hdigit⟩ := (isDecimal_natText m).exists_cons
    rw [readNumber?]
    · exact hread
    · intro r' heq
      rw [hc] at heq
      rw [(List.cons.inj heq).1] at hdigit
      exact absurd hdigit (by decide)
  | negSucc m =>
    have hm : m + 1 ≤ pow2 63 := by omega
    have hlimit : m + 1 < wordLimit := Nat.lt_of_le_of_lt hm (by decide)
    rw [toList_toString_negSucc, readNumber?, readUnsigned?_natText true hlimit, whole, if_neg,
      if_neg]
    · rfl
    · omega
    · simp

/-- A whole number that fits 64 bits reads back, whatever follows it. -/
theorem readValue?_toString {n : Int} (hlow : -(pow2 63 : Int) ≤ n) (hhigh : n < pow2 64)
    {rest : List Char} (hrest : Follows rest) (fuel depth : Nat) :
    readValue? (fuel + 1) depth ((toString n).toList ++ rest) = some (.int n, rest) := by
  rw [readValue?_of_startsNumber ((startsNumber_toString n).append rest), readNumber?_append hrest,
    readNumber?_toString hlow hhigh]
  rfl

end PipingAssembly.Json
