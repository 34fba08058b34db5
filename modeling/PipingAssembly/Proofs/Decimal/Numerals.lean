import PipingAssembly.Decimal.Fixed
import PipingAssembly.Decimal.Literal

/-!
# Numerals

The numeral of a number holds digits only and reads back as the number, also behind leading zeros.
So different numbers have different numerals.
-/

namespace PipingAssembly.Decimal

theorem toList_natText (n : Nat) : (natText n).toList = Nat.toDigits 10 n :=
  String.toList_ofList

theorem isDigit_of_mem_natText {n : Nat} {c : Char} (h : c ∈ (natText n).toList) :
    c.isDigit = true := by
  rw [toList_natText] at h
  exact Nat.isDigit_of_mem_toDigits (by decide) (by decide) h

theorem toList_natText_ne_nil (n : Nat) : (natText n).toList ≠ [] := by
  rw [toList_natText]
  exact Nat.toDigits_ne_nil

/-- Only the numeral of zero begins with a zero. -/
theorem toDigits_ne_zero_cons {n : Nat} (hn : n ≠ 0) (cs : List Char) :
    Nat.toDigits 10 n ≠ '0' :: cs := by
  induction n using Nat.strongRecOn generalizing cs with
  | _ n ih =>
    rw [Nat.toDigits_eq_if (by decide)]
    split
    case isTrue hlt =>
      have hdigit : ∀ d < 10, d ≠ 0 → Nat.digitChar d ≠ '0' := by decide
      exact fun heq ↦ hdigit n hlt hn (List.cons.inj heq).1
    case isFalse hge =>
      intro heq
      have hquotient : n / 10 ≠ 0 := by omega
      cases hhead : Nat.toDigits 10 (n / 10) with
      | nil => exact Nat.toDigits_ne_nil hhead
      | cons c ds =>
        rw [hhead, List.cons_append] at heq
        rw [(List.cons.inj heq).1] at hhead
        exact ih (n / 10) (by omega) hquotient ds hhead

/-- A numeral of several digits does not begin with a zero. -/
theorem natText_eq_zero_cons {n : Nat} {cs : List Char} (h : (natText n).toList = '0' :: cs) :
    cs = [] := by
  rw [toList_natText] at h
  by_cases hn : n = 0
  · subst hn
    exact (List.cons.inj h).2.symm
  · exact absurd h (toDigits_ne_zero_cons hn cs)

theorem toList_padStart_natText (width n : Nat) :
    (padStart width '0' (natText n)).toList = (Nat.toDigits 10 n).leftpad width '0' := by
  rw [padStart, String.toList_append, String.toList_ofList, ← String.length_toList, toList_natText,
    List.leftpad]

/-- Reading a numeral behind leading zeros gives the number. -/
theorem ofDigitChars_padStart (width n : Nat) :
    Nat.ofDigitChars 10 (padStart width '0' (natText n)).toList 0 = n := by
  rw [padStart, String.toList_append, String.toList_ofList, toList_natText,
    Nat.ofDigitChars_append, Nat.ofDigitChars_replicate_zero, Nat.mul_zero,
    Nat.ofDigitChars_ten_toDigits]

theorem padStart_natText_inj {width m n : Nat} :
    padStart width '0' (natText m) = padStart width '0' (natText n) ↔ m = n := by
  constructor
  · intro h
    rw [← ofDigitChars_padStart width m, h, ofDigitChars_padStart]
  · rintro rfl
    rfl

/-- Digits are read as they are, since none of them is a sign. -/
theorem readNat?_of_isDigit {ds : List Char} (hne : ds ≠ []) (h : ∀ d ∈ ds, d.isDigit = true) :
    readNat? ds = some (digitsValue ds) := by
  have hread : ∀ cs, cs = ds →
      (if cs ≠ [] ∧ cs.all Char.isDigit = true then some (digitsValue cs) else none) =
        some (digitsValue ds) := by
    rintro _ rfl
    exact if_pos ⟨hne, List.all_eq_true.mpr h⟩
  refine hread _ ?_
  split
  · exact absurd (h '+' List.mem_cons_self) (by decide)
  · rfl

/-- Reading the numeral of a number gives the number. -/
theorem readNat?_natText (n : Nat) : readNat? (natText n).toList = some n := by
  rw [readNat?_of_isDigit (toList_natText_ne_nil n) fun c hc ↦ isDigit_of_mem_natText hc,
    toList_natText]
  exact congrArg some Nat.ofDigitChars_ten_toDigits

theorem natText_inj {m n : Nat} : natText m = natText n ↔ m = n := by
  constructor
  · intro h
    have hdigits := congrArg String.toList h
    rw [toList_natText, toList_natText] at hdigits
    rw [← Nat.ofDigitChars_ten_toDigits (n := m), hdigits, Nat.ofDigitChars_ten_toDigits]
  · rintro rfl
    rfl

end PipingAssembly.Decimal
