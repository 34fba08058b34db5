import Mathlib.Data.List.TakeWhile
import PipingAssembly.Yaml.Document
import PipingAssembly.Yaml.Writer

/-!
# Moving through the characters of a line

Readers move a cursor over characters. Where they go on over all characters of a list, the cursor
stands after the list.
-/

namespace PipingAssembly.Yaml

/-- A character that passes a test is none that does not. -/
theorem ne_of_test {p : Char → Bool} {d e : Char} (h : p d = true) (he : p e = false) : d ≠ e := by
  rintro rfl
  exact Bool.noConfusion (h.symm.trans he)

/-! ### Cursors -/

namespace Cursor

/-- The place after some characters of a line, where `rest` is left. -/
def after (c : Cursor) (cs rest : List Char) : Cursor :=
  ⟨rest, c.index + cs.length, c.line, c.column + cs.length⟩

variable {c : Cursor} {d : Char} {cs rest : List Char} {p : Char → Bool}

@[simp] theorem after_rest (c : Cursor) (cs rest : List Char) : (c.after cs rest).rest = rest := rfl

@[simp] theorem after_index (c : Cursor) (cs rest : List Char) :
    (c.after cs rest).index = c.index + cs.length := rfl

@[simp] theorem after_line (c : Cursor) (cs rest : List Char) :
    (c.after cs rest).line = c.line := rfl

@[simp] theorem after_column (c : Cursor) (cs rest : List Char) :
    (c.after cs rest).column = c.column + cs.length := rfl

theorem after_nil (h : c.rest = rest) : c.after [] rest = c := by
  subst h
  rfl

@[simp] theorem after_after (c : Cursor) (cs ds rest rest' : List Char) :
    (c.after cs rest').after ds rest = c.after (cs ++ ds) rest := by
  simp only [after, List.length_append, Nat.add_assoc]

theorem skip_eq_after (h : c.rest = d :: rest) : c.skip = c.after [d] rest := by
  rw [skip, h]
  rfl

theorem skips_eq_after (h : c.rest = cs ++ rest) : c.skips cs.length = c.after cs rest := by
  induction cs generalizing c with
  | nil => exact (after_nil h).symm
  | cons d cs ih =>
    rw [List.length_cons, skips, skip_eq_after h, ih rfl, after_after]
    rfl

theorem peek?_cons (h : c.rest = d :: rest) : c.peek? = some d := by
  rw [peek?, h]
  rfl

/-- A cursor goes over the characters that satisfy a test up to one that does not. -/
theorem span_eq_after (h : c.rest = cs ++ rest) (hcs : ∀ d ∈ cs, p d = true)
    (hrest : ∀ d ∈ rest.head?, p d = false) : c.span p = (cs, c.after cs rest) := by
  have hstop : rest.takeWhile p = [] ∧ rest.dropWhile p = rest := by
    cases rest with
    | nil => exact ⟨rfl, rfl⟩
    | cons d rest =>
      have hd := Bool.eq_false_iff.mp (hrest d rfl)
      exact ⟨List.takeWhile_cons_of_neg hd, List.dropWhile_cons_of_neg hd⟩
  rw [span, h, List.takeWhile_append_of_pos hcs, List.dropWhile_append_of_pos hcs, hstop.1,
    hstop.2, List.append_nil]
  rfl

theorem skipWhile_eq_after (h : c.rest = cs ++ rest) (hcs : ∀ d ∈ cs, p d = true)
    (hrest : ∀ d ∈ rest.head?, p d = false) : c.skipWhile p = c.after cs rest := by
  rw [skipWhile, span_eq_after h hcs hrest]

/-- Behind the beginning of a line there is no marker of documents. -/
theorem atDocumentMarker_eq_false (h : 0 < c.column) : c.atDocumentMarker = false := by
  have hcolumn : (c.column == 0) = false := beq_false_of_ne (by omega)
  rw [atDocumentMarker, atMarker, atMarker, hcolumn]
  rfl

end Cursor

/-! ### Characters of texts -/

/-- Whether a character stands as it is in a text of one line. -/
def isOrdinary (d : Char) : Bool :=
  isPrintable d && d != '\n' && d != '\u2028' && d != '\u2029'

section Ordinary

variable {d : Char} (h : isOrdinary d = true)
include h

private theorem toNat_of_isOrdinary :
    (0x20 ≤ d.toNat ∧ d.toNat ≤ 0x7E ∨ 0xA0 ≤ d.toNat ∧ d.toNat < 0xFFFE) ∧
      d.toNat ≠ 0x2028 ∧ d.toNat ≠ 0x2029 := by
  simp only [isOrdinary, isPrintable, Bool.and_eq_true, Bool.or_eq_true, beq_iff_eq, bne_iff_ne,
    decide_eq_true_eq, Char.le_def, UInt32.le_iff_toNat_le, ne_eq, ← Char.toNat_inj] at h
  obtain ⟨⟨⟨hprintable, hfeed⟩, hline⟩, hparagraph⟩ := h
  refine ⟨?_, hline, hparagraph⟩
  obtain (hnew | hlow) | hhigh := hprintable
  · exact absurd hnew hfeed
  · exact Or.inl hlow
  · exact Or.inr ⟨hhigh.1.1, hhigh.1.2⟩

private theorem ne_of_isOrdinary {b : Char} (hb : b.toNat < 0x20 ∨ b.toNat = 0x85 ∨
    b.toNat = 0x2028 ∨ b.toNat = 0x2029) : (d == b) = false := by
  have hrange := toNat_of_isOrdinary h
  rw [beq_eq_false_iff_ne]
  rintro rfl
  omega

theorem isBreak_of_isOrdinary : isBreak d = false := by
  rw [isBreak, ne_of_isOrdinary h (by decide), ne_of_isOrdinary h (by decide),
    ne_of_isOrdinary h (by decide), ne_of_isOrdinary h (by decide), ne_of_isOrdinary h (by decide)]
  rfl

theorem isSpaceOrTab_of_isOrdinary : isSpaceOrTab d = (d == ' ') := by
  rw [isSpaceOrTab, ne_of_isOrdinary h (b := '\t') (by decide), Bool.or_false]

theorem isAllowed_of_isOrdinary : isAllowed d = true := by
  have hrange := toNat_of_isOrdinary h
  simp only [isAllowed, Bool.or_eq_true, Bool.and_eq_true, beq_iff_eq, decide_eq_true_eq]
  omega

end Ordinary

end PipingAssembly.Yaml
