import Mathlib.Data.String.Basic
import PipingAssembly.Proofs.Files.Places
import PipingAssembly.Proofs.Lists
import PipingAssembly.Text.Search

/-!
# Lines in their places

A line stands in a text behind those before it and their ends, and in front of its own end. An end
is a line feed, maybe with a carriage return in front of it. So the bytes of the lines before a line
and one for each of their ends fall short of the place of the line by one for each end of two
characters.
-/

namespace PipingAssembly

namespace Text

/-- The characters in front of a line, whose number counts the line feeds among them. -/
def lineFront : Nat → List Char → List Char
  | 0, _ => []
  | _ + 1, [] => []
  | n + 1, c :: cs => c :: lineFront (if c = '\n' then n else n + 1) cs

/-- How many line feeds follow a carriage return. -/
def crlfCount : List Char → Nat
  | c :: d :: cs => (if c = '\r' ∧ d = '\n' then 1 else 0) + crlfCount (d :: cs)
  | _ => 0

/-- A line without the carriage return at its end. -/
def dropReturn (l : List Char) : List Char := if l.getLast? = some '\r' then l.dropLast else l

variable {l rest cs : List Char}

/-! ### Line by line -/

/-- A text is empty, or a line without an end, or a line with its end in front of a text. -/
theorem line_induction {P : List Char → Prop} (nil : P [])
    (last : ∀ l, l ≠ [] → '\n' ∉ l → P l)
    (line : ∀ l rest, '\n' ∉ l → P rest → P (l ++ '\n' :: rest)) (cs : List Char) : P cs := by
  by_cases hmem : '\n' ∈ cs
  · obtain ⟨l, rest, hsplit, hl⟩ := List.eq_append_cons_of_mem hmem
    have hshorter : rest.length < cs.length := by simp [hsplit]; omega
    exact hsplit ▸ line l rest hl (line_induction nil last line rest)
  · by_cases hcs : cs = []
    · exact hcs ▸ nil
    · exact last cs hcs hmem
termination_by cs.length

/-- The parts of a text between line feeds, and nothing behind the last one. -/
private def lineParts (cs : List Char) : List (List Char) :=
  let parts := splitWhere (· == '\n') cs
  if parts.getLast? = some [] then parts.dropLast else parts

private theorem lines_eq (s : String) : lines s = (lineParts s.toList).mapIdx fun i part ↦
    String.ofList
      (if part.getLast? = some '\r' ∧
          (i < (lineParts s.toList).length - 1 ∨ s.toList.getLast? = some '\n')
        then part.dropLast else part) := rfl

private theorem ne_lineFeed (h : '\n' ∉ l) : ∀ c ∈ l, (c == '\n') = false := by
  intro c hc
  rw [beq_eq_false_iff_ne]
  rintro rfl
  exact h hc

private theorem lineParts_last (hl : l ≠ []) (h : '\n' ∉ l) : lineParts l = [l] := by
  rw [lineParts, splitWhere_of_forall (ne_lineFeed h)]
  exact if_neg fun hlast ↦ hl (Option.some.inj hlast)

private theorem lineParts_line (h : '\n' ∉ l) :
    lineParts (l ++ '\n' :: rest) = l :: lineParts rest := by
  rw [lineParts, splitWhere_append_cons (ne_lineFeed h) rfl, lineParts]
  obtain ⟨part, parts, hparts⟩ :=
    List.exists_cons_of_ne_nil (splitWhere_ne_nil (p := (· == '\n')) rest)
  rw [hparts]
  simp only [List.getLast?_cons_cons, List.dropLast_cons_cons]
  split <;> rfl

private theorem lineParts_eq_nil_iff : lineParts cs = [] ↔ cs = [] := by
  cases cs using line_induction with
  | nil => exact iff_of_true rfl rfl
  | last l hl h => simp [lineParts_last hl h, hl]
  | line l rest h _ => simp [lineParts_line h]

/-- A line without an end keeps a carriage return. -/
theorem lines_last (hl : l ≠ []) (h : '\n' ∉ l) : lines (String.ofList l) = [String.ofList l] := by
  have hopen : l.getLast? ≠ some '\n' := fun hlast ↦ h (List.mem_of_getLast? hlast)
  simp [lines_eq, lineParts_last hl h, hopen]

/-- A line with an end is dropped its carriage return. -/
theorem lines_line (h : '\n' ∉ l) : lines (String.ofList (l ++ '\n' :: rest)) =
    String.ofList (dropReturn l) :: lines (String.ofList rest) := by
  simp only [lines_eq, String.toList_ofList, lineParts_line h, List.mapIdx_cons, List.length_cons,
    Nat.add_sub_cancel]
  by_cases hrest : rest = []
  · subst hrest
    simp [lineParts, splitWhere, dropReturn]
  · have hlast : (l ++ '\n' :: rest).getLast? = rest.getLast? := by
      rw [List.getLast?_append, List.getLast?_cons_of_ne_nil hrest,
        List.getLast?_eq_some_getLast hrest, Option.some_or]
    have hlength : 0 < (lineParts rest).length :=
      List.length_pos_iff.mpr (mt lineParts_eq_nil_iff.mp hrest)
    have hindex : ∀ i, i + 1 < (lineParts rest).length ↔ i < (lineParts rest).length - 1 := by omega
    simp only [hlast, hlength, hindex, true_or, and_true]
    rfl

/-! ### Places of lines -/

@[simp] theorem lineFront_zero (cs : List Char) : lineFront 0 cs = [] := by
  cases cs <;> rfl

theorem prefix_lineFront (n : Nat) (cs : List Char) : lineFront n cs <+: cs := by
  induction cs generalizing n with
  | nil => cases n <;> exact List.nil_prefix
  | cons c cs ih =>
    cases n with
    | zero => exact List.nil_prefix
    | succ n => exact List.cons_prefix_cons.mpr ⟨rfl, ih _⟩

private theorem lineFront_line (h : '\n' ∉ l) (n : Nat) :
    lineFront (n + 1) (l ++ '\n' :: rest) = l ++ '\n' :: lineFront n rest := by
  induction l with
  | nil => simp [lineFront]
  | cons c l ih =>
    obtain ⟨hc, hl⟩ := not_or.mp (mt List.mem_cons.mpr h)
    rw [List.cons_append, lineFront, if_neg (Ne.symm hc), ih hl]
    rfl

private theorem lineFront_last (h : '\n' ∉ l) (n : Nat) : lineFront (n + 1) l = l := by
  induction l with
  | nil => rfl
  | cons c l ih =>
    obtain ⟨hc, hl⟩ := not_or.mp (mt List.mem_cons.mpr h)
    rw [lineFront, if_neg (Ne.symm hc), ih hl]

private theorem crlfCount_line (h : '\n' ∉ l) : crlfCount (l ++ '\n' :: rest) =
    (if l.getLast? = some '\r' then 1 else 0) + crlfCount rest := by
  have hfeed : crlfCount ('\n' :: rest) = crlfCount rest := by
    cases rest <;> simp [crlfCount]
  induction l with
  | nil => simpa using hfeed
  | cons c l ih =>
    obtain ⟨-, hl⟩ := not_or.mp (mt List.mem_cons.mpr h)
    cases l with
    | nil => simp [crlfCount, hfeed]
    | cons d l =>
      have hd : d ≠ '\n' := fun heq ↦ hl (heq ▸ List.mem_cons_self)
      rw [List.getLast?_cons_cons, ← ih hl]
      simp [crlfCount, hd]

private theorem dropReturn_append (l : List Char) :
    dropReturn l ++ (if l.getLast? = some '\r' then ['\r'] else []) = l := by
  rw [dropReturn]
  split
  · next hlast => exact List.dropLast_append_getLast? _ hlast
  · exact List.append_nil l

private theorem utf8Len_dropReturn (l : List Char) :
    String.utf8Len (dropReturn l) + (if l.getLast? = some '\r' then 1 else 0) =
      String.utf8Len l := by
  conv_rhs => rw [← dropReturn_append l]
  rw [String.utf8Len_append]
  split <;> rfl

private theorem exists_eq_ofList (s : String) : ∃ cs, s = String.ofList cs :=
  ⟨s.toList, String.ofList_toList.symm⟩

section Line

variable {s : String} {i j : Nat} {line : String} (hline : (lines s)[i]? = some line)
include hline

/-- A line and what is in front of it are in front of the lines behind it. -/
theorem prefix_lineFront_append_of_lt (hij : i < j) :
    lineFront i s.toList ++ line.toList <+: lineFront j s.toList := by
  obtain ⟨cs, rfl⟩ := exists_eq_ofList s
  rw [String.toList_ofList]
  obtain ⟨j, rfl⟩ := Nat.exists_eq_add_one_of_ne_zero (Nat.ne_zero_of_lt hij)
  induction cs using line_induction generalizing i j with
  | nil => cases hline
  | last l hl h =>
    rw [lines_last hl h, List.getElem?_singleton] at hline
    obtain ⟨rfl, hline⟩ := Option.ite_none_right_eq_some.mp hline
    rw [← Option.some.inj hline, String.toList_ofList, lineFront_last h, lineFront_zero]
    exact List.prefix_rfl
  | line l rest h ih =>
    rw [lines_line h] at hline
    rw [lineFront_line h]
    cases i with
    | zero =>
      rw [← Option.some.inj hline, String.toList_ofList, lineFront_zero, List.nil_append]
      conv_rhs => rw [← dropReturn_append l, List.append_assoc]
      exact List.prefix_append _ _
    | succ i =>
      obtain ⟨j, rfl⟩ :=
        Nat.exists_eq_add_one_of_ne_zero (Nat.ne_zero_of_lt (Nat.lt_of_succ_lt_succ hij))
      rw [lineFront_line h, List.append_assoc, List.prefix_append_right_inj, List.cons_append,
        List.cons_prefix_cons]
      exact ⟨rfl, ih hline j (Nat.lt_of_succ_lt_succ hij)⟩

theorem prefix_lineFront_append : lineFront i s.toList ++ line.toList <+: s.toList :=
  (prefix_lineFront_append_of_lt hline (Nat.lt_succ_self i)).trans (prefix_lineFront _ _)

/-- The bytes of the lines in front of a line and one for each of their ends are as many as there
are in front of it, less one for each end of two characters. -/
theorem total_lines_add_crlfCount :
    total (((lines s).take i).map (·.utf8ByteSize + 1)) + crlfCount (lineFront i s.toList) =
      String.utf8Len (lineFront i s.toList) := by
  obtain ⟨cs, rfl⟩ := exists_eq_ofList s
  rw [String.toList_ofList]
  induction cs using line_induction generalizing i with
  | nil => cases hline
  | last l hl h =>
    rw [lines_last hl h, List.getElem?_singleton] at hline
    obtain ⟨rfl, -⟩ := Option.ite_none_right_eq_some.mp hline
    rw [lineFront_zero]
    rfl
  | line l rest h ih =>
    rw [lines_line h] at hline ⊢
    cases i with
    | zero =>
      rw [lineFront_zero]
      rfl
    | succ i =>
      have hrest := ih hline
      have hreturn := utf8Len_dropReturn l
      have hfeed : '\n'.utf8Size = 1 := rfl
      rw [lineFront_line h, crlfCount_line h, List.take_succ_cons, List.map_cons, total_cons,
        String.utf8ByteSize_ofList, String.utf8Len_append, String.utf8Len_cons]
      omega

end Line

end Text

end PipingAssembly
