import Mathlib.Data.List.Basic
import PipingAssembly.Table.Basic

/-!
# Tables read back from comma separated values

A reader of comma separated values ends a record at a line feed, at a carriage return or at both,
unless they stand between quotes. A cell with a comma, a quote or a line feed stands between quotes
and is read back as it is. A cell with a carriage return and none of these does not, and is cut at
the carriage return. So a table is read back exactly if it has no such cell.
-/

namespace PipingAssembly.Table

/-! ### A reader -/

/-- How far a record has been read. -/
inductive ReadState where
  /-- nothing of it has been read -/
  | record
  /-- it has been read up to a comma -/
  | field
  | bare
  | quoted
  /-- behind a quote that closes the field unless another one follows -/
  | closing
  /-- behind a carriage return that ends the record before it -/
  | returned
  deriving DecidableEq, Repr

/-- The records from a point within a record on, of which one field has been read in part and some
in full. A field stands between quotes as a whole or has none, and no quotes are left open. -/
def readFrom : ReadState → List Char → List String → List Char → Option (List (List String))
  | .record, _, _, [] | .returned, _, _, [] => some []
  | .quoted, _, _, [] => none
  | _, field, fields, [] => some [fields ++ [String.ofList field]]
  | state, field, fields, c :: cs =>
    if state = .quoted then
      if c = '"' then readFrom .closing field fields cs
      else readFrom .quoted (field ++ [c]) fields cs
    else if c = ',' then readFrom .field [] (fields ++ [String.ofList field]) cs
    else if c = '\r' then
      (readFrom .returned [] [] cs).map ((fields ++ [String.ofList field]) :: ·)
    else if c = '\n' then
      if state = .returned then readFrom .record [] [] cs
      else (readFrom .record [] [] cs).map ((fields ++ [String.ofList field]) :: ·)
    else if c = '"' then
      match state with
      | .bare => none
      | .closing => readFrom .quoted (field ++ [c]) fields cs
      | _ => readFrom .quoted [] fields cs
    else if state = .closing then none
    else readFrom .bare (field ++ [c]) fields cs

/-- The records of a text of comma separated values, if it is one. -/
def readCsv? (s : String) : Option (List (List String)) := readFrom .record [] [] s.toList

namespace ReadState

/-- Whether a field may begin here. -/
def isStart : ReadState → Bool
  | record | field => true
  | _ => false

/-- Whether a field may end here. -/
def isOpen : ReadState → Bool
  | record | field | bare | closing => true
  | _ => false

theorem isOpen_of_isStart {state : ReadState} (h : state.isStart = true) :
    state.isOpen = true ∧ state ≠ closing := by
  cases state <;> simp_all [isStart, isOpen]

end ReadState

section Steps

variable {state : ReadState} {field : List Char} {fields : List String} {cs : List Char}

theorem readFrom_comma (h : state.isOpen = true) :
    readFrom state field fields (',' :: cs) =
      readFrom .field [] (fields ++ [String.ofList field]) cs := by
  cases state <;> simp_all [readFrom, ReadState.isOpen]

theorem readFrom_lineFeed (h : state.isOpen = true) :
    readFrom state field fields ('\n' :: cs) =
      (readFrom .record [] [] cs).map ((fields ++ [String.ofList field]) :: ·) := by
  cases state <;> simp_all [readFrom, ReadState.isOpen]

theorem readFrom_return (h : state.isOpen = true) :
    readFrom state field fields ('\r' :: cs) =
      (readFrom .returned [] [] cs).map ((fields ++ [String.ofList field]) :: ·) := by
  cases state <;> simp_all [readFrom, ReadState.isOpen]

end Steps

/-! ### One cell -/

/-- Whether a cell stands between quotes. -/
def isQuoted (cell : String) : Bool := cell.toList.any fun c ↦ c == ',' || c == '"' || c == '\n'

/-- Whether all carriage returns of a cell are between quotes. -/
def KeepsReturns (cell : String) : Prop := '\r' ∈ cell.toList → isQuoted cell = true

/-- Whether a character may be part of a field without quotes. -/
def isBare (c : Char) : Bool := c != ',' && c != '"' && c != '\n' && c != '\r'

theorem isBare_of_not_isQuoted {cell : String} (h : ¬isQuoted cell = true) {c : Char}
    (hc : c ∈ cell.toList) (hreturn : c ≠ '\r') : isBare c = true := by
  have hothers := List.any_eq_false.mp (Bool.eq_false_iff.mpr h) c hc
  simp_all [isBare]

section Cell

variable {state : ReadState} (field : List Char) (fields : List String) {u : List Char}
  (cs : List Char)

private theorem toList_escapeCsv (cell : String) : (escapeCsv cell).toList =
    if isQuoted cell then
      '"' :: ((cell.toList.flatMap fun c ↦ if c == '"' then ['"', '"'] else [c]) ++ ['"'])
    else cell.toList := by
  rw [escapeCsv, isQuoted]
  split
  · simp
  · rfl

/-- Characters between quotes belong to the field, and a quote that is written twice once. -/
theorem readFrom_doubled :
    readFrom .quoted field fields
        ((u.flatMap fun c ↦ if c == '"' then ['"', '"'] else [c]) ++ '"' :: cs) =
      readFrom .closing (field ++ u) fields cs := by
  induction u generalizing field with
  | nil => simp [readFrom]
  | cons c u ih =>
    rw [List.flatMap_cons, List.append_assoc, List.append_cons field c u, ← ih]
    by_cases hquote : c = '"'
    · subst hquote
      simp [readFrom]
    · simp [readFrom, hquote]

/-- Characters without a meaning of their own belong to the field. -/
theorem exists_readFrom_bare (hstate : state.isOpen = true) (hclosing : state ≠ .closing)
    (hu : ∀ c ∈ u, isBare c = true) :
    ∃ next : ReadState, next.isOpen = true ∧
      readFrom state field fields (u ++ cs) = readFrom next (field ++ u) fields cs := by
  induction u generalizing state field with
  | nil => exact ⟨state, hstate, by rw [List.append_nil, List.nil_append]⟩
  | cons c u ih =>
    obtain ⟨hc, hrest⟩ := List.forall_mem_cons.mp hu
    have hread : readFrom state field fields (c :: (u ++ cs)) =
        readFrom .bare (field ++ [c]) fields (u ++ cs) := by
      simp only [isBare, Bool.and_eq_true, bne_iff_ne] at hc
      cases state <;> simp_all [readFrom, ReadState.isOpen]
    obtain ⟨next, hnext, hall⟩ := ih (field ++ [c]) (show ReadState.bare.isOpen = true from rfl)
      (by decide) hrest
    exact ⟨next, hnext, by rw [List.cons_append, hread, hall, ← List.append_cons]⟩

/-- A cell whose carriage returns are between quotes is read as one field. -/
theorem exists_readFrom_escapeCsv (hstate : state.isStart = true) {cell : String}
    (hcell : KeepsReturns cell) :
    ∃ next : ReadState, next.isOpen = true ∧
      readFrom state [] fields ((escapeCsv cell).toList ++ cs) =
        readFrom next cell.toList fields cs := by
  by_cases hquoted : isQuoted cell = true
  · have htext : (escapeCsv cell).toList ++ cs = '"' ::
        ((cell.toList.flatMap fun c ↦ if c == '"' then ['"', '"'] else [c]) ++ '"' :: cs) := by
      rw [toList_escapeCsv, if_pos hquoted]
      simp
    have hopen : ∀ cs, readFrom state [] fields ('"' :: cs) = readFrom .quoted [] fields cs := by
      cases state <;> simp_all [readFrom, ReadState.isStart]
    exact ⟨.closing, rfl, by rw [htext, hopen, readFrom_doubled, List.nil_append]⟩
  · have hbare : ∀ c ∈ cell.toList, isBare c = true := fun c hc ↦
      isBare_of_not_isQuoted hquoted hc fun heq ↦ hquoted (hcell (heq ▸ hc))
    obtain ⟨hopen, hclosing⟩ := ReadState.isOpen_of_isStart hstate
    rw [toList_escapeCsv, if_neg hquoted]
    simpa using exists_readFrom_bare [] fields cs hopen hclosing hbare

/-- Any other cell is cut at its first carriage return. -/
theorem exists_readFrom_cut (hstate : state.isStart = true) {cell : String}
    (hcell : ¬KeepsReturns cell) :
    ∃ front back : List Char, cell.toList = front ++ '\r' :: back ∧
      readFrom state [] fields ((escapeCsv cell).toList ++ cs) =
        (readFrom .returned [] [] (back ++ cs)).map ((fields ++ [String.ofList front]) :: ·) := by
  obtain ⟨hreturn, hquoted⟩ := Classical.not_imp.mp hcell
  obtain ⟨front, back, hsplit, hfront⟩ := List.eq_append_cons_of_mem hreturn
  have hbare : ∀ c ∈ front, isBare c = true := fun c hc ↦
    isBare_of_not_isQuoted hquoted (hsplit ▸ List.mem_append_left _ hc) fun heq ↦
      hfront (heq ▸ hc)
  obtain ⟨hopen, hclosing⟩ := ReadState.isOpen_of_isStart hstate
  obtain ⟨next, hnext, hread⟩ :=
    exists_readFrom_bare [] fields ('\r' :: (back ++ cs)) hopen hclosing hbare
  refine ⟨front, back, hsplit, ?_⟩
  rw [toList_escapeCsv, if_neg hquoted, hsplit, List.append_assoc, List.cons_append, hread,
    readFrom_return hnext, List.nil_append]

end Cell

/-! ### Rows and tables -/

/-- The text of a row in front of its line feed. -/
private def rowChars (row : List String) : List Char :=
  (",".intercalate (row.map escapeCsv)).toList

private theorem rowChars_singleton (cell : String) : rowChars [cell] = (escapeCsv cell).toList := by
  rw [rowChars, List.map_singleton, String.intercalate_singleton]

private theorem rowChars_cons_cons (cell next : String) (row : List String) :
    rowChars (cell :: next :: row) = (escapeCsv cell).toList ++ ',' :: rowChars (next :: row) := by
  rw [rowChars, rowChars, List.map_cons, List.map_cons, String.intercalate_cons_cons]
  simp

/-- A row is read back, in front of the records that follow it, exactly if the carriage returns of
all its cells are between quotes. The induction is on the cells; a cell that is cut ends the record
with another field than itself. -/
theorem readFrom_row_iff {state : ReadState} (hstate : state.isStart = true) {row : List String}
    (hrow : row ≠ []) (fields : List String) {cs : List Char} {records : List (List String)} :
    readFrom state [] fields (rowChars row ++ '\n' :: cs) = some ((fields ++ row) :: records) ↔
      (∀ cell ∈ row, KeepsReturns cell) ∧ readFrom .record [] [] cs = some records := by
  induction row generalizing state fields with
  | nil => exact absurd rfl hrow
  | cons cell row ih =>
    have hcut : ¬KeepsReturns cell → ∀ more,
        readFrom state [] fields ((escapeCsv cell).toList ++ more) ≠
          some ((fields ++ cell :: row) :: records) := by
      intro hcell more hread
      obtain ⟨front, back, hsplit, hends⟩ := exists_readFrom_cut fields more hstate hcell
      rw [hends, Option.map_eq_some_iff] at hread
      obtain ⟨_, -, hread⟩ := hread
      have hfields := List.append_cancel_left (List.cons.inj hread).1
      have hfront : String.ofList front = cell := (List.cons.inj hfields).1
      rw [← hfront, String.toList_ofList] at hsplit
      simpa using congrArg List.length hsplit
    by_cases hcell : KeepsReturns cell
    · cases row with
      | nil =>
        obtain ⟨next, hnext, hread⟩ := exists_readFrom_escapeCsv fields ('\n' :: cs) hstate hcell
        rw [rowChars_singleton, hread, readFrom_lineFeed hnext, String.ofList_toList]
        simp [hcell]
      | cons second row =>
        obtain ⟨next, hnext, hread⟩ := exists_readFrom_escapeCsv fields
          (',' :: (rowChars (second :: row) ++ '\n' :: cs)) hstate hcell
        rw [rowChars_cons_cons, List.append_assoc, List.cons_append, hread, readFrom_comma hnext,
          String.ofList_toList, List.append_cons fields cell (second :: row),
          ih (show ReadState.field.isStart = true from rfl) (List.cons_ne_nil _ _),
          List.forall_mem_cons (a := cell), and_iff_right hcell]
    · refine iff_of_false ?_ fun h ↦ hcell (h.1 cell List.mem_cons_self)
      cases row with
      | nil =>
        rw [rowChars_singleton]
        exact hcut hcell _
      | cons second row =>
        rw [rowChars_cons_cons, List.append_assoc]
        exact hcut hcell _

/-- Rows are read back exactly if all carriage returns of their cells are between quotes. -/
theorem readFrom_rows_iff {rows : List (List String)} (hrows : ∀ row ∈ rows, row ≠ []) :
    readFrom .record [] [] (rows.flatMap fun row ↦ rowChars row ++ ['\n']) = some rows ↔
      ∀ row ∈ rows, ∀ cell ∈ row, KeepsReturns cell := by
  induction rows with
  | nil => exact iff_of_true rfl nofun
  | cons row rows ih =>
    obtain ⟨hrow, hrest⟩ := List.forall_mem_cons.mp hrows
    rw [List.flatMap_cons, List.append_assoc, List.singleton_append, List.forall_mem_cons,
      ← ih hrest]
    exact readFrom_row_iff rfl hrow []

private theorem toList_delimited (t : Table) : (t.render .csv).toList =
    (t.headers :: t.rows).flatMap fun row ↦ rowChars row ++ ['\n'] := by
  rw [render, delimited, String.toList_join, List.flatMap_map]
  simp [rowChars]

/-- The header and the rows of a table, which have a cell for each column, are read back from its
comma separated values exactly if every cell with a carriage return has a comma, a quote or a line
feed as well. -/
theorem readCsv?_render_iff {t : Table} (hcolumns : t.headers ≠ [])
    (hrows : ∀ row ∈ t.rows, row.length = t.headers.length) :
    readCsv? (t.render .csv) = some (t.headers :: t.rows) ↔
      ∀ row ∈ t.headers :: t.rows, ∀ cell ∈ row, '\r' ∈ cell.toList →
        ',' ∈ cell.toList ∨ '"' ∈ cell.toList ∨ '\n' ∈ cell.toList := by
  have hne : ∀ row ∈ t.headers :: t.rows, row ≠ [] := by
    refine List.forall_mem_cons.mpr ⟨hcolumns, fun row hrow ↦ ?_⟩
    rw [← List.length_pos_iff, hrows row hrow]
    exact List.length_pos_iff.mpr hcolumns
  have hquoted : ∀ cell : String, isQuoted cell = true ↔
      ',' ∈ cell.toList ∨ '"' ∈ cell.toList ∨ '\n' ∈ cell.toList := by
    intro cell
    simp only [isQuoted, List.any_eq_true, Bool.or_eq_true, beq_iff_eq]
    grind
  rw [readCsv?, toList_delimited, readFrom_rows_iff hne]
  simp only [KeepsReturns, hquoted]

/-- A table with a carriage return in two cells, of which one has a comma. -/
private def returns : Table := ⟨["ID", "NAME"], [["P-1", "a,\rb"], ["P-2", "a\rb"]]⟩

/-- Beside a comma the carriage return is read back, and alone it ends a record. -/
theorem readCsv?_render_iff_returns :
    returns.headers ≠ [] ∧ (∀ row ∈ returns.rows, row.length = returns.headers.length) ∧
      readCsv? (returns.render .csv) ≠ some (returns.headers :: returns.rows) ∧
      readCsv? (returns.render .csv) =
        some [["ID", "NAME"], ["P-1", "a,\rb"], ["P-2", "a"], ["b"]] := by
  have hcolumns : returns.headers ≠ [] := by decide
  have hrows : ∀ row ∈ returns.rows, row.length = returns.headers.length := by decide
  refine ⟨hcolumns, hrows, fun hread ↦ ?_, by decide +kernel⟩
  have hcells := (readCsv?_render_iff hcolumns hrows).mp hread
  exact absurd (hcells ["P-2", "a\rb"] (by decide) "a\rb" (by decide)) (by decide +kernel)

end PipingAssembly.Table
