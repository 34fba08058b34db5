import PipingAssembly.Proofs.Text.Lines
import PipingAssembly.Schema.Validation

/-!
# Spans and the places they are meant for

Spans are told as if every line ended in one character, and the columns of faults as if every
character had one byte. So the span of a violation begins before the line of its key by one byte for
each line end of two characters in front of it, and covers the line exactly if there are none. The
place of a fault is moved to the front in the same way, and further by the bytes that the characters
of its line have beyond one each. If it then is inside a character it has no span.
-/

namespace PipingAssembly

open String (utf8Len)

/-! ### Bytes of a text -/

/-- What follows some bytes of a text is known if they are those of an initial part. -/
theorem dropBytes?_eq_some_iff {n : Nat} {cs rest : List Char} :
    dropBytes? n cs = some rest ↔ ∃ front, front ++ rest = cs ∧ utf8Len front = n := by
  fun_induction dropBytes? n cs with
  | case1 cs =>
    simp only [String.utf8Len_eq_zero, Option.some.injEq]
    exact ⟨fun h ↦ ⟨[], h.symm, rfl⟩, fun ⟨_, happend, hnil⟩ ↦ by rw [← happend, hnil]; rfl⟩
  | case2 n =>
    refine iff_of_false nofun ?_
    rintro ⟨front, happend, hlength⟩
    rw [(List.append_eq_nil_iff.mp happend).1] at hlength
    cases hlength
  | case3 n c cs hle ih =>
    rw [ih]
    constructor
    · rintro ⟨front, rfl, hlength⟩
      exact ⟨c :: front, rfl, by rw [String.utf8Len_cons, hlength, Nat.sub_add_cancel hle]⟩
    · rintro ⟨front, happend, hlength⟩
      obtain ⟨rfl, -⟩ | ⟨front, rfl, rfl⟩ := List.append_eq_cons_iff.mp happend
      · cases hlength
      · rw [String.utf8Len_cons] at hlength
        exact ⟨front, rfl, Nat.eq_sub_of_add_eq hlength⟩
  | case4 n c cs hlt =>
    refine iff_of_false nofun ?_
    rintro ⟨front, happend, hlength⟩
    obtain ⟨rfl, -⟩ | ⟨front, rfl, rfl⟩ := List.append_eq_cons_iff.mp happend
    · cases hlength
    · rw [String.utf8Len_cons] at hlength
      exact hlt (Nat.le_of_add_left_le hlength.le)

theorem length_le_utf8Len (cs : List Char) : cs.length ≤ utf8Len cs := by
  induction cs with
  | nil => exact Nat.le_refl 0
  | cons c cs ih =>
    rw [List.length_cons, String.utf8Len_cons]
    exact Nat.add_le_add ih c.utf8Size_pos

/-- An initial part with all bytes of a text is the text. -/
private theorem eq_of_prefix {front cs : List Char} (h : front <+: cs)
    (hbytes : utf8Len front = utf8Len cs) : front = cs := by
  obtain ⟨rest, rfl⟩ := h
  rw [String.utf8Len_append, Nat.left_eq_add, String.utf8Len_eq_zero] at hbytes
  rw [hbytes, List.append_nil]

/-- Whether a span is within a text is decided by where it begins. -/
theorem lineSpan_le_iff {offset : Nat} {front rest : List Char} (h : utf8Len front = offset) :
    (lineSpan offset rest).offset + (lineSpan offset rest).length ≤ utf8Len (front ++ rest) ↔
      offset < utf8Len (front ++ rest) := by
  have htaken : utf8Len (rest.takeWhile (· != '\n')) ≤ utf8Len rest :=
    String.utf8Len_le_of_prefix (List.takeWhile_prefix _)
  rw [lineSpan, String.utf8ByteSize_ofList, String.utf8Len_append]
  dsimp only
  omega

/-! ### Faults -/

/-- The bytes in front of a place are those that are told and those that are lost. -/
private theorem utf8Len_placeFront {content line : String} {place : Yaml.Place}
    (hline : (Text.lines content)[place.line]? = some line)
    (hcolumn : place.column ≤ line.length) :
    total (((Text.lines content).take place.line).map (·.utf8ByteSize + 1)) + place.column +
        (Text.crlfCount (Text.lineFront place.line content.toList) +
          (utf8Len (line.toList.take place.column) - place.column)) =
      utf8Len (Text.lineFront place.line content.toList ++ line.toList.take place.column) := by
  have hpassed := length_le_utf8Len (line.toList.take place.column)
  rw [List.length_take, String.length_toList, Nat.min_eq_left hcolumn] at hpassed
  rw [String.utf8Len_append, ← Text.total_lines_add_crlfCount hline]
  omega

/-- A place in a line of a document is told by as many bytes as there are in front of it, less one
for each line end of two characters among them, and less those that the characters in front of it in
its line have beyond one each. It has a span exactly if so many bytes are an initial part of the
document, and the span is within the document unless the place is its end and no byte is lost. -/
theorem placeSpan?_of_line {content line : String} {place : Yaml.Place}
    (hline : (Text.lines content)[place.line]? = some line)
    (hcolumn : place.column ≤ line.length) :
    let front := Text.lineFront place.line content.toList ++ line.toList.take place.column
    let lost := Text.crlfCount (Text.lineFront place.line content.toList) +
      (utf8Len (line.toList.take place.column) - place.column)
    front <+: content.toList ∧ lost ≤ utf8Len front ∧
      ((placeSpan? content place).isSome = true ↔
        ∃ told, told <+: content.toList ∧ utf8Len told + lost = utf8Len front) ∧
      ∀ span ∈ placeSpan? content place, span.offset + lost = utf8Len front ∧
        (span.offset + span.length ≤ content.utf8ByteSize ↔
          front ≠ content.toList ∨ lost ≠ 0) := by
  intro front lost
  have hfront : front <+: content.toList :=
    ((List.prefix_append_right_inj _).mpr (List.take_prefix _ _)).trans
      (Text.prefix_lineFront_append hline)
  have hbytes := utf8Len_placeFront hline hcolumn
  have hsize : utf8Len content.toList = content.utf8ByteSize := by
    rw [← String.utf8ByteSize_ofList, String.ofList_toList]
  have hwithin : utf8Len front ≤ content.utf8ByteSize := hsize ▸ String.utf8Len_le_of_prefix hfront
  have hend : front = content.toList ↔ utf8Len front = content.utf8ByteSize := by
    rw [← hsize]
    exact ⟨congrArg utf8Len, eq_of_prefix hfront⟩
  obtain ⟨offset, hoffset, hspan⟩ : ∃ offset, offset + lost = utf8Len front ∧
      placeSpan? content place = (dropBytes? offset content.toList).map (lineSpan offset) := by
    refine ⟨_, hbytes, ?_⟩
    have hlt : place.line < (Text.lines content).length := (List.getElem?_eq_some_iff.mp hline).1
    rw [placeSpan?, if_pos hlt, Nat.min_eq_left]
    exact (Nat.le_of_add_right_le hbytes.le).trans hwithin
  refine ⟨hfront, hoffset ▸ Nat.le_add_left _ _, ?_, ?_⟩
  · have htold : ∀ told, utf8Len told + lost = utf8Len front ↔ utf8Len told = offset := by
      intro told
      rw [← hoffset, Nat.add_right_cancel_iff]
    simp only [hspan, Option.isSome_map, Option.isSome_iff_exists, dropBytes?_eq_some_iff, htold]
    exact ⟨fun ⟨rest, told, happend, hlength⟩ ↦ ⟨told, ⟨rest, happend⟩, hlength⟩,
      fun ⟨told, ⟨rest, happend⟩, hlength⟩ ↦ ⟨rest, told, happend, hlength⟩⟩
  · intro span hmem
    rw [hspan, Option.mem_def, Option.map_eq_some_iff] at hmem
    obtain ⟨rest, hrest, rfl⟩ := hmem
    obtain ⟨told, happend, hlength⟩ := dropBytes?_eq_some_iff.mp hrest
    refine ⟨hoffset, ?_⟩
    rw [← hsize, ← happend, lineSpan_le_iff hlength, happend, hsize, ← not_and_or, hend]
    omega

/-- A document with a colon too many behind a character of two bytes. -/
private def wideName : String := "name: é: é\n"

/-- The place of the second colon. -/
private def wideColon : Yaml.Place := ⟨0, 7⟩

/-- The place of the colon is told inside the character, so that the fault has no span. -/
theorem placeSpan?_of_line_inside :
    (Text.lines wideName)[wideColon.line]? = some "name: é: é" ∧
      wideColon.column ≤ "name: é: é".length ∧
      Yaml.readData wideName = .error (.unreadable wideColon) ∧
      validate wideName .part = .error (.notYaml none) ∧
      ¬∃ told, told <+: wideName.toList ∧ utf8Len told + 1 = utf8Len "name: é".toList := by
  have hline : (Text.lines wideName)[wideColon.line]? = some "name: é: é" := by decide +kernel
  have hcolumn : wideColon.column ≤ "name: é: é".length := by decide
  have hfault : (Yaml.readData wideName).map (fun _ ↦ ()) = .error (.unreadable wideColon) := by
    decide +kernel
  have hnone : (placeSpan? wideName wideColon).isSome = false := by decide +kernel
  refine ⟨hline, hcolumn, ?_, by decide +kernel, fun htold ↦ ?_⟩
  · cases hread : Yaml.readData wideName with
    | error fault =>
      rw [hread] at hfault
      rw [Except.error.inj hfault]
    | ok v =>
      rw [hread] at hfault
      cases hfault
  · obtain ⟨-, -, hsome, -⟩ := placeSpan?_of_line hline hcolumn
    rw [hnone] at hsome
    exact absurd (hsome.mpr htold) (by decide)

/-! ### Keys -/

/-- Whether a line begins with a step of a path and a colon, behind its indentation. -/
def BeginsWith (step line : String) : Prop :=
  (step ++ ":").toList <+: line.toList.dropWhile Text.isBlank

instance (step line : String) : Decidable (BeginsWith step line) :=
  inferInstanceAs (Decidable (_ <+: _))

/-- A line of a document from behind its indentation up to its end, in its place. -/
def keySpanAt (content : String) (i : Nat) (line : String) : Span where
  offset := utf8Len (Text.lineFront i content.toList ++ line.toList.takeWhile Text.isBlank)
  length := utf8Len (line.toList.dropWhile Text.isBlank)

/-- Whether a span covers a line that begins with a step of a path, from there up to its end. -/
def Span.Covers (span : Span) (content step : String) : Prop :=
  ∃ i line, (Text.lines content)[i]? = some line ∧ BeginsWith step line ∧
    span = keySpanAt content i line

/-- The key that a path leads to: the last one, or the one before it if the last one is the index of
an item. Keys without characters are passed over. -/
def soughtKey? (path : List String) : Option String :=
  match (path.filter (· != "")).reverse with
  | [] => none
  | [last] => some last
  | last :: before :: _ => some (if isIndex (escapeStep last) then before else last)

/-- A key without a tilde and a slash is its own step. -/
theorem escapeStep_of_notMem {key : String} (htilde : '~' ∉ key.toList)
    (hslash : '/' ∉ key.toList) : escapeStep key = key := by
  have hsame : (key.toList.flatMap fun c ↦
      if c == '~' then ['~', '0'] else if c == '/' then ['~', '1'] else [c]) =
      key.toList.flatMap fun c ↦ [c] := by
    apply List.flatMap_congr
    intro c hc
    rw [if_neg, if_neg]
    · exact fun heq ↦ hslash (beq_iff_eq.mp heq ▸ hc)
    · exact fun heq ↦ htilde (beq_iff_eq.mp heq ▸ hc)
  rw [escapeStep, hsame, List.flatMap_singleton', String.ofList_toList]

private theorem escapeStep_ne_empty_iff {key : String} :
    (escapeStep key != "") = (key != "") := by
  rw [Bool.eq_iff_iff, bne_iff_ne, bne_iff_ne, ne_eq, ne_eq, not_iff_not, escapeStep,
    ← String.toList_eq_nil_iff, ← String.toList_eq_nil_iff, String.toList_ofList,
    List.flatMap_eq_nil_iff]
  refine ⟨fun h ↦ List.eq_nil_iff_forall_not_mem.mpr fun c hc ↦ ?_, fun h ↦ by simp [h]⟩
  have hstep := h c hc
  split at hstep
  · cases hstep
  · split at hstep <;> cases hstep

/-- The first line that begins with a text is told with one byte for the end of each line before. -/
theorem exists_findLine? {step : String} {lines : List String} (offset : Nat)
    (h : ∃ line ∈ lines, BeginsWith step line) :
    ∃ i line, lines[i]? = some line ∧ BeginsWith step line ∧
      (∀ j < i, ∀ before, lines[j]? = some before → ¬BeginsWith step before) ∧
      findLine? (step ++ ":") offset lines = some
        ⟨offset + total ((lines.take i).map (·.utf8ByteSize + 1)) +
          utf8Len (line.toList.takeWhile Text.isBlank),
          utf8Len (line.toList.dropWhile Text.isBlank)⟩ := by
  induction lines generalizing offset with
  | nil => simp at h
  | cons line lines ih =>
    by_cases hline : BeginsWith step line
    · have hindent : line.utf8ByteSize = utf8Len (line.toList.takeWhile Text.isBlank) +
          utf8Len (line.toList.dropWhile Text.isBlank) := by
        rw [← String.utf8Len_append, List.takeWhile_append_dropWhile, ← String.utf8ByteSize_ofList,
          String.ofList_toList]
      refine ⟨0, line, rfl, hline, nofun, ?_⟩
      have hskipped : utf8Len (line.toList.takeWhile Text.isBlank) =
          line.utf8ByteSize - utf8Len (line.toList.dropWhile Text.isBlank) := by omega
      rw [findLine?, if_pos (List.isPrefixOf_iff_prefix.mpr hline), String.utf8ByteSize_ofList,
        hskipped]
      rfl
    · obtain ⟨first, hfirst, hbegins⟩ := h
      have hrest : first ∈ lines := by
        obtain rfl | hmem := List.mem_cons.mp hfirst
        · exact absurd hbegins hline
        · exact hmem
      obtain ⟨i, found, hi, hfound, hbefore, hspan⟩ :=
        ih (offset + line.utf8ByteSize + 1) ⟨first, hrest, hbegins⟩
      refine ⟨i + 1, found, hi, hfound, fun j hj before hat ↦ ?_, ?_⟩
      · cases j with
        | zero => exact Option.some.inj hat ▸ hline
        | succ j => exact hbefore j (Nat.lt_of_succ_lt_succ hj) before hat
      · rw [findLine?, if_neg (mt List.isPrefixOf_iff_prefix.mp hline), hspan, List.take_succ_cons,
          List.map_cons, total_cons, ← Nat.add_assoc, ← Nat.add_assoc]

/-- The span of a path is the one that is found for the key that it leads to. -/
theorem pathSpan_of_keySpan? {content key : String} {path : List String} {span : Span}
    (hkey : soughtKey? path = some key) (hspan : keySpan? content (escapeStep key) = some span) :
    pathSpan content path = span := by
  have hsteps : ((path.map escapeStep).filter (· != "")).reverse =
      (path.filter (· != "")).reverse.map escapeStep := by
    rw [List.filter_map, ← List.map_reverse]
    congr 3
    exact funext fun key ↦ escapeStep_ne_empty_iff
  rw [pathSpan, hsteps]
  rw [soughtKey?] at hkey
  cases hpath : (path.filter (· != "")).reverse with
  | nil =>
    rw [hpath] at hkey
    cases hkey
  | cons last before =>
    rw [hpath] at hkey
    cases before with
    | nil =>
      obtain rfl := Option.some.inj hkey
      simp [hspan]
    | cons before rest =>
      by_cases hindex : isIndex (escapeStep last) = true
      · obtain rfl := (if_pos hindex).symm.trans (Option.some.inj hkey)
        simp [hspan, hindex]
      · obtain rfl := (if_neg hindex).symm.trans (Option.some.inj hkey)
        simp [hspan, hindex]

/-- A line ends where its indentation and what follows it end. -/
private theorem keySpanAt_end (content : String) (i : Nat) (line : String) :
    (keySpanAt content i line).offset + (keySpanAt content i line).length =
      utf8Len (Text.lineFront i content.toList ++ line.toList) := by
  rw [keySpanAt, ← String.utf8Len_append, List.append_assoc, List.takeWhile_append_dropWhile]

/-- What follows in a text from a span on that covers a step begins with the step and a colon. -/
theorem Span.Covers.exists_dropBytes? {span : Span} {content step : String}
    (h : span.Covers content step) : ∃ rest,
      dropBytes? span.offset content.toList = some rest ∧ (step ++ ":").toList <+: rest := by
  obtain ⟨i, line, hline, hstep, rfl⟩ := h
  obtain ⟨after, hafter⟩ := Text.prefix_lineFront_append hline
  refine ⟨line.toList.dropWhile Text.isBlank ++ after, dropBytes?_eq_some_iff.mpr ⟨_, ?_, rfl⟩,
    hstep.trans (List.prefix_append _ _)⟩
  rw [List.append_assoc, ← List.append_assoc (line.toList.takeWhile _),
    List.takeWhile_append_dropWhile, ← List.append_assoc, hafter]

/-- Where a line begins with the key that a path leads to, as paths spell it, the span of the path
is within the document and has the length of the first such line from the key on. It begins before
this line by one byte for each line end of two characters in front of it. So it covers a line that
begins with the key exactly if there are none, and then the document goes on there with the key. -/
theorem pathSpan_of_begins {content key : String} {path : List String}
    (hkey : soughtKey? path = some key)
    (hbegins : ∃ line ∈ Text.lines content, BeginsWith (escapeStep key) line) :
    ∃ i line, (Text.lines content)[i]? = some line ∧ BeginsWith (escapeStep key) line ∧
      (∀ j < i, ∀ before, (Text.lines content)[j]? = some before →
        ¬BeginsWith (escapeStep key) before) ∧
      let span := pathSpan content path
      let lost := Text.crlfCount (Text.lineFront i content.toList)
      span.length = (keySpanAt content i line).length ∧
      span.offset + lost = (keySpanAt content i line).offset ∧
      span.offset + span.length ≤ content.utf8ByteSize ∧
      (span.Covers content (escapeStep key) ↔ lost = 0) ∧
      (lost = 0 → ∃ rest, dropBytes? span.offset content.toList = some rest ∧
        (escapeStep key ++ ":").toList <+: rest) ∧
      ('~' ∉ key.toList → '/' ∉ key.toList → escapeStep key = key) := by
  obtain ⟨i, line, hline, hstep, hfirst, hfound⟩ := exists_findLine? 0 hbegins
  refine ⟨i, line, hline, hstep, hfirst, ?_⟩
  rw [pathSpan_of_keySpan? hkey hfound]
  intro span lost
  have hlength : span.length = (keySpanAt content i line).length := rfl
  have hoffset : span.offset + lost = (keySpanAt content i line).offset := by
    have htotal := Text.total_lines_add_crlfCount hline
    dsimp only [span, lost, keySpanAt]
    rw [String.utf8Len_append, ← htotal]
    omega
  have hend := keySpanAt_end content i line
  have hwithin : utf8Len (Text.lineFront i content.toList ++ line.toList) ≤
      content.utf8ByteSize := by
    conv_rhs => rw [← String.ofList_toList (s := content), String.utf8ByteSize_ofList]
    exact String.utf8Len_le_of_prefix (Text.prefix_lineFront_append hline)
  have hcovers : span.Covers content (escapeStep key) ↔ lost = 0 := by
    constructor
    · rintro ⟨j, other, hother, hbegins, heq⟩
      rcases Nat.lt_trichotomy i j with hij | rfl | hji
      · -- a later line begins behind the end of this one, and the span before it
        have hlater : utf8Len (Text.lineFront i content.toList ++ line.toList) ≤ span.offset := by
          rw [heq, keySpanAt, String.utf8Len_append _ (other.toList.takeWhile _)]
          exact (String.utf8Len_le_of_prefix (Text.prefix_lineFront_append_of_lt hline hij)).trans
            (Nat.le_add_right _ _)
        omega
      · obtain rfl := Option.some.inj (hline.symm.trans hother)
        rw [← heq] at hoffset
        omega
      · exact absurd hbegins (hfirst j hji other hother)
    · intro hlost
      rw [hlost, Nat.add_zero] at hoffset
      exact ⟨i, line, hline, hstep, congr (congrArg Span.mk hoffset) hlength⟩
  exact ⟨hlength, hoffset, by omega, hcovers, fun hlost ↦ (hcovers.mpr hlost).exists_dropBytes?,
    escapeStep_of_notMem⟩

/-- A document with a family that does not exist, and line ends of two characters. -/
private def unknownFamily : String := "part_id: P-1\r\nfamily: bogus\r\n"

/-- The span of the family begins with the line feed before its line. -/
theorem pathSpan_of_begins_crlf :
    soughtKey? ["family"] = some "family" ∧
      (∃ line ∈ Text.lines unknownFamily, BeginsWith (escapeStep "family") line) ∧
      pathSpan unknownFamily ["family"] = ⟨13, 13⟩ ∧
      ¬(pathSpan unknownFamily ["family"]).Covers unknownFamily (escapeStep "family") := by
  have hkey : soughtKey? ["family"] = some "family" := by decide +kernel
  have hbegins : ∃ line ∈ Text.lines unknownFamily, BeginsWith (escapeStep "family") line := by
    decide +kernel
  refine ⟨hkey, hbegins, by decide +kernel, ?_⟩
  obtain ⟨i, line, hline, hstep, -, -, -, -, hcovers, -⟩ := pathSpan_of_begins hkey hbegins
  have hi : i = 1 := by
    have hlines : Text.lines unknownFamily = ["part_id: P-1", "family: bogus"] := by decide +kernel
    rw [hlines] at hline
    match i, hline with
    | 0, hline =>
      obtain rfl := Option.some.inj hline
      exact absurd hstep (by decide +kernel)
    | 1, _ => rfl
  subst hi
  rw [hcovers]
  decide +kernel

end PipingAssembly
