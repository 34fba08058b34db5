import Mathlib.Data.List.TakeWhile
import PipingAssembly.Delimited.Reader

/-!
# The first records of a text

A record in front of another one ends with its line. So a text that is cut behind some of its
records has these records, and no others.
-/

namespace PipingAssembly.Delimited

/-! ### One record -/

/-- A byte ends the record, or it goes into the fields that are read from what follows. -/
private theorem readFields_cons (state : FieldState) (b : UInt8) :
    (∀ bs, readFields state (b :: bs) = ([[]], bs)) ∨
      ∃ next build, ∀ bs, readFields state (b :: bs) = (readFields next bs).map build id := by
  by_cases hquoted : (state == .quoted) = true
  · by_cases hquote : (b == quoteMark) = true
    · exact Or.inr ⟨.closing, id, fun bs ↦ by rw [readFields, if_pos hquoted, if_pos hquote]; rfl⟩
    · exact Or.inr ⟨.quoted, pushFirst b, fun bs ↦ by
        rw [readFields, if_pos hquoted, if_neg hquote]; rfl⟩
  by_cases hopening : (state == .start && b == quoteMark) = true
  · exact Or.inr ⟨.quoted, id, fun bs ↦ by
      rw [readFields, if_neg hquoted, if_pos hopening]; rfl⟩
  by_cases hdoubled : (state == .closing && b == quoteMark) = true
  · exact Or.inr ⟨.quoted, pushFirst b, fun bs ↦ by
      rw [readFields, if_neg hquoted, if_neg hopening, if_pos hdoubled]; rfl⟩
  by_cases hcomma : (b == comma) = true
  · exact Or.inr ⟨.start, ([] :: ·), fun bs ↦ by
      rw [readFields, if_neg hquoted, if_neg hopening, if_neg hdoubled, if_pos hcomma]; rfl⟩
  by_cases hend : isLineEnd b = true
  · exact Or.inl fun bs ↦ by
      rw [readFields, if_neg hquoted, if_neg hopening, if_neg hdoubled, if_neg hcomma, if_pos hend]
  · exact Or.inr ⟨.unquoted, pushFirst b, fun bs ↦ by
      rw [readFields, if_neg hquoted, if_neg hopening, if_neg hdoubled, if_neg hcomma,
        if_neg hend]; rfl⟩

/-- A record that something follows has bytes of its own, and is read from them whatever follows. -/
private theorem exists_readFields_append {state : FieldState} {bs rest : List UInt8}
    {fields : List (List UInt8)} (h : readFields state bs = (fields, rest)) (hrest : rest ≠ []) :
    ∃ own, own ≠ [] ∧ bs = own ++ rest ∧
      ∀ more, readFields state (own ++ more) = (fields, more) := by
  induction bs generalizing state fields with
  | nil =>
    obtain ⟨-, rfl⟩ := Prod.mk.inj h
    exact absurd rfl hrest
  | cons b bs ih =>
    obtain hend | ⟨next, build, hnext⟩ := readFields_cons state b
    · rw [hend] at h
      obtain ⟨rfl, rfl⟩ := Prod.mk.inj h
      exact ⟨[b], List.cons_ne_nil _ _, rfl, hend⟩
    · rw [hnext] at h
      obtain ⟨rfl, hrest'⟩ := Prod.mk.inj h
      obtain ⟨own, -, rfl, hown⟩ := ih (Prod.ext rfl hrest')
      refine ⟨b :: own, List.cons_ne_nil _ _, rfl, fun more ↦ ?_⟩
      rw [List.cons_append, hnext, hown]
      rfl

/-! ### Several records -/

theorem readRecords_nil (fuel : Nat) : readRecords fuel [] = [] := by
  cases fuel <;> rfl

/-- A record is read behind the empty lines, unless nothing is there. -/
private theorem readRecords_succ {fuel : Nat} {bs start rest : List UInt8}
    {fields : List (List UInt8)} (hstart : bs.dropWhile isLineEnd = start) (hne : start ≠ [])
    (hfields : readFields .start start = (fields, rest)) :
    readRecords (fuel + 1) bs = (bs.length, fields) :: readRecords fuel rest := by
  rw [readRecords]
  split
  · next hnil => exact absurd (hstart.symm.trans hnil) hne
  · rw [hstart, hfields]

/-- Bytes behind an initial part that does not end in the line ends belong to what follows them. -/
private theorem dropWhile_append_of_dropWhile {own more rest bs : List UInt8} (hown : own ≠ [])
    (h : bs.dropWhile isLineEnd = own ++ rest) :
    (bs.takeWhile isLineEnd ++ (own ++ more)).dropWhile isLineEnd = own ++ more := by
  obtain ⟨b, own, rfl⟩ := List.exists_cons_of_ne_nil hown
  have hb := List.head?_dropWhile_not isLineEnd bs
  rw [h] at hb
  rw [List.dropWhile_append_of_pos fun _ ↦ List.mem_takeWhile_imp]
  exact List.dropWhile_cons_of_neg (by simpa using hb)

/-- The records in front of a record are read from the bytes in front of the place where it was
looked for. -/
private theorem exists_readRecords_take {fuel : Nat} {bs : List UInt8} {k : Nat}
    {r : Nat × List (List UInt8)} (hr : (readRecords fuel bs)[k]? = some r) :
    ∃ front rest, bs = front ++ rest ∧ rest.length = r.1 ∧ ∀ fuel', front.length ≤ fuel' →
      (readRecords fuel' front).map (fun r ↦ (r.1 + rest.length, r.2)) =
        (readRecords fuel bs).take k := by
  induction fuel generalizing bs k with
  | zero => cases hr
  | succ fuel ih =>
    have hstart : bs.dropWhile isLineEnd ≠ [] := by
      intro hnil
      rw [readRecords, hnil] at hr
      cases hr
    obtain ⟨fields, rest, hfields⟩ : ∃ fields rest,
        readFields .start (bs.dropWhile isLineEnd) = (fields, rest) := ⟨_, _, rfl⟩
    rw [readRecords_succ rfl hstart hfields] at hr ⊢
    cases k with
    | zero =>
      obtain rfl := Option.some.inj hr
      exact ⟨[], bs, rfl, rfl, fun fuel' _ ↦ by rw [readRecords_nil]; rfl⟩
    | succ k =>
      rw [List.getElem?_cons_succ] at hr
      have hrest : rest ≠ [] := by
        rintro rfl
        rw [readRecords_nil] at hr
        cases hr
      obtain ⟨own, hown, hbs, hread⟩ := exists_readFields_append hfields hrest
      obtain ⟨front, tail, rfl, hleft, hfront⟩ := ih hr
      have hsplit : bs = (bs.takeWhile isLineEnd ++ (own ++ front)) ++ tail := by
        rw [List.append_assoc, List.append_assoc, ← hbs, List.takeWhile_append_dropWhile]
      refine ⟨bs.takeWhile isLineEnd ++ (own ++ front), tail, hsplit, hleft, fun fuel' hfuel' ↦ ?_⟩
      have hlength : front.length < fuel' := by
        have := List.length_pos_iff.mpr hown
        simp only [List.length_append] at hfuel'
        omega
      obtain ⟨fuel', rfl⟩ := Nat.exists_eq_add_of_lt (Nat.zero_lt_of_lt hlength)
      rw [Nat.zero_add] at hlength ⊢
      rw [readRecords_succ (dropWhile_append_of_dropWhile hown hbs) (by simp [hown]) (hread front),
        List.map_cons, hfront fuel' (by omega), List.take_succ_cons, ← List.length_append, ← hsplit]

/-! ### A whole text -/

/-- A text that is cut behind its mark keeps the mark, and one without a mark gets none. -/
private theorem dropMark_take {bs front rest : List UInt8} (h : dropMark bs = front ++ rest) :
    dropMark (bs.take (bs.length - rest.length)) = front := by
  by_cases hmark : ∃ bs', bs = 0xEF :: 0xBB :: 0xBF :: bs'
  · obtain ⟨bs', rfl⟩ := hmark
    obtain rfl : bs' = front ++ rest := h
    have hlength : (0xEF :: 0xBB :: 0xBF :: (front ++ rest)).length - rest.length =
        front.length + 3 := by
      simp only [List.length_cons, List.length_append]
      omega
    rw [hlength, List.take_succ_cons, List.take_succ_cons, List.take_succ_cons, List.take_left']
    · rfl
    · rfl
  · have hself : ∀ front rest : List UInt8, bs = front ++ rest → dropMark front = front := by
      intro front rest hbs
      rw [dropMark]
      intro front' hfront
      exact hmark ⟨front' ++ rest, by rw [hbs, hfront]; rfl⟩
    rw [hself bs [] (List.append_nil bs).symm] at h
    have hfront : bs.take (bs.length - rest.length) = front := by
      rw [h, List.length_append, Nat.add_sub_cancel, List.take_left']
      rfl
    rw [hfront, hself front rest h]

private theorem length_dropMark_le (bs : List UInt8) : (dropMark bs).length ≤ bs.length := by
  rw [dropMark.eq_def]
  split
  · simp only [List.length_cons]
    omega
  · exact le_rfl

/-- A record as it is numbered and placed in a text. -/
private def placed (bs : List UInt8) (index : Nat) (r : Nat × List (List UInt8)) : Record :=
  let byte := if index = 0 then 0 else bs.length - r.1
  { fields := r.2, index, byte, line := (bs.take byte).count 0x0A + 1 }

private theorem read_eq_mapIdx (bs : List UInt8) :
    read bs = (readRecords bs.length (dropMark bs)).mapIdx (placed bs) := rfl

/-- A record has the same place in a text that is cut behind it. -/
private theorem placed_take {bs : List UInt8} {left : Nat} (hleft : left ≤ bs.length)
    (index : Nat) (r : Nat × List (List UInt8)) :
    placed (bs.take (bs.length - left)) index r = placed bs index (r.1 + left, r.2) := by
  have hbyte : (bs.take (bs.length - left)).length - r.1 = bs.length - (r.1 + left) := by
    rw [List.length_take]
    omega
  rw [placed, placed, hbyte]
  split
  · rfl
  · rw [List.take_take, Nat.min_eq_left (by omega)]

private theorem take_mapIdx {α β : Type} (f : Nat → α → β) (l : List α) (k : Nat) :
    (l.mapIdx f).take k = (l.take k).mapIdx f := by
  apply List.ext_getElem?
  intro i
  rw [List.getElem?_mapIdx, List.getElem?_take, List.getElem?_take, List.getElem?_mapIdx]
  split <;> rfl

/-- The number of a record is its place among the records. -/
theorem index_of_getElem? {bs : List UInt8} {r : Record} {i : Nat} (h : (read bs)[i]? = some r) :
    r.index = i := by
  rw [read_eq_mapIdx, List.getElem?_mapIdx, Option.map_eq_some_iff] at h
  obtain ⟨_, -, rfl⟩ := h
  rfl

/-- The text in front of a record has the records before it, and no others. -/
theorem read_take_byte {bs : List UInt8} {r : Record} (h : r ∈ read bs) :
    read (bs.take r.byte) = (read bs).take r.index := by
  obtain ⟨i, hr⟩ := List.mem_iff_getElem?.mp h
  obtain rfl := index_of_getElem? hr
  rw [read_eq_mapIdx, List.getElem?_mapIdx, Option.map_eq_some_iff] at hr
  obtain ⟨⟨left, fields⟩, hfound, hplaced⟩ := hr
  by_cases hfirst : r.index = 0
  · have hbyte : r.byte = 0 := by rw [← hplaced, placed, if_pos hfirst]
    rw [hbyte, hfirst]
    rfl
  obtain ⟨front, rest, hbs, rfl, hfront⟩ := exists_readRecords_take hfound
  have hlength := length_dropMark_le bs
  have hbyte : r.byte = bs.length - rest.length := by rw [← hplaced, placed, if_neg hfirst]
  have hrest : rest.length ≤ bs.length := by
    rw [hbs, List.length_append] at hlength
    omega
  have hcut := dropMark_take hbs
  have hfuel := hfront (bs.take (bs.length - rest.length)).length
    (hcut ▸ length_dropMark_le _)
  rw [hbyte, read_eq_mapIdx, read_eq_mapIdx, hcut, take_mapIdx, ← hfuel, List.mapIdx_eq_iff]
  intro i
  rw [List.getElem?_mapIdx, List.getElem?_map, Option.map_map]
  exact congrArg (Option.map · _) (funext fun r ↦ (placed_take hrest i r).symm)

end PipingAssembly.Delimited
