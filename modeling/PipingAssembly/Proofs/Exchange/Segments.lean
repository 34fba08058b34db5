import Mathlib.Data.List.Induction
import PipingAssembly.Proofs.Exchange.Spelling

/-!
# Reading a file segment by segment

A segment reaches up to and including a semicolon. Reading the statements of a file, which goes back
where one fails and on behind the next semicolon, is the same as reading every segment by itself. No
segment has a part in how another one is read. Of the entities with one number the last one stays.
-/

namespace PipingAssembly.Exchange

/-- Tokens cut behind each semicolon. What follows the last semicolon is left out. -/
def segments : List Token → List (List Token)
  | [] => []
  | .semicolon :: ts => [.semicolon] :: segments ts
  | t :: ts =>
    match segments ts with
    | [] => []
    | s :: ss => (t :: s) :: ss

/-- The entity of a segment that is one complete statement. -/
def segmentEntity? (segment : List Token) : Option Entity :=
  match statement? segment with
  | some (e, ⟨[], _⟩) => some e
  | _ => none

/-- The entities of a text, each from a segment of its own. -/
def segmentEntities (s : String) : List Entity :=
  (segments (tokens s.toList)).filterMap segmentEntity?

/-! ### Cutting -/

private theorem segments_cons (t : Token) (ts : List Token) (h : t ≠ .semicolon) :
    segments (t :: ts) =
      match segments ts with
      | [] => []
      | s :: ss => (t :: s) :: ss := by
  cases t <;> first | exact absurd rfl h | rfl

/-- Tokens without a semicolon have no segment. -/
theorem segments_of_notMem {ts : List Token} (h : .semicolon ∉ ts) : segments ts = [] := by
  induction ts with
  | nil => rfl
  | cons t ts ih =>
    obtain ⟨ht, hts⟩ := not_or.mp (mt List.mem_cons.mpr h)
    rw [segments_cons t ts (Ne.symm ht), ih hts]

/-- The first segment ends with the first semicolon. -/
theorem segments_append {front : List Token} (h : .semicolon ∉ front) (rest : List Token) :
    segments (front ++ .semicolon :: rest) = (front ++ [.semicolon]) :: segments rest := by
  induction front with
  | nil => rfl
  | cons t ts ih =>
    obtain ⟨ht, hts⟩ := not_or.mp (mt List.mem_cons.mpr h)
    rw [List.cons_append, segments_cons t _ (Ne.symm ht), ih hts]
    rfl

/-- A cut behind any semicolon divides the segments. -/
theorem segments_append_semicolon (before after : List Token) :
    segments (before ++ .semicolon :: after) =
      segments (before ++ [.semicolon]) ++ segments after := by
  by_cases h : .semicolon ∈ before
  · obtain ⟨front, rest, hbefore, hfront⟩ := List.eq_append_cons_of_mem h
    have hlt : rest.length < before.length := by
      rw [hbefore, List.length_append, List.length_cons]
      omega
    rw [hbefore, List.append_assoc, List.append_assoc, List.cons_append, List.cons_append,
      segments_append hfront, segments_append hfront, segments_append_semicolon rest after]
    rfl
  · rw [segments_append h, segments_append h]
    rfl
termination_by before.length

/-- Where the first semicolon stands is determined. -/
private theorem append_semicolon_inj {front front' rest rest' : List Token}
    (h : .semicolon ∉ front) (h' : .semicolon ∉ front')
    (heq : front ++ .semicolon :: rest = front' ++ .semicolon :: rest') :
    front = front' ∧ rest = rest' := by
  have hsegments := congrArg segments heq
  rw [segments_append h, segments_append h'] at hsegments
  have hfront := List.append_cancel_right (List.cons.inj hsegments).1
  subst hfront
  exact ⟨rfl, (List.cons.inj (List.append_cancel_left heq)).2⟩

/-! ### One statement -/

/-- A segment is one complete statement exactly if it spells an entity. -/
theorem segmentEntity?_eq_some {segment : List Token} {e : Entity} :
    segmentEntity? segment = some e ↔ Spells segment e := by
  rw [← reads_all_iff_spells]
  unfold segmentEntity?
  cases statement? segment with
  | none => simp
  | some read =>
    obtain ⟨f, rest, h⟩ := read
    cases rest with
    | nil =>
      rw [Option.some.injEq]
      exact ⟨fun hf ↦ ⟨h, by rw [hf]⟩, fun ⟨_, hf⟩ ↦ (Prod.mk.inj (Option.some.inj hf)).1⟩
    | cons t rest => simp

/-- In front of a semicolon a statement is read from its own segment, and up to its end. -/
theorem plain_statement?_append {front : List Token} (h : .semicolon ∉ front)
    (rest : List Token) :
    plain (statement? (front ++ .semicolon :: rest)) =
      (segmentEntity? (front ++ [.semicolon])).map fun e ↦ (e, rest) := by
  apply Option.ext
  rintro ⟨e, r⟩
  rw [plain_statement?_eq_some, Option.map_eq_some_iff]
  constructor
  · rintro ⟨us, hus, heq⟩
    obtain ⟨front', hfront', rfl⟩ := hus.eq_append_semicolon
    rw [List.append_assoc, List.singleton_append] at heq
    obtain ⟨rfl, rfl⟩ := append_semicolon_inj h hfront' heq
    exact ⟨e, segmentEntity?_eq_some.mpr hus, rfl⟩
  · rintro ⟨f, hf, heq⟩
    cases heq
    refine ⟨_, segmentEntity?_eq_some.mp hf, ?_⟩
    rw [List.append_assoc, List.singleton_append]

/-- Without a semicolon there is no statement. -/
theorem plain_statement?_of_notMem {ts : List Token} (h : .semicolon ∉ ts) :
    plain (statement? ts) = none := by
  apply Option.eq_none_iff_forall_ne_some.mpr
  rintro ⟨e, rest⟩ hread
  obtain ⟨us, hus, rfl⟩ := plain_statement?_eq_some.mp hread
  obtain ⟨front, -, rfl⟩ := hus.eq_append_semicolon
  simp at h

/-! ### Going on behind a semicolon -/

private theorem skipStatement_append {front : List Token} (h : .semicolon ∉ front)
    (rest : List Token) : skipStatement (front ++ .semicolon :: rest) = rest := by
  induction front with
  | nil => rfl
  | cons t ts ih =>
    obtain ⟨ht, hts⟩ := not_or.mp (mt List.mem_cons.mpr h)
    cases t <;> first | exact absurd rfl ht | exact ih hts

private theorem skipStatement_of_notMem {ts : List Token} (h : .semicolon ∉ ts) :
    skipStatement ts = [] := by
  induction ts with
  | nil => rfl
  | cons t ts ih =>
    obtain ⟨ht, hts⟩ := not_or.mp (mt List.mem_cons.mpr h)
    cases t <;> first | exact absurd rfl ht | exact ih hts

private theorem readStatements_nil : readStatements [] = [] := by
  rw [readStatements]

private theorem readStatements_of_ne_nil {ts : List Token} (h : ts ≠ []) :
    readStatements ts =
      match plain (statement? ts) with
      | some (e, rest) => e :: readStatements rest
      | none => readStatements (skipStatement ts) := by
  cases ts with
  | nil => exact absurd rfl h
  | cons t ts =>
    rw [readStatements]
    cases statement? (t :: ts) <;> rfl

/-- Reading takes a whole segment at a time, whether it is a statement or not. -/
theorem readStatements_append {front : List Token} (h : .semicolon ∉ front)
    (rest : List Token) :
    readStatements (front ++ .semicolon :: rest) =
      (segmentEntity? (front ++ [.semicolon])).toList ++ readStatements rest := by
  rw [readStatements_of_ne_nil (by simp), plain_statement?_append h]
  cases segmentEntity? (front ++ [.semicolon]) with
  | none =>
    rw [Option.map_none, Option.toList_none, List.nil_append]
    exact congrArg readStatements (skipStatement_append h rest)
  | some e => rfl

/-- Nothing is read from tokens without a semicolon. -/
theorem readStatements_of_notMem {ts : List Token} (h : .semicolon ∉ ts) :
    readStatements ts = [] := by
  by_cases hts : ts = []
  · rw [hts, readStatements_nil]
  · rw [readStatements_of_ne_nil hts, plain_statement?_of_notMem h]
    exact (congrArg readStatements (skipStatement_of_notMem h)).trans readStatements_nil

/-- The statements of a file are those of its segments, each read by itself. -/
theorem readStatements_eq_filterMap (ts : List Token) :
    readStatements ts = (segments ts).filterMap segmentEntity? := by
  by_cases h : .semicolon ∈ ts
  · obtain ⟨front, rest, hts, hfront⟩ := List.eq_append_cons_of_mem h
    have hlt : rest.length < ts.length := by
      rw [hts, List.length_append, List.length_cons]
      omega
    rw [hts, readStatements_append hfront, segments_append hfront, List.filterMap_cons,
      readStatements_eq_filterMap rest]
    cases segmentEntity? (front ++ [.semicolon]) <;> rfl
  · rw [readStatements_of_notMem h, segments_of_notMem h]
    rfl
termination_by ts.length

/-! ### Entities in the order of their numbers -/

/-- The entities have rising numbers. -/
def Ordered (es : List Entity) : Prop := es.Pairwise fun e f ↦ e.id < f.id

/-- An entity that is put into a list is the one of its number, and the others stay. -/
theorem findEntity?_putEntity (e : Entity) (es : List Entity) (id : EntityId) :
    findEntity? (putEntity e es) id = if e.id = id then some e else findEntity? es id := by
  induction es with
  | nil => by_cases h : e.id = id <;> simp [putEntity, findEntity?, h]
  | cons f fs ih =>
    simp only [findEntity?] at ih
    rw [putEntity]
    split
    · next heq => by_cases hf : f.id = id <;> simp [findEntity?, heq, hf]
    · next hne =>
      split
      · by_cases h : e.id = id <;> simp [findEntity?, h]
      · by_cases hf : f.id = id
        · have h : e.id ≠ id := fun h ↦ hne (h.trans hf.symm)
          simp [findEntity?, hf, h]
        · simp [findEntity?, hf, ih]

private theorem mem_putEntity {e f : Entity} {es : List Entity} (h : f ∈ putEntity e es) :
    f = e ∨ f ∈ es := by
  induction es with
  | nil => exact Or.inl (List.mem_singleton.mp h)
  | cons g gs ih =>
    rw [putEntity] at h
    split at h
    · cases List.mem_cons.mp h with
      | inl h => exact Or.inl h
      | inr h => exact Or.inr (List.mem_cons_of_mem g h)
    · split at h
      · exact List.mem_cons.mp h
      · cases List.mem_cons.mp h with
        | inl h => exact Or.inr (h ▸ List.mem_cons_self)
        | inr h => exact (ih h).imp_right (List.mem_cons_of_mem g)

/-- Putting an entity into a list keeps the order. -/
theorem Ordered.putEntity {es : List Entity} (h : Ordered es) (e : Entity) :
    Ordered (putEntity e es) := by
  induction es with
  | nil => exact List.pairwise_singleton _ _
  | cons f fs ih =>
    obtain ⟨hf, hfs⟩ := List.pairwise_cons.mp h
    rw [Exchange.putEntity]
    split
    · next heq => exact List.pairwise_cons.mpr ⟨heq ▸ hf, hfs⟩
    · next hne =>
      split
      · next hlt =>
        refine List.pairwise_cons.mpr ⟨fun g hg ↦ ?_, h⟩
        cases List.mem_cons.mp hg with
        | inl hg => exact hg ▸ hlt
        | inr hg => exact UInt64.lt_trans hlt (hf g hg)
      · next hnlt =>
        refine List.pairwise_cons.mpr ⟨fun g hg ↦ ?_, ih hfs⟩
        cases mem_putEntity hg with
        | inl hg =>
          have hle : f.id ≤ e.id := UInt64.not_lt.mp hnlt
          exact hg ▸ UInt64.lt_of_le_of_ne hle (Ne.symm hne)
        | inr hg => exact hf g hg

theorem sortEntities_append_singleton (es : List Entity) (e : Entity) :
    sortEntities (es ++ [e]) = putEntity e (sortEntities es) := by
  rw [sortEntities, List.foldl_append]
  rfl

/-- Entities that have been sorted have rising numbers, so each number once. -/
theorem ordered_sortEntities (es : List Entity) : Ordered (sortEntities es) := by
  induction es using List.reverseRecOn with
  | nil => exact List.Pairwise.nil
  | append_singleton es e ih =>
    rw [sortEntities_append_singleton]
    exact ih.putEntity e

/-- Of the entities with a number the last one stays. -/
theorem findEntity?_sortEntities (es : List Entity) (id : EntityId) :
    findEntity? (sortEntities es) id = (es.filter (·.id == id)).getLast? := by
  induction es using List.reverseRecOn with
  | nil => rfl
  | append_singleton es e ih =>
    rw [sortEntities_append_singleton, findEntity?_putEntity, ih, List.filter_append,
      List.getLast?_append]
    by_cases h : e.id = id <;> simp [h]

private theorem putEntity_perm {e : Entity} {es : List Entity} (h : ∀ f ∈ es, f.id ≠ e.id) :
    (putEntity e es).Perm (e :: es) := by
  induction es with
  | nil => exact .refl _
  | cons f fs ih =>
    rw [putEntity, if_neg (Ne.symm (h f List.mem_cons_self))]
    split
    · exact .refl _
    · exact ((ih fun g hg ↦ h g (List.mem_cons_of_mem f hg)).cons f).trans (.swap e f fs)

/-- Entities with different numbers are all kept. -/
theorem sortEntities_perm {es : List Entity} (h : (es.map (·.id)).Nodup) :
    (sortEntities es).Perm es := by
  induction es using List.reverseRecOn with
  | nil => exact .refl _
  | append_singleton es e ih =>
    rw [List.map_append, List.nodup_append] at h
    obtain ⟨hids, -, hdisjoint⟩ := h
    have hsorted := ih hids
    rw [sortEntities_append_singleton]
    have hput : (putEntity e (sortEntities es)).Perm (e :: sortEntities es) :=
      putEntity_perm fun f hf ↦
        hdisjoint f.id (List.mem_map_of_mem (hsorted.mem_iff.mp hf)) e.id List.mem_cons_self
    exact (hput.trans (hsorted.cons e)).trans (List.perm_append_singleton e es).symm

/-- Entities in order stay as they are. -/
theorem sortEntities_of_ordered {es : List Entity} (h : Ordered es) : sortEntities es = es := by
  have hids : (es.map (·.id)).Nodup :=
    List.pairwise_map.mpr (h.imp fun hlt ↦ UInt64.ne_of_lt hlt)
  refine (sortEntities_perm hids).eq_of_pairwise (fun e f _ _ hef hfe ↦ ?_)
    (ordered_sortEntities es) h
  exact absurd (UInt64.lt_trans hef hfe) (UInt64.lt_irrefl e.id)

/-- Reading a file is reading its segments one by one, each on its own as one complete statement,
and putting what is read into a table in order, where the last entity of a number stays. Reading
never looks across a semicolon, so no segment, malformed or not, changes what is read elsewhere. -/
theorem readEntities_segmentwise (s : String) :
    readEntities s = (segmentEntities s).foldl (fun es e ↦ putEntity e es) [] ∧
      Ordered (readEntities s) ∧
      (∀ id, findEntity? (readEntities s) id =
        ((segmentEntities s).filter (·.id == id)).getLast?) ∧
      ∀ before after : List Token,
        readStatements (before ++ .semicolon :: after) =
          readStatements (before ++ [.semicolon]) ++ readStatements after := by
  have hread : readEntities s = sortEntities (segmentEntities s) := by
    rw [readEntities, readStatements_eq_filterMap, segmentEntities]
  refine ⟨hread, ?_, ?_, ?_⟩
  · rw [hread]
    exact ordered_sortEntities (segmentEntities s)
  · intro id
    rw [hread, findEntity?_sortEntities]
  · intro before after
    rw [readStatements_eq_filterMap, readStatements_eq_filterMap, readStatements_eq_filterMap,
      segments_append_semicolon, List.filterMap_append]

end PipingAssembly.Exchange
