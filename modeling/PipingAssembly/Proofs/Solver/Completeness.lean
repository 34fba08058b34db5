import Mathlib.Data.Finset.Card
import Mathlib.Data.List.Basic
import PipingAssembly.Proofs.Catalog.Firsts
import PipingAssembly.Proofs.Lists
import PipingAssembly.Proofs.Solver.Links

/-!
# Counting placements

Placements are counted one after the other, and an id counts as duplicated when its second placement
is met. Whatever the order, in the end the table holds each instance id with the number of its
placements, and the ids met a second time are those with two placements or more. Placements of
unknown instances leave no trace.
-/

namespace PipingAssembly

/-- A tally of placements over some ids: the table has each id with the number of its placements,
and the ids with several of them have been counted. -/
structure Tally.Counts (t : Tally) (ids placed : List String) : Prop where
  counts_eq : t.counts = ids.map fun id ↦ (id, placed.count id)
  duplicated_eq : t.duplicated = ids.countP fun id ↦ 2 ≤ placed.count id

namespace Tally.Counts

variable {t : Tally} {ids placed : List String}

/-- At the start nothing has been placed. -/
theorem start (ids : List String) : (Tally.start ids).Counts ids.eraseDups [] where
  counts_eq := rfl
  duplicated_eq := by
    symm
    simp [Tally.start]

/-- The table has the ids of instances and no others. -/
theorem lookup_counts (h : t.Counts ids placed) (id : String) :
    t.counts.lookup id = if id ∈ ids then some (placed.count id) else none := by
  rw [h.counts_eq]
  split
  · next hid => exact List.lookup_graph (fun id ↦ placed.count id) hid
  · next hid =>
    apply List.lookup_eq_none_iff.mpr
    intro e he
    obtain ⟨id', hid', rfl⟩ := List.mem_map.mp he
    simpa using fun heq : id = id' ↦ hid (heq ▸ hid')

/-- A placement of an unknown instance changes no count of a known one. -/
private theorem add_of_notMem (h : t.Counts ids placed) {id : String} (hid : id ∉ ids) :
    (t.add id).Counts ids (placed ++ [id]) := by
  have hsame : ∀ id' ∈ ids, (placed ++ [id]).count id' = placed.count id' := by
    intro id' hid'
    have hne : id ≠ id' := fun heq ↦ hid (heq ▸ hid')
    rw [List.count_append, List.count_singleton, if_neg (by simpa using hne), Nat.add_zero]
  have hadd : t.add id = t := by
    rw [Tally.add, h.lookup_counts, if_neg hid]
  rw [hadd]
  constructor
  · rw [h.counts_eq]
    exact List.map_congr_left fun id' hid' ↦ by rw [hsame id' hid']
  · rw [h.duplicated_eq]
    exact List.countP_congr fun id' hid' ↦ by rw [hsame id' hid']

/-- A placement of a known instance adds one to its count, and its id is duplicated from the second
one on. -/
private theorem add_of_mem (h : t.Counts ids placed) (hids : ids.Nodup) {id : String}
    (hid : id ∈ ids) : (t.add id).Counts ids (placed ++ [id]) := by
  have hcount : ∀ id',
      (placed ++ [id]).count id' = placed.count id' + if id = id' then 1 else 0 := by
    intro id'
    rw [List.count_append, List.count_singleton]
    simp
  have hadd : t.add id =
      { counts := t.counts.map fun e ↦ if e.1 = id then (id, placed.count id + 1) else e
        duplicated :=
          if placed.count id + 1 = 2 then t.duplicated + 1 else t.duplicated } := by
    rw [Tally.add, h.lookup_counts, if_pos hid]
  rw [hadd]
  constructor
  · rw [h.counts_eq, List.map_map]
    apply List.map_congr_left
    intro id' _
    by_cases heq : id' = id
    · simp [heq]
    · simp [heq, Ne.symm heq, hcount]
  · rw [h.duplicated_eq]
    have hself : (placed ++ [id]).count id = placed.count id + 1 := by
      rw [hcount, if_pos rfl]
    have hothers : ∀ id' ∈ ids, id' ≠ id →
        (decide (2 ≤ (placed ++ [id]).count id')) = decide (2 ≤ placed.count id') := by
      intro id' _ hne
      rw [hcount, if_neg (Ne.symm hne), Nat.add_zero]
    by_cases hsecond : placed.count id + 1 = 2
    · simp only [if_pos hsecond]
      symm
      exact countP_add_one hids hid (decide_eq_false (by omega)) (decide_eq_true (by omega)) hothers
    · simp only [if_neg hsecond]
      apply List.countP_congr
      intro id' hid'
      by_cases heq : id' = id
      · rw [heq, decide_eq_true_iff, decide_eq_true_iff]
        omega
      · rw [hothers id' hid' heq]

/-- One more placement, of a known instance or not. -/
theorem add (h : t.Counts ids placed) (hids : ids.Nodup) (id : String) :
    (t.add id).Counts ids (placed ++ [id]) := by
  by_cases hid : id ∈ ids
  · exact h.add_of_mem hids hid
  · exact h.add_of_notMem hid

/-- Any number of placements more. -/
theorem foldl_add (h : t.Counts ids placed) (hids : ids.Nodup) (more : List String) :
    (more.foldl Tally.add t).Counts ids (placed ++ more) := by
  induction more generalizing t placed with
  | nil => rwa [List.append_nil]
  | cons id more ih =>
    rw [List.append_cons]
    exact ih (h.add hids id)

end Tally.Counts

/-- Instances are incomplete over the ids without a placement and over those with several. -/
theorem incomplete?_eq (instanceIds placementIds : List String) :
    incomplete? instanceIds placementIds =
      let missing := instanceIds.eraseDups.countP fun id ↦ placementIds.count id = 0
      let duplicated := instanceIds.eraseDups.countP fun id ↦ 2 ≤ placementIds.count id
      if missing = 0 ∧ duplicated = 0 then none else some ⟨missing, duplicated⟩ := by
  have h := (Tally.Counts.start instanceIds).foldl_add (nodup_eraseDups instanceIds) placementIds
  rw [List.nil_append] at h
  rw [incomplete?]
  simp only [h.duplicated_eq, h.counts_eq, List.countP_map]
  rfl

/-- Nothing is incomplete where each id has exactly one placement. -/
theorem incomplete?_eq_none_iff {instanceIds placementIds : List String} :
    incomplete? instanceIds placementIds = none ↔
      ∀ id ∈ instanceIds, placementIds.count id = 1 := by
  rw [incomplete?_eq]
  simp only [ite_eq_left_iff, reduceCtorEq, imp_false, Decidable.not_not, List.countP_eq_zero,
    List.mem_eraseDups, ← forall₂_and]
  refine forall₂_congr fun id _ ↦ ?_
  rw [decide_eq_true_iff, decide_eq_true_iff]
  omega

/-- What counts each id once counts a set of ids. -/
theorem countP_eraseDups (p : String → Prop) [DecidablePred p] (ids : List String) :
    (ids.eraseDups.countP fun id ↦ p id) = (ids.toFinset.filter p).card := by
  have hset : (ids.eraseDups.filter fun id ↦ p id).toFinset = ids.toFinset.filter p := by
    ext id
    simp
  rw [← hset, List.toFinset_card_of_nodup ((nodup_eraseDups ids).filter _),
    List.countP_eq_length_filter]

/-- What is reported about incomplete instances are the numbers of ids without a placement and of
ids with several. -/
theorem incomplete?_eq_some_iff {instanceIds placementIds : List String} {e : Incomplete} :
    incomplete? instanceIds placementIds = some e ↔
      (¬ ∀ id ∈ instanceIds, placementIds.count id = 1) ∧
        e = ⟨(instanceIds.toFinset.filter fun id ↦ placementIds.count id = 0).card,
          (instanceIds.toFinset.filter fun id ↦ 2 ≤ placementIds.count id).card⟩ := by
  rw [← incomplete?_eq_none_iff, incomplete?_eq, ← countP_eraseDups, ← countP_eraseDups]
  dsimp only
  split <;> simp [eq_comm]

/-- The placements that name an instance. -/
def naming (placements : List Placement) (id : String) : List Placement :=
  placements.filter (·.instanceId == id)

theorem count_map_instanceId (placements : List Placement) (id : String) :
    (placements.map (·.instanceId)).count id = (naming placements id).length := by
  rw [List.count, List.countP_map, naming, ← List.countP_eq_length_filter]
  rfl

/-- Placements in any order, of unknown instances too, are complete exactly if each id among the
instances is named by one of them. If they are not, it is reported how many ids are named by none
and how many by several, each id once however many instances have it. -/
theorem outcome_incomplete? (instances : List Instance) (placements : List Placement) :
    (incomplete? (idsOf instances) (placements.map (·.instanceId)) = none ↔
        ∀ i ∈ instances, (naming placements i.id).length = 1) ∧
      ∀ e, incomplete? (idsOf instances) (placements.map (·.instanceId)) = some e ↔
        (∃ i ∈ instances, (naming placements i.id).length ≠ 1) ∧
          e.missing = ((idsOf instances).toFinset.filter fun id ↦ naming placements id = []).card ∧
          e.duplicated = ((idsOf instances).toFinset.filter
            fun id ↦ 2 ≤ (naming placements id).length).card := by
  have hcomplete : (∀ id ∈ idsOf instances, (placements.map (·.instanceId)).count id = 1) ↔
      ∀ i ∈ instances, (naming placements i.id).length = 1 := by
    simp only [count_map_instanceId, List.forall_mem_map]
  constructor
  · rw [incomplete?_eq_none_iff, hcomplete]
  · rintro ⟨missing, duplicated⟩
    rw [incomplete?_eq_some_iff, hcomplete]
    simp only [count_map_instanceId, List.length_eq_zero_iff, Incomplete.mk.injEq, not_forall,
      exists_prop, ne_eq]

/-- One id without a placement, one with three, and a placement of an unknown instance. -/
example : incomplete? ["A", "B", "C", "B"] ["C", "X", "A", "C", "X", "C"] = some ⟨1, 1⟩ := by
  decide

end PipingAssembly
