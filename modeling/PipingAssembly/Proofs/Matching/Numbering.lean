import Mathlib.Data.List.Nodup
import PipingAssembly.Matching.Generation
import PipingAssembly.Proofs.Decimal.Numerals

/-!
# Ids of generated constraints

Constraints get their ids by their places, so no id occurs twice however many constraints there are.
An id is a letter and digits.
-/

namespace PipingAssembly

namespace Constraint

theorem toList_idFor (index : Nat) :
    (idFor index).toList =
      'C' :: (Decimal.padStart 3 '0' (Decimal.natText (index + 1))).toList := by
  rw [idFor, String.toList_append]
  rfl

/-- Different places give different ids, also past three digits. -/
theorem idFor_injective : Function.Injective idFor := by
  intro i j h
  have hlist := congrArg String.toList h
  rw [toList_idFor, toList_idFor] at hlist
  have hnumber := Decimal.padStart_natText_inj.mp (String.toList_inj.mp (List.cons.inj hlist).2)
  exact Nat.succ.inj hnumber

/-- An id holds nothing but its letter and digits. -/
theorem notMem_idFor {c : Char} (hletter : c ≠ 'C') (hdigit : c.isDigit = false) (index : Nat) :
    c ∉ (idFor index).toList := by
  rw [toList_idFor, Decimal.padStart, String.toList_append, String.toList_ofList]
  intro h
  cases List.mem_cons.mp h with
  | inl h => exact hletter h
  | inr h =>
    cases List.mem_append.mp h with
    | inl h =>
      rw [(List.mem_replicate.mp h).2] at hdigit
      cases hdigit
    | inr h =>
      rw [Decimal.isDigit_of_mem_natText h] at hdigit
      cases hdigit

end Constraint

/-- Constraints that have the ids of their places. -/
def Numbered (cs : List Constraint) : Prop :=
  cs.map (·.id) = (List.range cs.length).map Constraint.idFor

namespace Numbered

variable {cs : List Constraint}

theorem nodup (h : Numbered cs) : (cs.map (·.id)).Nodup := by
  rw [h]
  exact List.nodup_range.map Constraint.idFor_injective

/-- Each constraint has the id of its place. -/
theorem id_eq (h : Numbered cs) {n : Nat} {c : Constraint} (hc : cs[n]? = some c) :
    c.id = Constraint.idFor n := by
  obtain ⟨hn, -⟩ := List.getElem?_eq_some_iff.mp hc
  have hid : (cs.map (·.id))[n]? = some c.id := by
    rw [List.getElem?_map, hc]
    rfl
  rw [h, List.getElem?_map, List.getElem?_range hn] at hid
  exact (Option.some.inj hid).symm

theorem exists_idFor (h : Numbered cs) {c : Constraint} (hc : c ∈ cs) :
    ∃ index, c.id = Constraint.idFor index := by
  have hid : c.id ∈ cs.map (·.id) := List.mem_map_of_mem hc
  rw [h] at hid
  obtain ⟨index, -, hindex⟩ := List.mem_map.mp hid
  exact ⟨index, hindex.symm⟩

end Numbered

theorem numbered_mapIdx (proposals : List Proposal) :
    Numbered (proposals.mapIdx Proposal.toConstraint) := by
  rw [Numbered, List.length_mapIdx]
  apply List.ext_getElem
  · rw [List.length_map, List.length_mapIdx, List.length_map, List.length_range]
  · intro i hi hi'
    rw [List.getElem_map, List.getElem_mapIdx, List.getElem_map, List.getElem_range]
    rfl

theorem numbered_generateCatalog (parts : List Part) (rules : List Rule)
    (policy : MatchPolicy Float) : Numbered (generateCatalog parts rules policy) :=
  numbered_mapIdx _

theorem numbered_generateSequential (instances : List Instance) (catalog : List Part)
    (rules : List Rule) (policy : MatchPolicy Float) :
    Numbered (generateSequential instances catalog rules policy) :=
  numbered_mapIdx _

end PipingAssembly
