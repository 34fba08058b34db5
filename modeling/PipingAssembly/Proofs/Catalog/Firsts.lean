import Mathlib.Data.List.Nodup
import PipingAssembly.Catalog.Basic

/-!
# First elements with their keys

Of elements with one key the first one is kept, in the order in which the keys come up.
-/

namespace PipingAssembly

variable {α : Type} (key : α → String)

/-- What is kept are the first elements with their keys. -/
theorem mem_firstOfEach_iff {a : α} {as : List α} :
    a ∈ firstOfEach key as ↔ as.find? (fun b ↦ key b == key a) = some a := by
  induction as with
  | nil => exact ⟨nofun, nofun⟩
  | cons b as ih =>
    rw [firstOfEach, List.mem_cons, List.mem_filter, ih, bne_iff_ne]
    by_cases hkey : key b = key a
    · simp only [List.find?_cons, beq_iff_eq.mpr hkey, Option.some.injEq]
      exact ⟨fun h ↦ h.elim Eq.symm fun hrest ↦ absurd hkey.symm hrest.2, fun h ↦ Or.inl h.symm⟩
    · simp only [List.find?_cons, beq_eq_false_iff_ne.mpr hkey]
      refine ⟨fun h ↦ ?_, fun h ↦ Or.inr ⟨h, Ne.symm hkey⟩⟩
      rcases h with rfl | ⟨hfind, -⟩
      · exact absurd rfl hkey
      · exact hfind

theorem mem_of_mem_firstOfEach {a : α} {as : List α} (h : a ∈ firstOfEach key as) : a ∈ as :=
  List.mem_of_find?_eq_some ((mem_firstOfEach_iff key).mp h)

/-- Of elements with one key only the first is kept. -/
theorem nodup_firstOfEach (as : List α) : ((firstOfEach key as).map key).Nodup := by
  induction as with
  | nil => exact List.nodup_nil
  | cons a as ih =>
    rw [firstOfEach, List.map_cons, List.nodup_cons]
    constructor
    · intro h
      obtain ⟨b, hb, heq⟩ := List.mem_map.mp h
      have hne := (List.mem_filter.mp hb).2
      rw [heq, bne_self_eq_false] at hne
      cases hne
    · exact ih.sublist (List.filter_sublist.map key)

/-- Elements with different keys are all kept. -/
theorem firstOfEach_of_nodup {as : List α} (h : (as.map key).Nodup) : firstOfEach key as = as := by
  induction as with
  | nil => rfl
  | cons a as ih =>
    obtain ⟨hfresh, hrest⟩ := List.nodup_cons.mp h
    rw [firstOfEach, ih hrest, List.filter_eq_self.mpr]
    intro b hb
    rw [bne_iff_ne]
    intro heq
    exact hfresh (List.mem_map.mpr ⟨b, hb, heq⟩)

/-- Which keys are kept does not matter to the others. -/
theorem filter_firstOfEach (p : String → Bool) (as : List α) :
    (firstOfEach key as).filter (fun a ↦ p (key a)) =
      firstOfEach key (as.filter fun a ↦ p (key a)) := by
  induction as with
  | nil => rfl
  | cons a as ih =>
    rw [firstOfEach]
    by_cases ha : p (key a) = true
    · simp only [List.filter_cons, ha, ↓reduceIte]
      rw [firstOfEach, ← ih, List.filter_filter, List.filter_filter]
      simp only [Bool.and_comm]
    · simp only [List.filter_cons, ha, Bool.false_eq_true, ↓reduceIte]
      rw [← ih, List.filter_filter]
      apply List.filter_congr
      intro b _
      rw [Bool.and_eq_left_iff_imp, bne_iff_ne]
      rintro hb heq
      exact ha (heq ▸ hb)

/-- One more element is kept if no element before it has its key. -/
theorem firstOfEach_concat (as : List α) (a : α) :
    firstOfEach key (as ++ [a]) =
      if key a ∈ as.map key then firstOfEach key as else firstOfEach key as ++ [a] := by
  induction as with
  | nil => rfl
  | cons b as ih =>
    rw [List.cons_append, firstOfEach, ih, firstOfEach, List.map_cons]
    by_cases hlater : key a ∈ as.map key
    · rw [if_pos hlater, if_pos (List.mem_cons_of_mem _ hlater)]
    · rw [if_neg hlater, List.filter_append]
      by_cases hfirst : key a = key b
      · simp [hfirst]
      · simp [hfirst, hlater]

/-- The keys are kept in the order of their first elements. -/
theorem map_firstOfEach (as : List α) :
    (firstOfEach key as).map key = (as.map key).eraseDups := by
  cases as with
  | nil => rfl
  | cons a as =>
    rw [firstOfEach, filter_firstOfEach key (· != key a), List.map_cons, List.map_cons,
      List.eraseDups_cons, map_firstOfEach, List.filter_map]
    rfl
termination_by as.length
decreasing_by
  exact Nat.lt_succ_of_le (List.length_filter_le _ as)

/-- So a list without its repetitions has none. -/
theorem nodup_eraseDups (keys : List String) : keys.eraseDups.Nodup := by
  have h := nodup_firstOfEach id keys
  rwa [map_firstOfEach, List.map_id] at h

end PipingAssembly

