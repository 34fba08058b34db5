import Mathlib.Data.List.Induction
import Mathlib.Data.List.Nodup
import PipingAssembly.Part.Basic

/-!
# Entries in key order

Putting entries into a list one after another leaves it in key order. None is lost where their keys
differ.
-/

namespace PipingAssembly

/-- Whether the keys of a list rise. -/
def KeysRise {α : Type} (entries : List (String × α)) : Prop :=
  entries.Pairwise fun a b ↦ a.1 < b.1

private theorem mem_insertSorted {α : Type} {key : String} {a : α} {entries : List (String × α)}
    {e : String × α} (h : e ∈ insertSorted key a entries) : e = (key, a) ∨ e ∈ entries := by
  induction entries with
  | nil => exact Or.inl (List.mem_singleton.mp h)
  | cons f rest ih =>
    obtain ⟨k, b⟩ := f
    rw [insertSorted] at h
    split at h
    · exact (List.mem_cons.mp h).imp_right (List.mem_cons_of_mem _)
    · split at h
      · exact List.mem_cons.mp h
      · obtain rfl | h := List.mem_cons.mp h
        · exact Or.inr List.mem_cons_self
        · exact (ih h).imp_right (List.mem_cons_of_mem _)

theorem keysRise_insertSorted {α : Type} {entries : List (String × α)} (h : KeysRise entries)
    (key : String) (a : α) : KeysRise (insertSorted key a entries) := by
  induction entries with
  | nil => exact List.pairwise_singleton _ _
  | cons f rest ih =>
    obtain ⟨k, b⟩ := f
    obtain ⟨hfirst, hrest⟩ := List.pairwise_cons.mp h
    rw [insertSorted]
    split
    case isTrue heq =>
      subst heq
      exact List.pairwise_cons.mpr ⟨hfirst, hrest⟩
    case isFalse hne =>
      split
      case isTrue hlt =>
        refine List.pairwise_cons.mpr ⟨?_, h⟩
        intro e he
        obtain rfl | he := List.mem_cons.mp he
        · exact hlt
        · exact String.lt_trans hlt (hfirst e he)
      case isFalse hge =>
        refine List.pairwise_cons.mpr ⟨?_, ih hrest⟩
        intro e he
        obtain rfl | he := mem_insertSorted he
        · exact Std.lt_of_le_of_ne (String.not_lt.mp hge) (Ne.symm hne)
        · exact hfirst e he

theorem keysRise_sortEntries {α : Type} (entries : List (String × α)) :
    KeysRise (sortEntries entries) := by
  suffices h : ∀ sorted : List (String × α), KeysRise sorted →
      KeysRise (entries.foldl (fun sorted e ↦ insertSorted e.1 e.2 sorted) sorted) from
    h [] List.Pairwise.nil
  induction entries with
  | nil => exact fun _ h ↦ h
  | cons e entries ih => exact fun sorted h ↦ ih _ (keysRise_insertSorted h e.1 e.2)

private theorem insertSorted_perm {α : Type} {key : String} {a : α} {entries : List (String × α)}
    (h : ∀ e ∈ entries, e.1 ≠ key) : (insertSorted key a entries).Perm ((key, a) :: entries) := by
  induction entries with
  | nil => exact .refl _
  | cons f rest ih =>
    obtain ⟨k, b⟩ := f
    rw [insertSorted, if_neg (Ne.symm (h (k, b) List.mem_cons_self))]
    split
    · exact .refl _
    · exact ((ih fun e he ↦ h e (List.mem_cons_of_mem _ he)).cons (k, b)).trans (.swap _ _ rest)

theorem sortEntries_concat {α : Type} (entries : List (String × α)) (e : String × α) :
    sortEntries (entries ++ [e]) = insertSorted e.1 e.2 (sortEntries entries) := by
  rw [sortEntries, List.foldl_concat]
  rfl

/-- Entries with different keys are all kept. -/
theorem sortEntries_perm {α : Type} {entries : List (String × α)}
    (h : (entries.map Prod.fst).Nodup) : (sortEntries entries).Perm entries := by
  induction entries using List.reverseRecOn with
  | nil => exact .refl _
  | append_singleton entries e ih =>
    rw [List.map_append, List.nodup_append] at h
    obtain ⟨hkeys, -, hdisjoint⟩ := h
    have hsorted := ih hkeys
    have hput : (sortEntries (entries ++ [e])).Perm (e :: sortEntries entries) := by
      rw [sortEntries_concat]
      exact insertSorted_perm fun f hf ↦
        hdisjoint f.1 (List.mem_map_of_mem (hsorted.mem_iff.mp hf)) e.1 List.mem_cons_self
    exact (hput.trans (hsorted.cons e)).trans (List.perm_append_singleton e entries).symm

theorem KeysRise.nodup {α : Type} {entries : List (String × α)} (h : KeysRise entries) :
    (entries.map Prod.fst).Nodup :=
  List.pairwise_map.mpr (h.imp Std.ne_of_lt)

/-- A list in key order stays as it is. -/
theorem sortEntries_of_keysRise {α : Type} {entries : List (String × α)} (h : KeysRise entries) :
    sortEntries entries = entries := by
  refine (sortEntries_perm h.nodup).eq_of_pairwise (fun e f _ _ hef hfe ↦ ?_)
    (keysRise_sortEntries entries) h
  exact absurd (String.lt_trans hef hfe) (String.lt_irrefl e.1)

end PipingAssembly
