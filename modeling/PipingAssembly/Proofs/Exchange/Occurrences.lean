import Mathlib.Data.List.Forall2
import Mathlib.Data.List.Nodup
import PipingAssembly.Exchange.Occurrence
import PipingAssembly.Proofs.Decimal.Numerals
import PipingAssembly.Proofs.Exchange.Segments
import PipingAssembly.Proofs.Lists
import PipingAssembly.Proofs.Solver.Links

/-!
# Occurrences in exchange files

An instance of an exchange file has its name, a number sign and a number for its id, whatever signs
the name itself holds. The numbers count the instances of a name. With usages each one that has a
name gives an instance, in the frame of the usage. Without usages each product gives one, in the
frame at the same place.
-/

namespace PipingAssembly.Exchange

/-! ### Ids of occurrences -/

/-- The id of the instance that is the `n`-th one of a name. -/
def occurrenceId (name : String) (n : Nat) : String := name ++ "#" ++ Decimal.natText n

theorem toList_occurrenceId (name : String) (n : Nat) :
    (occurrenceId name n).toList = name.toList ++ '#' :: (Decimal.natText n).toList := by
  rw [occurrenceId, String.toList_append, String.toList_append, List.append_assoc]
  rfl

private theorem sign_notMem_natText (n : Nat) : '#' ∉ (Decimal.natText n).toList := by
  intro h
  exact absurd (Decimal.isDigit_of_mem_natText h) (by decide)

/-- A name and a number can be read off their id, also if the name holds number signs. -/
theorem occurrenceId_inj {name name' : String} {n n' : Nat} :
    occurrenceId name n = occurrenceId name' n' ↔ name = name' ∧ n = n' := by
  constructor
  · intro h
    have hlist := congrArg String.toList h
    rw [toList_occurrenceId, toList_occurrenceId] at hlist
    obtain ⟨hname, hnumber⟩ :=
      eq_of_append_last_mark (sign_notMem_natText n) (sign_notMem_natText n') hlist
    exact ⟨String.toList_inj.mp hname, Decimal.natText_inj.mp (String.toList_inj.mp hnumber)⟩
  · rintro ⟨rfl, rfl⟩
    rfl

/-! ### Instances of occurrences -/

/-- An instance has the name of an occurrence, and its pose is that of the frame. Without a frame it
is at the origin and not rotated. -/
structure Shows (i : Instance) (name : String) (frame : Option Frame) : Prop where
  name_eq : i.name = name
  partId_eq : i.partId = name
  pose_eq : i.pose =
    frame.elim ⟨.zero, .zero⟩ fun f ↦ ⟨f.origin.getD .zero, frameRotation f.z f.x⟩

theorem id_toInstance (o : Occurrence) (n : Nat) :
    (o.toInstance n).id = occurrenceId o.name n := by
  unfold Occurrence.toInstance
  cases o.frame <;> rfl

/-- An instance is that of an occurrence, with a number past those of its name that come before. -/
theorem exists_toInstance {before : List String} {os : List Occurrence} {i : Instance}
    (hi : i ∈ numberOccurrences before os) :
    ∃ (o : Occurrence) (n : Nat), i = o.toInstance n ∧ before.count o.name < n := by
  induction os generalizing before with
  | nil => cases hi
  | cons o os ih =>
    cases List.mem_cons.mp hi with
    | inl hi => exact ⟨o, before.count o.name + 1, hi, Nat.lt_succ_self _⟩
    | inr hi =>
      obtain ⟨o', n, heq, hn⟩ := ih hi
      exact ⟨o', n, heq, Nat.lt_of_le_of_lt List.count_le_count_cons hn⟩

theorem exists_occurrenceId {before : List String} {os : List Occurrence} {i : Instance}
    (hi : i ∈ numberOccurrences before os) :
    ∃ name n, i.id = occurrenceId name n ∧ before.count name < n := by
  obtain ⟨o, n, rfl, hn⟩ := exists_toInstance hi
  exact ⟨o.name, n, id_toInstance o n, hn⟩

/-- Occurrences of one name have different numbers, so no id occurs twice. -/
theorem nodup_numberOccurrences (before : List String) (os : List Occurrence) :
    (idsOf (numberOccurrences before os)).Nodup := by
  induction os generalizing before with
  | nil => exact List.nodup_nil
  | cons o os ih =>
    refine List.nodup_cons.mpr ⟨fun hmem ↦ ?_, ih _⟩
    obtain ⟨i, hi, hsame⟩ := List.mem_map.mp hmem
    obtain ⟨name, n, hid, hn⟩ := exists_occurrenceId hi
    obtain ⟨rfl, rfl⟩ := occurrenceId_inj.mp (hid.symm.trans (hsame.trans (id_toInstance o _)))
    rw [List.count_cons_self] at hn
    exact Nat.lt_irrefl _ hn

/-- The id of an instance of an exchange file holds a number sign. -/
theorem sign_mem_id {a : Assembly} {i : Instance} (hi : i ∈ a.instances) : '#' ∈ i.id.toList := by
  obtain ⟨name, n, hid, -⟩ := exists_occurrenceId hi
  rw [hid, toList_occurrenceId]
  exact List.mem_append_right _ List.mem_cons_self

/-- It is an instance that was not added to an assembly. -/
theorem isSynthesized_eq_false {a : Assembly} {i : Instance} (hi : i ∈ a.instances) :
    i.isSynthesized = false := by
  obtain ⟨o, n, rfl, -⟩ := exists_toInstance hi
  unfold Occurrence.toInstance
  cases o.frame <;> rfl

/-! ### Instances of an assembly -/

/-- The name of the instance that a usage gives: that of its child product, or else its own. -/
def Assembly.usageName (a : Assembly) (u : Usage) : String :=
  ((u.childProduct.bind a.product?).map (·.name)).getD u.occurrence

/-- What is read from entities and has their numbers keeps their order. -/
theorem Ordered.filterMap {β : Type} {es : List Entity} (h : Ordered es) {read : Entity → Option β}
    {id : β → EntityId} (hid : ∀ e x, read e = some x → id x = e.id) :
    (es.filterMap read).Pairwise fun x y ↦ id x < id y := by
  refine List.Pairwise.filterMap read (fun e f hlt x hx y hy ↦ ?_) h
  rw [hid e x hx, hid f y hy]
  exact hlt

namespace Assembly

variable {a : Assembly}

theorem occurrences_of_no_usages (h : a.usages = []) :
    a.occurrences = a.products.mapIdx fun i p ↦ ⟨p.name, a.frames[i]?⟩ := by
  rw [occurrences, h, List.isEmpty_nil, if_pos rfl]

/-- Usages without a name give no occurrence. -/
theorem occurrences_of_usages (h : a.usages ≠ []) :
    a.occurrences = (a.usages.filter fun u ↦ a.usageName u ≠ "").map
      fun u ↦ ⟨a.usageName u, u.placement.bind a.frame?⟩ := by
  rw [occurrences, List.isEmpty_eq_false_iff.mpr h, if_neg Bool.false_ne_true,
    ← List.filterMap_eq_map', List.filterMap_filter]
  refine List.filterMap_congr fun u _ ↦ ?_
  simp [usageName]

end Assembly

/-- A name that looks like an id has ids of its own. -/
example :
    idsOf (numberOccurrences [] (["A#1", "A", "A#1", "A"].map fun name ↦ ⟨name, none⟩)) =
      ["A#1#1", "A#1", "A#1#2", "A#2"] := by
  rfl

end PipingAssembly.Exchange
