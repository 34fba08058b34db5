import Mathlib.Data.List.Induction
import PipingAssembly.Proofs.Solver.Links

/-!
# Passes over the links

One link gives at most one instance a placement and takes none away. A pass that places nobody
leaves every link with both sides placed or neither. A run reaches such a state in at most as many
passes as there are instances to place, whatever larger bound it is given.
-/

namespace PipingAssembly

/-- The side of a link that has been placed. -/
def Link.origin (l : Link) : Direction → Nat
  | .forward => l.a
  | .backward => l.b

/-- The side of a link that gets its placement. -/
def Link.goal (l : Link) : Direction → Nat
  | .forward => l.b
  | .backward => l.a

namespace Slots

/-- The placement of the instance with an index. -/
def placed? (slots : Slots) (i : Nat) : Option Placement := slots[i]?.join

/-- Every placement stays where it is. -/
def Extends (slots slots' : Slots) : Prop :=
  ∀ i p, slots.placed? i = some p → slots'.placed? i = some p

/-- Each link has both sides placed or neither. -/
def Settled (slots : Slots) (ls : List Link) : Prop :=
  ∀ l ∈ ls, (slots.placed? l.a).isSome = (slots.placed? l.b).isSome

/-- Both sides of each link have a slot. -/
def Holds (slots : Slots) (ls : List Link) : Prop :=
  ∀ l ∈ ls, l.a < slots.length ∧ l.b < slots.length

theorem placed?_eq_some {slots : Slots} {i : Nat} {p : Placement} :
    slots.placed? i = some p ↔ slots[i]? = some (some p) := by
  rw [placed?, Option.join_eq_some_iff]

theorem placed?_set {slots : Slots} {i : Nat} (hi : i < slots.length) (p : Placement) (j : Nat) :
    placed? (slots.set i (some p)) j = if i = j then some p else slots.placed? j := by
  rw [placed?, List.getElem?_set]
  by_cases hij : i = j
  · subst hij
    simp [hi]
  · simp [hij, placed?]

theorem Extends.trans {s t u : Slots} (hst : s.Extends t) (htu : t.Extends u) : s.Extends u :=
  fun i p hp ↦ htu i p (hst i p hp)

theorem extends_set {slots : Slots} {i : Nat} (hi : i < slots.length)
    (hnone : slots.placed? i = none) (p : Placement) : slots.Extends (slots.set i (some p)) := by
  intro j q hq
  rw [placed?_set hi]
  split
  · next hij => simp [← hij, hnone] at hq
  · exact hq

/-! ### One link -/

variable (instances : List Instance) (policy : SolverPolicy Float)

/-- A link does nothing if both sides are placed or neither. Else it places the side that is not. -/
theorem step_cases (slots : Slots) (l : Link) :
    (Slots.step instances policy slots l = slots ∧
      (slots.placed? l.a).isSome = (slots.placed? l.b).isSome) ∨
    ∃ d origin, slots.placed? (l.origin d) = some origin ∧ slots.placed? (l.goal d) = none ∧
      Slots.step instances policy slots l =
        slots.set (l.goal d) (some (l.place d origin (familyAt instances l.a) policy)) := by
  cases ha : slots.placed? l.a with
  | none =>
    cases hb : slots.placed? l.b with
    | none =>
      left
      rw [placed?] at ha hb
      simp [Slots.step, ha, hb]
    | some origin =>
      refine Or.inr ⟨.backward, origin, hb, ha, ?_⟩
      rw [placed?] at ha hb
      simp [Slots.step, ha, hb, Link.goal]
  | some origin =>
    cases hb : slots.placed? l.b with
    | none =>
      refine Or.inr ⟨.forward, origin, ha, hb, ?_⟩
      rw [placed?] at ha hb
      simp [Slots.step, ha, hb, Link.goal]
    | some target =>
      left
      rw [placed?] at ha hb
      simp [Slots.step, ha, hb]

theorem step_of_settled {slots : Slots} {l : Link}
    (h : (slots.placed? l.a).isSome = (slots.placed? l.b).isSome) :
    Slots.step instances policy slots l = slots := by
  obtain ⟨hstep, -⟩ | ⟨d, origin, horigin, hgoal, -⟩ := step_cases instances policy slots l
  · exact hstep
  · cases d with
    | forward =>
      change slots.placed? l.a = some origin at horigin
      change slots.placed? l.b = none at hgoal
      rw [horigin, hgoal] at h
      cases h
    | backward =>
      change slots.placed? l.b = some origin at horigin
      change slots.placed? l.a = none at hgoal
      rw [horigin, hgoal] at h
      cases h

theorem step_forward {slots : Slots} {l : Link} {origin : Placement}
    (ha : slots.placed? l.a = some origin) (hb : slots.placed? l.b = none) :
    Slots.step instances policy slots l =
      slots.set l.b (some (l.place .forward origin (familyAt instances l.a) policy)) := by
  rw [placed?] at ha hb
  simp [Slots.step, ha, hb]

theorem length_step (slots : Slots) (l : Link) :
    (Slots.step instances policy slots l).length = slots.length := by
  obtain ⟨h, -⟩ | ⟨d, origin, -, -, h⟩ := step_cases instances policy slots l
  · rw [h]
  · rw [h, List.length_set]

private theorem goal_lt {slots : Slots} {l : Link}
    (hl : l.a < slots.length ∧ l.b < slots.length) (d : Direction) : l.goal d < slots.length := by
  cases d
  · exact hl.2
  · exact hl.1

theorem extends_step {slots : Slots} {l : Link} (hl : l.a < slots.length ∧ l.b < slots.length) :
    slots.Extends (Slots.step instances policy slots l) := by
  obtain ⟨h, -⟩ | ⟨d, origin, -, hgoal, h⟩ := step_cases instances policy slots l
  · rw [h]
    exact fun _ _ hp ↦ hp
  · rw [h]
    exact extends_set (goal_lt hl d) hgoal _

/-- A link that does something adds one placement. -/
theorem placedCount_step {slots : Slots} {l : Link}
    (hl : l.a < slots.length ∧ l.b < slots.length) :
    (Slots.step instances policy slots l = slots ∧
      (slots.placed? l.a).isSome = (slots.placed? l.b).isSome) ∨
    (Slots.step instances policy slots l).placedCount = slots.placedCount + 1 := by
  obtain h | ⟨d, origin, -, hgoal, h⟩ := step_cases instances policy slots l
  · exact Or.inl h
  · right
    have hlt := goal_lt hl d
    have hnone : (slots[l.goal d]).isSome = false := by
      rw [placed?, List.getElem?_eq_getElem hlt] at hgoal
      simpa using hgoal
    rw [h, placedCount, List.countP_set hlt, hnone]
    rfl

/-! ### One pass -/

variable {ls : List Link}

theorem length_pass (slots : Slots) :
    (Slots.pass instances policy ls slots).length = slots.length := by
  rw [Slots.pass]
  induction ls generalizing slots with
  | nil => rfl
  | cons l ls ih => rw [List.foldl_cons, ih, length_step]

/-- A pass only adds placements, and if it adds none then every link is settled. -/
theorem pass_cases {slots : Slots} (h : slots.Holds ls) :
    slots.placedCount ≤ (Slots.pass instances policy ls slots).placedCount ∧
      ((Slots.pass instances policy ls slots).placedCount = slots.placedCount →
        Slots.pass instances policy ls slots = slots ∧ slots.Settled ls) := by
  rw [Slots.pass]
  induction ls generalizing slots with
  | nil =>
    refine ⟨Nat.le_refl _, fun _ ↦ ⟨rfl, ?_⟩⟩
    intro l hl
    cases hl
  | cons l ls ih =>
    rw [List.foldl_cons]
    have hrest : (Slots.step instances policy slots l).Holds ls := by
      intro m hm
      rw [length_step]
      exact h m (List.mem_cons_of_mem l hm)
    obtain ⟨hle, heq⟩ := ih hrest
    obtain ⟨hstep, hl⟩ | hcount := placedCount_step instances policy (h l List.mem_cons_self)
    · rw [hstep] at hle heq ⊢
      refine ⟨hle, fun hpass ↦ ?_⟩
      obtain ⟨hfold, hsettled⟩ := heq hpass
      refine ⟨hfold, fun m hm ↦ ?_⟩
      cases List.mem_cons.mp hm with
      | inl hm => exact hm ▸ hl
      | inr hm => exact hsettled m hm
    · refine ⟨by omega, fun hpass ↦ ?_⟩
      omega

/-- Settled links do nothing. -/
theorem pass_of_settled {slots : Slots} (h : slots.Settled ls) :
    Slots.pass instances policy ls slots = slots := by
  rw [Slots.pass]
  induction ls with
  | nil => rfl
  | cons l ls ih =>
    rw [List.foldl_cons, step_of_settled instances policy (h l List.mem_cons_self)]
    exact ih fun m hm ↦ h m (List.mem_cons_of_mem l hm)

/-! ### A run -/

/-- What every link of a list keeps is kept by a run over it. -/
theorem run_preserves {P : Slots → Prop}
    (hstep : ∀ l ∈ ls, ∀ slots, P slots → P (Slots.step instances policy slots l))
    (bound done : Nat) {slots : Slots} (h : P slots) :
    P (Slots.run instances policy ls bound done slots).2 := by
  have hpass : ∀ slots, P slots → P (Slots.pass instances policy ls slots) := by
    intro slots hslots
    exact List.foldlRecOn ls _ hslots fun s hs l hl ↦ hstep l hl s hs
  induction bound generalizing done slots with
  | zero => exact h
  | succ bound ih =>
    rw [Slots.run]
    split
    · exact h
    · dsimp only
      split
      · exact hpass slots h
      · exact ih (done + 1) (hpass slots h)

private theorem all_isSome_iff {slots : Slots} :
    slots.all (·.isSome) = true ↔ slots.placedCount = slots.length := by
  rw [placedCount, List.countP_eq_length, List.all_eq_true]

private theorem settled_of_all {slots : Slots} (hholds : slots.Holds ls)
    (h : slots.all (·.isSome) = true) : slots.Settled ls := by
  have hplaced : ∀ i, i < slots.length → (slots.placed? i).isSome = true := by
    intro i hi
    rw [placed?, List.getElem?_eq_getElem hi]
    exact List.all_eq_true.mp h _ (List.getElem_mem hi)
  intro l hl
  rw [hplaced l.a (hholds l hl).1, hplaced l.b (hholds l hl).2]

/-- Where one pass settles all links a run ends with the placements of that pass, after at most one
more pass. -/
theorem run_of_settled_pass {slots : Slots} (hholds : slots.Holds ls)
    (h : (Slots.pass instances policy ls slots).Settled ls) {bound : Nat} (hbound : 1 ≤ bound)
    (done : Nat) :
    (Slots.run instances policy ls bound done slots).2 = Slots.pass instances policy ls slots ∧
      (Slots.run instances policy ls bound done slots).1 ≤ done + 2 := by
  obtain ⟨bound, rfl⟩ := Nat.exists_eq_add_of_le' hbound
  rw [Slots.run]
  split
  · next hall =>
    have hsettled := settled_of_all hholds hall
    exact ⟨(pass_of_settled instances policy hsettled).symm, Nat.le_add_right _ _⟩
  · dsimp only
    split
    · exact ⟨rfl, Nat.le_succ _⟩
    · -- the second pass has nothing left to do
      cases bound with
      | zero => exact ⟨rfl, Nat.le_succ _⟩
      | succ bound =>
        rw [Slots.run, pass_of_settled instances policy h]
        split
        · exact ⟨rfl, Nat.le_succ _⟩
        · exact ⟨by simp, by simp⟩

/-- A bound of as many passes as there are instances to place is never what ends a run: the links
are settled, after at most so many passes. -/
theorem run_settled (bound done : Nat) {slots : Slots} (hholds : slots.Holds ls)
    (hbound : slots.length ≤ slots.placedCount + bound) :
    (Slots.run instances policy ls bound done slots).2.Settled ls ∧
      (Slots.run instances policy ls bound done slots).1 + slots.placedCount ≤
        done + slots.length := by
  have hcount : slots.placedCount ≤ slots.length := List.countP_le_length
  induction bound generalizing done slots with
  | zero =>
    have hall : slots.all (·.isSome) = true := all_isSome_iff.mpr (by omega)
    rw [Slots.run]
    exact ⟨settled_of_all hholds hall, by dsimp only; omega⟩
  | succ bound ih =>
    rw [Slots.run]
    split
    · next hall => exact ⟨settled_of_all hholds hall, by dsimp only; omega⟩
    · next hall =>
      have hlt : slots.placedCount < slots.length :=
        Nat.lt_of_le_of_ne hcount fun heq ↦ hall (all_isSome_iff.mpr heq)
      obtain ⟨hle, hstill⟩ := pass_cases instances policy hholds
      have hlength : (Slots.pass instances policy ls slots).length = slots.length :=
        length_pass instances policy slots
      dsimp only
      split
      · next hsame =>
        obtain ⟨hpass, hsettled⟩ := hstill hsame
        rw [hpass]
        exact ⟨hsettled, by dsimp only; omega⟩
      · next hmore =>
        have hnext : (Slots.pass instances policy ls slots).Holds ls := by
          intro l hl
          rw [hlength]
          exact hholds l hl
        obtain ⟨hsettled, hpasses⟩ :=
          ih (done + 1) hnext (by omega) List.countP_le_length
        exact ⟨hsettled, by omega⟩

end Slots

end PipingAssembly
