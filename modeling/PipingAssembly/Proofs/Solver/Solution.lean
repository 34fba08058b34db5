import PipingAssembly.Proofs.Solver.Completeness
import PipingAssembly.Proofs.Solver.Origins

/-!
# What solving answers

Filling the grid leaves the placements found by the passes where they are and gives the other
instances the next slots. So there is one placement for each instance, and solving succeeds exactly
if no id occurs twice.
-/

namespace PipingAssembly

/-! ### The grid -/

section Grid

variable (policy : SolverPolicy Float)

private theorem Slots.Labelled.tail {s : Option Placement} {slots : Slots} {id : String}
    {ids : List String} (h : Slots.Labelled (s :: slots) (id :: ids)) :
    Slots.Labelled slots ids where
  length_eq := Nat.succ.inj h.length_eq
  id_eq i p hp := h.id_eq (i + 1) p hp

/-- There is one placement for each instance, in order. -/
theorem map_instanceId_fillGrid {instances : List Instance} {slots : Slots}
    (h : slots.Labelled (idsOf instances)) (k : Nat) :
    (fillGrid policy k instances slots).map (·.instanceId) = idsOf instances := by
  induction instances generalizing slots k with
  | nil => rfl
  | cons inst instances ih =>
    cases slots with
    | nil => cases h.length_eq
    | cons s slots =>
      cases s with
      | none =>
        rw [fillGrid, List.map_cons, ih h.tail]
        rfl
      | some p =>
        have hid : inst.id = p.instanceId := Option.some.inj (h.id_eq 0 p rfl)
        rw [fillGrid, List.map_cons, ih h.tail, ← hid]
        rfl

/-- A placement that was found stays, and an instance without one gets a slot of the grid. -/
theorem getElem?_fillGrid {instances : List Instance} {slots : Slots}
    (h : slots.length = instances.length) (k i : Nat) :
    match slots.placed? i with
    | some p => (fillGrid policy k instances slots)[i]? = some p
    | none => ∀ p, (fillGrid policy k instances slots)[i]? = some p → p.isFallback = true := by
  induction instances generalizing slots k i with
  | nil =>
    cases slots with
    | nil => intro p hp; cases hp
    | cons s slots => cases h
  | cons inst instances ih =>
    cases slots with
    | nil => cases h
    | cons s slots =>
      cases i with
      | zero =>
        cases s with
        | none =>
          intro p hp
          cases hp
          rfl
        | some p => rfl
      | succ i =>
        cases s with
        | none => exact ih (Nat.succ.inj h) (k + 1) i
        | some p => exact ih (Nat.succ.inj h) k i

/-- The instances on the grid have the slots one after the other. -/
theorem getElem?_filter_fillGrid {instances : List Instance} {slots : Slots}
    (h : ∀ i p, slots.placed? i = some p → p.isFallback = false) {k n : Nat} {p : Placement}
    (hp : ((fillGrid policy k instances slots).filter (·.isFallback))[n]? = some p) :
    p.source = .fallback (UInt64.ofNat (k + n)) ∧
      p.pose = ⟨gridPosition policy (k + n), .zero⟩ := by
  induction instances generalizing slots k n with
  | nil => cases hp
  | cons inst instances ih =>
    cases slots with
    | nil => cases hp
    | cons s slots =>
      have htail : ∀ i q, Slots.placed? slots i = some q → q.isFallback = false :=
        fun i q hq ↦ h (i + 1) q hq
      cases s with
      | none =>
        rw [fillGrid, List.filter_cons_of_pos rfl] at hp
        cases n with
        | zero =>
          cases hp
          exact ⟨rfl, rfl⟩
        | succ n =>
          rw [Nat.add_comm n 1, ← Nat.add_assoc]
          exact ih htail hp
      | some q =>
        have hq : ¬ q.isFallback = true := by
          rw [h 0 q rfl]
          exact Bool.false_ne_true
        rw [fillGrid, List.filter_cons_of_neg hq] at hp
        exact ih htail hp

/-- The warning about a placement on the grid. -/
def Placement.fallbackWarning? (p : Placement) : Option Warning :=
  match p.source with
  | .fallback slot => some (.fallbackPlacement p.instanceId slot p.pose.position)
  | _ => none

/-- Where no placement that was found is on the grid, the warnings are those about the placements
that are. -/
theorem gridWarnings_eq {instances : List Instance} {slots : Slots}
    (h : ∀ p, some p ∈ slots → p.fallbackWarning? = none) (k : Nat) :
    gridWarnings policy k instances slots =
      (fillGrid policy k instances slots).filterMap (·.fallbackWarning?) := by
  induction instances generalizing slots k with
  | nil => rfl
  | cons inst instances ih =>
    cases slots with
    | nil => rfl
    | cons s slots =>
      have htail : ∀ p, some p ∈ slots → p.fallbackWarning? = none :=
        fun p hp ↦ h p (List.mem_cons_of_mem s hp)
      cases s with
      | none =>
        rw [gridWarnings, fillGrid, ih htail]
        rfl
      | some p =>
        rw [gridWarnings, fillGrid, ih htail, List.filterMap_cons_none (h p List.mem_cons_self)]

end Grid

/-! ### Solutions -/

section Solution

variable (instances : List Instance) (constraints : List Constraint) (policy : SolverPolicy Float)

/-- The index of the base of a run. -/
def baseOf : Option Nat := baseIndex instances.length (links instances constraints)

/-- How many passes are run, and the placements after them. -/
def spread : Nat × Slots :=
  Slots.run instances policy (links instances constraints) (passBound policy instances.length) 0
    (initialSlots instances (baseOf instances constraints))

/-- What solving answers if no id occurs twice. -/
def solution : Solution where
  placements := fillGrid policy 0 instances (spread instances constraints policy).2
  base := (baseOf instances constraints).bind fun b ↦ instances[b]?.map (·.id)
  passes := (spread instances constraints policy).1
  warnings := (unknownEndpoints instances constraints).map (fun (c, i) ↦ .unknownEndpoint c i) ++
    (fillGrid policy 0 instances (spread instances constraints policy).2).filterMap
      (·.fallbackWarning?)

/-- The placements after the passes are labelled, and none has been lost. -/
theorem labelled_spread :
    (spread instances constraints policy).2.Labelled (idsOf instances) ∧
      (initialSlots instances (baseOf instances constraints)).Extends
        (spread instances constraints policy).2 := by
  refine Slots.run_preserves instances policy
    (P := fun slots ↦ slots.Labelled (idsOf instances) ∧
      (initialSlots instances (baseOf instances constraints)).Extends slots)
    (fun l hl slots hslots ↦ ?_) _ _ ⟨labelled_initialSlots _ _, fun _ _ hp ↦ hp⟩
  have hholds : slots.Holds (links instances constraints) := hslots.1.holds
  exact ⟨hslots.1.step (joins_of_mem_links hl).2,
    hslots.2.trans (Slots.extends_step instances policy (hholds l hl))⟩

theorem length_spread : (spread instances constraints policy).2.length = instances.length := by
  rw [(labelled_spread instances constraints policy).1.length_eq, List.length_map]

/-- With distinct ids every placement after the passes has a trail to the base. -/
theorem traced_spread (hids : (idsOf instances).Nodup) :
    (spread instances constraints policy).2.Traced instances constraints policy
      (baseOf instances constraints) := by
  have h : (spread instances constraints policy).2.Labelled (idsOf instances) ∧
      (spread instances constraints policy).2.Traced instances constraints policy
        (baseOf instances constraints) := by
    refine Slots.run_preserves instances policy
      (P := fun slots ↦ slots.Labelled (idsOf instances) ∧
        slots.Traced instances constraints policy (baseOf instances constraints))
      (fun l hl slots hslots ↦ ?_) _ _ ⟨labelled_initialSlots _ _, traced_initialSlots _⟩
    exact ⟨hslots.1.step (joins_of_mem_links hl).2, hslots.2.step hslots.1 hids hl⟩
  exact h.2

/-- No placement after the passes is on the grid. -/
theorem fallbackWarning?_of_mem_spread {p : Placement}
    (hp : some p ∈ (spread instances constraints policy).2) : p.fallbackWarning? = none := by
  refine Slots.run_preserves instances policy
    (P := fun slots ↦ ∀ p, some p ∈ slots → p.fallbackWarning? = none)
    (fun l _ slots hslots ↦ ?_) _ _ ?_ p hp
  · obtain ⟨heq, -⟩ | ⟨d, origin, -, -, heq⟩ := Slots.step_cases instances policy slots l
    · rw [heq]
      exact hslots
    · rw [heq]
      intro q hq
      obtain hq | hq := List.mem_or_eq_of_mem_set hq
      · exact hslots q hq
      · cases hq
        rfl
  · intro q hq
    obtain ⟨i, hi⟩ := List.mem_iff_getElem?.mp hq
    obtain ⟨-, inst, -, rfl⟩ := placed?_initialSlots.mp (Slots.placed?_eq_some.mpr hi)
    rfl

/-- There is one placement for each instance, in order. -/
theorem map_instanceId_solution :
    (solution instances constraints policy).placements.map (·.instanceId) = idsOf instances :=
  map_instanceId_fillGrid policy (labelled_spread instances constraints policy).1 0

theorem length_placements :
    (solution instances constraints policy).placements.length = instances.length := by
  have hlength := congrArg List.length (map_instanceId_solution instances constraints policy)
  rwa [List.length_map, List.length_map] at hlength

end Solution

/-! ### Success -/

/-- Placements of exactly the instances are complete if no id occurs twice. -/
theorem incomplete?_self (ids : List String) : incomplete? ids ids = none ↔ ids.Nodup := by
  rw [incomplete?_eq_none_iff, List.nodup_iff_count_eq_one]

section Solving

variable {instances : List Instance} {constraints : List Constraint} {policy : SolverPolicy Float}

/-- Every instance has the placement at its place, so the ids of the instances tell whether solving
succeeds. -/
theorem solve_eq :
    solve instances constraints policy =
      match incomplete? (idsOf instances) (idsOf instances) with
      | some e => .error e
      | none => .ok (solution instances constraints policy) := by
  have hwarnings : gridWarnings policy 0 instances (spread instances constraints policy).2 = _ :=
    gridWarnings_eq policy (fun _ ↦ fallbackWarning?_of_mem_spread instances constraints policy) 0
  rw [← congrArg (incomplete? (idsOf instances))
    (map_instanceId_solution instances constraints policy), solution, ← hwarnings]
  rfl

/-- Solving succeeds exactly if no id occurs twice. -/
theorem solve_eq_ok {s : Solution} :
    solve instances constraints policy = .ok s ↔
      (idsOf instances).Nodup ∧ s = solution instances constraints policy := by
  rw [solve_eq, ← incomplete?_self]
  cases incomplete? (idsOf instances) (idsOf instances) with
  | none => simp [eq_comm]
  | some e => simp

/-- A placement of a solution comes from the passes or from the grid. -/
theorem mem_placements_cases {p : Placement}
    (hp : p ∈ (solution instances constraints policy).placements) :
    (∃ i, (spread instances constraints policy).2.placed? i = some p) ∨ p.isFallback = true := by
  obtain ⟨i, hi⟩ := List.mem_iff_getElem?.mp hp
  have hfill := getElem?_fillGrid policy (length_spread instances constraints policy) 0 i
  split at hfill
  · next q hq => exact Or.inl ⟨i, hq.trans (hfill.symm.trans hi)⟩
  · exact Or.inr (hfill p hi)

/-- What the passes have placed stays in the solution, at its index. -/
theorem getElem?_placements_of_placed? {i : Nat} {p : Placement}
    (hp : (spread instances constraints policy).2.placed? i = some p) :
    (solution instances constraints policy).placements[i]? = some p := by
  have hfill := getElem?_fillGrid policy (length_spread instances constraints policy) 0 i
  rwa [hp] at hfill

theorem mem_placements_of_placed? {i : Nat} {p : Placement}
    (hp : (spread instances constraints policy).2.placed? i = some p) :
    p ∈ (solution instances constraints policy).placements :=
  List.mem_iff_getElem?.mpr ⟨i, getElem?_placements_of_placed? hp⟩

/-- What the passes have not placed is on the grid, at its index. -/
theorem exists_fallback_of_placed? {i : Nat} {inst : Instance} (hinst : instances[i]? = some inst)
    (hnone : (spread instances constraints policy).2.placed? i = none) :
    ∃ p, (solution instances constraints policy).placements[i]? = some p ∧
      p.instanceId = inst.id ∧ p.isFallback = true := by
  have hid := congrArg (·[i]?) (map_instanceId_solution instances constraints policy)
  simp only [List.getElem?_map, hinst] at hid
  obtain ⟨p, hp, hpid⟩ := Option.map_eq_some_iff.mp hid
  have hfill := getElem?_fillGrid policy (length_spread instances constraints policy) 0 i
  rw [hnone] at hfill
  exact ⟨p, hp, hpid, hfill p hp⟩

/-! ### The base -/

theorem baseIndex_lt {count b : Nat} {ls : List Link} (h : baseIndex count ls = some b) :
    b < count := by
  rw [baseIndex] at h
  split at h
  · next i hi =>
    cases h
    exact List.mem_range.mp (List.mem_of_find?_eq_some hi)
  · split at h
    · next i hi =>
      cases h
      exact List.mem_range.mp (List.mem_of_find?_eq_some hi)
    · exact List.mem_range.mp (List.mem_of_head? h)

theorem exists_baseIndex {count : Nat} (h : count ≠ 0) (ls : List Link) :
    ∃ b, baseIndex count ls = some b := by
  rw [baseIndex]
  split
  · exact ⟨_, rfl⟩
  · split
    · exact ⟨_, rfl⟩
    · cases count with
      | zero => exact absurd rfl h
      | succ n => exact ⟨0, by rw [List.head?_range, if_neg h]⟩

end Solving

/-- Where there are instances one of them is the base, and its placement is kept by all passes. -/
theorem exists_base {instances : List Instance} (h : instances ≠ []) (constraints : List Constraint)
    (policy : SolverPolicy Float) :
    ∃ b inst, baseOf instances constraints = some b ∧ instances[b]? = some inst ∧
      (solution instances constraints policy).base = some inst.id ∧
      (spread instances constraints policy).2.placed? b = some ⟨inst.id, .origin, .base⟩ := by
  obtain ⟨b, hb⟩ := exists_baseIndex (mt List.length_eq_zero_iff.mp h)
    (links instances constraints)
  have hinst := List.getElem?_eq_getElem (baseIndex_lt hb)
  refine ⟨b, _, hb, hinst, ?_, ?_⟩
  · rw [solution, baseOf, hb, Option.bind_some, hinst]
    rfl
  · apply (labelled_spread instances constraints policy).2
    exact placed?_initialSlots.mpr ⟨hb, _, hinst, rfl⟩

end PipingAssembly
