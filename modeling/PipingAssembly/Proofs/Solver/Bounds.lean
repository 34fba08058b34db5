import PipingAssembly.Proofs.Solver.Reach

/-!
# The bound on passes

A run of passes depends on its bound only through the number of passes that it makes. There are as
many passes as are needed, at most one for each instance, unless the bound comes first. The bound
is a product of 64-bit words: it is large enough as long as the product does not overflow, and a
product that does may leave any number of passes, also none.
-/

namespace PipingAssembly

/-- A policy with another number of passes for each part. -/
def SolverPolicy.withPasses {α : Type} (policy : SolverPolicy α) (q : UInt64) : SolverPolicy α :=
  { policy with passesPerPart := q }

/-! ### Runs with different bounds -/

namespace Slots

section Run

variable (instances : List Instance) (policy : SolverPolicy Float) (ls : List Link)

/-- The passes that are made are counted from those that were. -/
theorem le_run (bound done : Nat) (slots : Slots) :
    done ≤ (Slots.run instances policy ls bound done slots).1 := by
  induction bound generalizing done slots with
  | zero => exact Nat.le_refl done
  | succ bound ih =>
    rw [Slots.run]
    split
    · exact Nat.le_refl done
    · dsimp only
      split
      · exact Nat.le_succ done
      · exact Nat.le_of_succ_le (ih (done + 1) _)

/-- No more passes are made than the bound allows. -/
theorem run_le (bound done : Nat) (slots : Slots) :
    (Slots.run instances policy ls bound done slots).1 ≤ done + bound := by
  induction bound generalizing done slots with
  | zero => exact Nat.le_refl done
  | succ bound ih =>
    rw [Slots.run]
    split
    · exact Nat.le_add_right done _
    · dsimp only
      split
      · omega
      · have hrest := ih (done + 1) (Slots.pass instances policy ls slots)
        omega

/-- A run that makes no more passes than a smaller bound allows is the same with that bound. -/
theorem run_eq_of_le {bound bound' : Nat} (hle : bound ≤ bound') {done : Nat} {slots : Slots}
    (h : (Slots.run instances policy ls bound' done slots).1 ≤ done + bound) :
    Slots.run instances policy ls bound done slots =
      Slots.run instances policy ls bound' done slots := by
  induction bound generalizing bound' done slots with
  | zero =>
    cases bound' with
    | zero => rfl
    | succ bound' =>
      rw [Slots.run] at h ⊢
      rw [Slots.run]
      split at h
      · next hall => rw [if_pos hall]
      · -- one pass is more than there may be
        dsimp only at h
        split at h
        · omega
        · have hrest := le_run instances policy ls bound' (done + 1)
            (Slots.pass instances policy ls slots)
          omega
  | succ bound ih =>
    obtain ⟨bound', rfl⟩ := Nat.exists_eq_add_of_le' (Nat.le_of_add_left_le hle)
    rw [Slots.run] at h
    rw [Slots.run, Slots.run]
    split
    · rfl
    · next hall =>
      rw [if_neg hall] at h
      dsimp only at h ⊢
      split
      · rfl
      · next hmore =>
        rw [if_neg hmore] at h
        apply ih
        · omega
        · omega

/-- Runs are the same if they make the same number of passes. -/
theorem run_eq_iff (bound bound' done : Nat) (slots : Slots) :
    Slots.run instances policy ls bound done slots =
        Slots.run instances policy ls bound' done slots ↔
      (Slots.run instances policy ls bound done slots).1 =
        (Slots.run instances policy ls bound' done slots).1 := by
  constructor
  · exact congrArg Prod.fst
  · intro h
    rcases Nat.le_total bound bound' with hle | hle
    · apply run_eq_of_le instances policy ls hle
      rw [← h]
      exact run_le instances policy ls bound done slots
    · symm
      apply run_eq_of_le instances policy ls hle
      rw [h]
      exact run_le instances policy ls bound' done slots

/-- The number of passes for each part has no effect on a pass. -/
theorem pass_withPasses (q : UInt64) :
    Slots.pass instances (policy.withPasses q) ls = Slots.pass instances policy ls :=
  rfl

theorem run_withPasses (q : UInt64) (bound done : Nat) (slots : Slots) :
    Slots.run instances (policy.withPasses q) ls bound done slots =
      Slots.run instances policy ls bound done slots := by
  induction bound generalizing done slots with
  | zero => rfl
  | succ bound ih => simp only [Slots.run, pass_withPasses, ih]

end Run

end Slots

/-! ### Solutions with different bounds -/

section Solve

variable (instances : List Instance) (constraints : List Constraint) (policy : SolverPolicy Float)

/-- The number of passes for each part has no effect on the grid. -/
theorem fillGrid_withPasses (q : UInt64) (slot : Nat) (slots : Slots) :
    fillGrid (policy.withPasses q) slot instances slots = fillGrid policy slot instances slots := by
  induction instances generalizing slot slots with
  | nil => rfl
  | cons i instances ih =>
    cases slots with
    | nil => rfl
    | cons s slots =>
      cases s with
      | none => exact congrArg _ (ih (slot + 1) slots)
      | some p => exact congrArg _ (ih slot slots)

theorem passBound_withPasses (q : UInt64) (count : Nat) :
    passBound (policy.withPasses q) count = q.toNat * count % UInt64.size := by
  rw [passBound, SolverPolicy.withPasses, UInt64.toNat_mul, UInt64.toNat_ofNat', Nat.mul_mod_mod]

/-- The run of passes with a number of passes for each part. -/
theorem spread_withPasses (q : UInt64) :
    spread instances constraints (policy.withPasses q) =
      Slots.run instances policy (links instances constraints)
        (q.toNat * instances.length % UInt64.size) 0
        (initialSlots instances (baseOf instances constraints)) := by
  rw [spread, Slots.run_withPasses, passBound_withPasses]

/-- Numbers of passes for each part give the same answer if they give the same run of passes, and
that is if they give the same number of passes. -/
theorem solve_withPasses_eq_iff_spread (q q' : UInt64) :
    solve instances constraints (policy.withPasses q) =
        solve instances constraints (policy.withPasses q') ↔
      ((idsOf instances).Nodup →
        (spread instances constraints (policy.withPasses q)).1 =
          (spread instances constraints (policy.withPasses q')).1) := by
  by_cases hids : (idsOf instances).Nodup
  · have hsolve (r : UInt64) : solve instances constraints (policy.withPasses r) =
        .ok (solution instances constraints (policy.withPasses r)) :=
      solve_eq_ok.mpr ⟨hids, rfl⟩
    rw [hsolve, hsolve, Except.ok.injEq]
    constructor
    · intro h _
      exact congrArg Solution.passes h
    · intro h
      have hruns := h hids
      rw [spread_withPasses, spread_withPasses, ← Slots.run_eq_iff, ← spread_withPasses,
        ← spread_withPasses] at hruns
      simp only [solution, hruns, fillGrid_withPasses]
  · have hincomplete : incomplete? (idsOf instances) (idsOf instances) ≠ none :=
      mt (incomplete?_self _).mp hids
    refine iff_of_true ?_ fun h ↦ absurd h hids
    rw [solve_eq, solve_eq]
    cases h : incomplete? (idsOf instances) (idsOf instances) with
    | none => exact absurd h hincomplete
    | some e => rfl

/-- As many passes as there are instances are enough, so a run with any bound is the same exactly if
the bound leaves the passes that it needs. -/
theorem spread_withPasses_eq_iff (hcount : instances.length < UInt64.size) (q : UInt64) :
    (spread instances constraints (policy.withPasses q)).1 =
        (spread instances constraints (policy.withPasses 1)).1 ↔
      (spread instances constraints (policy.withPasses 1)).1 ≤
        q.toNat * instances.length % UInt64.size := by
  have hone : (1 : UInt64).toNat * instances.length % UInt64.size = instances.length := by
    rw [UInt64.toNat_one, Nat.one_mul, Nat.mod_eq_of_lt hcount]
  constructor
  · intro h
    have hle := Slots.run_le instances policy (links instances constraints)
      (q.toNat * instances.length % UInt64.size) 0
      (initialSlots instances (baseOf instances constraints))
    rwa [← spread_withPasses, h, Nat.zero_add] at hle
  · intro h
    apply congrArg Prod.fst
    rcases Nat.le_total (q.toNat * instances.length % UInt64.size) instances.length with hle | hle
    · rw [spread_withPasses, hone] at h
      rw [spread_withPasses, spread_withPasses, hone]
      apply Slots.run_eq_of_le instances policy _ hle
      omega
    · have hpasses : (spread instances constraints (policy.withPasses q)).1 ≤ instances.length := by
        apply (settled_spread constraints _).2
        rw [passBound_withPasses]
        exact hle
      rw [spread_withPasses] at hpasses
      symm
      rw [spread_withPasses, spread_withPasses, hone]
      apply Slots.run_eq_of_le instances policy _ hle
      omega

end Solve

/-- With any number of passes for each part the answer is that with one pass for each part exactly
if the same number of passes is made. That is if the product of 64-bit words leaves at least the
passes that are made with one for each part, for which a product without overflow always does. -/
theorem solve_withPasses_one_iff (instances : List Instance) (constraints : List Constraint)
    (policy : SolverPolicy Float) :
    let answer := solve instances constraints policy
    let plain := solve instances constraints (policy.withPasses 1)
    let product := policy.passesPerPart.toNat * instances.length
    (answer = plain ↔
      ∀ s t, answer = .ok s → plain = .ok t → s.passes = t.passes) ∧
    (instances.length < UInt64.size →
      (answer = plain ↔ ∀ t, plain = .ok t → t.passes ≤ product % UInt64.size)) ∧
    (1 ≤ policy.passesPerPart → product < UInt64.size → answer = plain) := by
  intro answer plain product
  have hiff : answer = plain ↔ ((idsOf instances).Nodup →
      (spread instances constraints policy).1 =
        (spread instances constraints (policy.withPasses 1)).1) :=
    solve_withPasses_eq_iff_spread instances constraints policy policy.passesPerPart 1
  have hbounded : instances.length < UInt64.size →
      (answer = plain ↔ ∀ t, plain = .ok t → t.passes ≤ product % UInt64.size) := by
    intro hcount
    have hpasses : (spread instances constraints policy).1 = _ ↔ _ :=
      spread_withPasses_eq_iff instances constraints policy hcount policy.passesPerPart
    rw [hiff, hpasses]
    constructor
    · intro h t ht
      obtain ⟨hids, rfl⟩ := solve_eq_ok.mp ht
      exact h hids
    · intro h hids
      exact h _ (solve_eq_ok.mpr ⟨hids, rfl⟩)
  refine ⟨?_, hbounded, ?_⟩
  · rw [hiff]
    constructor
    · intro h s t hs ht
      obtain ⟨hids, rfl⟩ := solve_eq_ok.mp hs
      obtain ⟨-, rfl⟩ := solve_eq_ok.mp ht
      exact h hids
    · intro h hids
      exact h _ _ (solve_eq_ok.mpr ⟨hids, rfl⟩) (solve_eq_ok.mpr ⟨hids, rfl⟩)
  · intro hpasses hproduct
    have hpositive : 1 ≤ policy.passesPerPart.toNat := UInt64.le_iff_toNat_le.mp hpasses
    have hle : instances.length ≤ product := Nat.le_mul_of_pos_left _ hpositive
    have hcount : instances.length < UInt64.size := Nat.lt_of_le_of_lt hle hproduct
    rw [hbounded hcount, Nat.mod_eq_of_lt hproduct]
    intro t ht
    obtain ⟨-, rfl⟩ := solve_eq_ok.mp ht
    refine Nat.le_trans ((settled_spread constraints ?_).2) hle
    rw [passBound_withPasses, UInt64.toNat_one, Nat.one_mul, Nat.mod_eq_of_lt hcount]

/-- With 2 ^ 63 passes for each of two parts the product is zero: no pass is made, and the second
part goes to the grid. -/
theorem solve_withPasses_one_overflow :
    let instances : List Instance :=
      [{ id := "A", partId := "PP-50", name := "Pipe", family := .pipe },
       { id := "B", partId := "PP-50", name := "Pipe", family := .pipe }]
    let constraints := [Constraint.manual 0 "A" "B" .concentric {}]
    let policy := SolverPolicy.default.withPasses 9223372036854775808
    1 ≤ policy.passesPerPart ∧ instances.length < UInt64.size ∧
      solve instances constraints policy ≠ solve instances constraints (policy.withPasses 1) := by
  intro instances constraints policy
  have hcount : instances.length < UInt64.size := by decide
  have hpasses : (solution instances constraints (policy.withPasses 1)).passes = 1 := by decide
  refine ⟨by decide, hcount, fun hsame ↦ ?_⟩
  obtain ⟨-, hiff, -⟩ := solve_withPasses_one_iff instances constraints policy
  have hle := (hiff hcount).mp hsame _ (solve_eq_ok.mpr ⟨by decide, rfl⟩)
  rw [hpasses] at hle
  exact absurd hle (by decide)

end PipingAssembly
