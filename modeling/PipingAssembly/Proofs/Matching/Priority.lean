import Mathlib.Algebra.Order.Field.Basic
import Mathlib.Data.Rat.Cast.OfScientific
import Mathlib.Tactic.Linarith
import Mathlib.Tactic.NormNum.OfScientific
import PipingAssembly.Proofs.Store.Tables

/-!
# The best rule in the order of stores

In exact arithmetic the confidence of a rule for two parts never falls with its priority, as all
else that counts is the same for every rule. A store gives its rules by falling priority, and of
equal matches the earlier one is kept. So the best match is that of the first rule that applies,
however far the confidences are cut off at the ends of their range.
-/

namespace PipingAssembly

/-! ### Confidence along the priority -/

section Exact

variable {α : Type} [Field α] [LinearOrder α] [IsStrictOrderedRing α]

theorem clampUnit_mono {x y : α} (h : x ≤ y) : clampUnit x ≤ clampUnit y := by
  have hunit : (0 : α) ≤ 1 := zero_le_one
  unfold clampUnit
  split_ifs <;> linarith

/-- A bonus keeps the order of what it is added to. -/
theorem elim_add_mono {x y : α} (h : x ≤ y) (bonus : Option α) :
    bonus.elim x (x + ·) ≤ bonus.elim y (y + ·) := by
  cases bonus with
  | none => exact h
  | some z => exact add_le_add_left h z

/-- A greater priority earns no less. -/
theorem Rule.add_priorityBonus_mono {r s : Rule} (h : r.priority ≤ s.priority) (x : α) :
    r.priorityBonus?.elim x (x + ·) ≤ s.priorityBonus?.elim x (x + ·) := by
  have htier : (0.1 : α) ≤ 0.2 := by norm_num
  have hfirst : (0 : α) ≤ 0.1 := by norm_num
  have hreach : ∀ {limit : Int32}, limit ≤ r.priority → limit ≤ s.priority :=
    fun hlimit ↦ Int32.le_trans hlimit h
  by_cases hten : 10 ≤ r.priority
  · simp only [priorityBonus?, if_pos hten, if_pos (hreach hten), le_refl]
  · by_cases hnine : 9 ≤ r.priority
    · by_cases hten' : 10 ≤ s.priority
      · simp only [priorityBonus?, if_neg hten, if_pos hnine, if_pos hten', Option.elim_some]
        linarith
      · simp only [priorityBonus?, if_neg hten, if_pos hnine, if_neg hten', if_pos (hreach hnine),
          le_refl]
    · simp only [priorityBonus?, if_neg hten, if_neg hnine, Option.elim_none]
      split_ifs <;> simp only [Option.elim_some, Option.elim_none] <;> linarith

/-- Of two rules the one with the greater priority has no less confidence for a pair. -/
theorem Rule.confidence_mono {r s : Rule} (h : r.priority ≤ s.priority) (a b : Part)
    (policy : MatchPolicy α) : r.confidence a b policy ≤ s.confidence a b policy :=
  clampUnit_mono (elim_add_mono (elim_add_mono (add_priorityBonus_mono h policy.baseConfidence) _) _)

end Exact

/-! ### The best of matches whose confidence falls -/

section Falling

variable {α : Type} [LinearOrder α]

/-- A match that no later one surpasses stays the best one. -/
theorem foldl_best_of_forall_le {best : RuleMatch α} {ms : List (RuleMatch α)}
    (h : ∀ m ∈ ms, m.confidence ≤ best.confidence) :
    ms.foldl
      (fun best m ↦
        match best with
        | some b => if m.confidence ≤ b.confidence then some b else some m
        | none => some m)
      (some best) = some best := by
  induction ms with
  | nil => rfl
  | cons m ms ih =>
    obtain ⟨hm, hms⟩ := List.forall_mem_cons.mp h
    simp only [List.foldl_cons, if_pos hm]
    exact ih hms

/-- Where the confidence never rises along the matches, the first one is the best one. -/
theorem bestMatch?_eq_head? {ms : List (RuleMatch α)}
    (h : ms.Pairwise fun m n ↦ n.confidence ≤ m.confidence) : bestMatch? ms = ms.head? := by
  cases ms with
  | nil => rfl
  | cons m ms => exact foldl_best_of_forall_le (List.pairwise_cons.mp h).1

end Falling

/-! ### The best match in the order of stores -/

/-- A rule that stands before another one has no less priority. -/
theorem Rule.priority_le_of_precedes {r s : Rule} (h : r.precedes s = true) :
    s.priority ≤ r.priority := by
  rw [Int32.le_iff_toInt_le]
  obtain hlt | ⟨heq, -⟩ := precedes_iff.mp h
  · exact hlt.le
  · exact heq.ge

/-- For two parts, the best match among rules in the order of stores is that of the first rule whose
condition holds, and there is none exactly if no condition holds. -/
theorem bestMatch?_matchingRules {α : Type} [Field α] [LinearOrder α] [IsStrictOrderedRing α]
    {rules : List Rule} (horder : rules.Pairwise fun r s ↦ r.precedes s = true) (a b : Part)
    (policy : MatchPolicy α) :
    bestMatch? (matchingRules a b rules policy) =
        (rules.find? (·.condition.holds a b)).map (fun r ↦ ⟨r, r.confidence a b policy⟩) ∧
      (bestMatch? (matchingRules a b rules policy) = none ↔
        ∀ r ∈ rules, r.condition.holds a b = false) := by
  have hfalls : (matchingRules a b rules policy).Pairwise
      fun m n ↦ n.confidence ≤ m.confidence := by
    rw [matchingRules, List.pairwise_map]
    exact (horder.filter _).imp fun h ↦
      Rule.confidence_mono (Rule.priority_le_of_precedes h) a b policy
  have hbest : bestMatch? (matchingRules a b rules policy) =
      (rules.find? (·.condition.holds a b)).map (fun r ↦ ⟨r, r.confidence a b policy⟩) := by
    rw [bestMatch?_eq_head? hfalls, matchingRules, List.head?_map, List.head?_filter]
  refine ⟨hbest, ?_⟩
  rw [hbest, Option.map_eq_none_iff, List.find?_eq_none]
  simp only [Bool.not_eq_true]

/-- The rule with the greatest priority does not apply, and with a high base both others reach the
greatest confidence there is. -/
theorem bestMatch?_matchingRules_capped :
    let rule : String → Int32 → Condition → Rule := fun id priority condition ↦
      { id, name := id, priority, condition, action := { type := .coincident } }
    let rules := [rule "R-THREAD" 10 .threadMatch, rule "R-FLANGE" 9 (.nameContains "fl"),
      rule "R-DN" 0 (.both { field := "dn", value := some "50" })]
    let a : Part := { id := "FL-1", dn := some 50, pn := some 16 }
    let b : Part := { id := "FL-2", dn := some 50, pn := some 16 }
    let policy : MatchPolicy ℚ := ⟨0.95, 0.8⟩
    (rules.Pairwise fun r s ↦ r.precedes s = true) ∧
      (bestMatch? (matchingRules a b rules policy) =
          (rules.find? (·.condition.holds a b)).map (fun r ↦ ⟨r, r.confidence a b policy⟩) ∧
        (bestMatch? (matchingRules a b rules policy) = none ↔
          ∀ r ∈ rules, r.condition.holds a b = false)) ∧
      (matchingRules a b rules policy).map (fun m ↦ (m.rule.id, m.confidence)) =
        [("R-FLANGE", 1), ("R-DN", 1)] := by
  intro rule rules a b policy
  have horder : rules.Pairwise fun r s ↦ r.precedes s = true := by decide
  exact ⟨horder, bestMatch?_matchingRules horder a b policy, by decide +kernel⟩

end PipingAssembly
