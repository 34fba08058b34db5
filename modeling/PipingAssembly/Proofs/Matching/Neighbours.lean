import Mathlib.Data.List.Forall2
import PipingAssembly.Proofs.Arithmetic.Floats
import PipingAssembly.Proofs.Matching.Direction
import PipingAssembly.Proofs.Matching.Numbering

/-!
# Constraints between neighbours

Two neighbouring instances are joined by the best rule for their parts, if a rule applies to them,
and by each spatial rule that holds at their distance. The best rule is the first one that reaches
the greatest score. A score is a number exactly if the policy gives one, so of several rules all
scores are comparable or none is.
-/

namespace PipingAssembly

/-! ### Scores -/

theorem isNaN_clampUnit (x : Float) : (clampUnit x).isNaN = x.isNaN := by
  rw [clampUnit]
  split
  · next hlt =>
    rw [(isNaN_eq_false_of_lt hlt).1]
    decide +kernel
  · split
    · next hlt =>
      rw [(isNaN_eq_false_of_lt hlt).2]
      decide +kernel
    · rfl

/-- Bonuses do not change whether a score is a number. -/
theorem Rule.isNaN_confidence (r : Rule) (a b : Part) (policy : MatchPolicy Float) :
    (r.confidence a b policy).isNaN = policy.baseConfidence.isNaN := by
  have hbonus : ∀ (x : Float) (bonus : Option Float), (∀ y ∈ bonus, y.isFinite = true) →
      (bonus.elim x (x + ·)).isNaN = x.isNaN := by
    intro x bonus hfinite
    cases bonus with
    | none => rfl
    | some y => exact isNaN_add_of_isFinite x (hfinite y rfl)
  have hsize : ∀ agreed : Bool, ∀ y ∈ (if agreed then some (0.05 : Float) else none),
      y.isFinite = true := by
    intro agreed y hy
    cases agreed
    · cases hy
    · cases hy
      decide +kernel
  have hpriority : ∀ y ∈ (r.priorityBonus? : Option Float), y.isFinite = true := by
    intro y hy
    rw [priorityBonus?] at hy
    split at hy
    · cases hy
      decide +kernel
    · split at hy
      · cases hy
        decide +kernel
      · cases hy
  rw [confidence, isNaN_clampUnit, hbonus _ _ (hsize _), hbonus _ _ (hsize _), hbonus _ _ hpriority]

/-! ### The best rule -/

/-- A match surpasses those before it and reaches those behind it. -/
structure RuleMatch.IsBest (m : RuleMatch Float) (before after : List (RuleMatch Float)) :
    Prop where
  surpasses : ∀ n ∈ before, ¬ m.confidence ≤ n.confidence
  reaches : ∀ n ∈ after, n.confidence ≤ m.confidence

section Best

variable {ms : List (RuleMatch Float)} {nan : Bool}

theorem bestMatch?_concat (m : RuleMatch Float) :
    bestMatch? (ms ++ [m]) =
      some ((bestMatch? ms).elim m fun b ↦ if m.confidence ≤ b.confidence then b else m) := by
  unfold bestMatch?
  rw [List.foldl_append, List.foldl_cons, List.foldl_nil]
  split
  · next b hbest => rw [hbest, Option.elim_some, apply_ite some]
  · next hnone => rw [hnone, Option.elim_none]

/-- Of matches with scores that are comparable to each other, or of which none is comparable, the
best one surpasses those before it and reaches those behind it. -/
theorem exists_bestMatch? (hne : ms ≠ []) (hnan : ∀ m ∈ ms, m.confidence.isNaN = nan) :
    ∃ before m after, ms = before ++ m :: after ∧ bestMatch? ms = some m ∧
      m.IsBest before after := by
  induction ms using List.reverseRecOn with
  | nil => exact absurd rfl hne
  | append_singleton ms m ih =>
    rw [bestMatch?_concat]
    by_cases hms : ms = []
    · subst hms
      exact ⟨[], m, [], rfl, rfl, ⟨by simp, by simp⟩⟩
    · obtain ⟨before, b, after, hsplit, hbest, hb⟩ := ih hms fun n hn ↦
        hnan n (List.mem_append_left _ hn)
      rw [hbest, Option.elim_some]
      by_cases hle : m.confidence ≤ b.confidence
      · refine ⟨before, b, after ++ [m], by rw [hsplit]; simp, if_pos hle ▸ rfl, hb.surpasses, ?_⟩
        rw [List.forall_mem_append]
        exact ⟨hb.reaches, by simpa using hle⟩
      · refine ⟨ms, m, [], rfl, if_neg hle ▸ rfl, fun n hn hmn ↦ ?_, by simp⟩
        have hsame : ∀ l ∈ ms ++ [m], l.confidence.isNaN = false := by
          intro l hl
          rw [hnan l hl, ← hnan m (by simp)]
          exact (float_le_iff.mp hmn).1
        have hbm : b.confidence ≤ m.confidence :=
          (float_le_total (hsame b (by simp [hsplit])) (hsame m (by simp))).resolve_right hle
        rw [hsplit, List.mem_append, List.mem_cons] at hn
        obtain hn | rfl | hn := hn
        · exact hb.surpasses n hn (float_le_trans hbm hmn)
        · exact hle hmn
        · exact hle (float_le_trans hmn (hb.reaches n hn))

end Best

/-- A rule that is not spatial applies to two parts. -/
structure Rule.AppliesTo (r : Rule) (a b : Part) : Prop where
  isSpatial_eq : r.condition.isSpatial = false
  holds : r.condition.holds a b = true

/-- Conditions that hold for two parts are not spatial. -/
theorem Rule.appliesTo_iff {r : Rule} {a b : Part} :
    r.AppliesTo a b ↔ r.condition.holds a b = true := by
  constructor
  · exact fun h ↦ h.holds
  · intro hholds
    refine ⟨?_, hholds⟩
    cases hcondition : r.condition with
    | distanceRange | mateType =>
      rw [hcondition] at hholds
      cases hholds
    | _ => rfl

/-- The best of the rules that apply to two parts. No earlier one reaches its score and no later one
surpasses it. Scores that are not numbers do not reach each other. -/
inductive BestRule (a b : Part) (rules : List Rule) (policy : MatchPolicy Float) :
    Option Rule → Prop
  /-- no rule applies -/
  | none (h : ∀ r ∈ rules, ¬ r.AppliesTo a b) : BestRule a b rules policy none
  /-- the first rule with the greatest score -/
  | first (before after : List Rule) (r : Rule) (hrules : rules = before ++ r :: after)
      (happlies : r.AppliesTo a b)
      (hbefore : ∀ s ∈ before, s.AppliesTo a b →
        ¬ r.confidence a b policy ≤ s.confidence a b policy)
      (hafter : ∀ s ∈ after, s.AppliesTo a b →
        s.confidence a b policy ≤ r.confidence a b policy) :
      BestRule a b rules policy (some r)

theorem bestRule_bestMatch? (a b : Part) (rules : List Rule) (policy : MatchPolicy Float) :
    BestRule a b rules policy ((bestMatch? (matchingRules a b rules policy)).map (·.rule)) := by
  by_cases hnone : matchingRules a b rules policy = []
  · rw [hnone]
    refine .none fun r hr happlies ↦ ?_
    rw [matchingRules, List.map_eq_nil_iff, List.filter_eq_nil_iff] at hnone
    exact hnone r hr happlies.holds
  · have hnan : ∀ m ∈ matchingRules a b rules policy,
        m.confidence.isNaN = policy.baseConfidence.isNaN := by
      rw [matchingRules, List.forall_mem_map]
      exact fun r _ ↦ r.isNaN_confidence a b policy
    obtain ⟨before, m, after, hsplit, hbest, hm⟩ := exists_bestMatch? hnone hnan
    rw [hbest]
    rw [matchingRules, List.map_eq_append_iff] at hsplit
    obtain ⟨before, rest, hrules, rfl, hrest⟩ := hsplit
    obtain ⟨r, after, rfl, rfl, rfl⟩ := List.map_eq_cons_iff.mp hrest
    obtain ⟨before, rest, rfl, rfl, hrest⟩ := List.filter_eq_append_iff.mp hrules
    obtain ⟨between, after, rfl, hbetween, hholds, rfl⟩ := List.filter_eq_cons_iff.mp hrest
    refine .first (before ++ between) after r (List.append_assoc ..).symm
      (Rule.appliesTo_iff.mpr hholds) ?_ ?_
    · intro s hs happlies
      obtain hs | hs := List.mem_append.mp hs
      · exact hm.surpasses ⟨s, s.confidence a b policy⟩
          (List.mem_map.mpr ⟨s, List.mem_filter.mpr ⟨hs, happlies.holds⟩, rfl⟩)
      · exact absurd happlies.holds (hbetween s hs)
    · intro s hs happlies
      exact hm.reaches ⟨s, s.confidence a b policy⟩
        (List.mem_map.mpr ⟨s, List.mem_filter.mpr ⟨hs, happlies.holds⟩, rfl⟩)

/-- Of two rules with the same score the first one is the best, unless the score is not a number. -/
example :
    let rule (id : String) : Rule :=
      { id, name := id, condition := .nameContains "fl", action := { type := .coincident } }
    let flange : Part := { id := "FL-50" }
    let best (base : Float) : Option String :=
      let found := matchingRules flange flange [rule "R-1", rule "R-2"] ⟨base, 0.8⟩
      (bestMatch? found).map (·.rule.id)
    best 0.7 = some "R-1" ∧ best (0 / 0) = some "R-2" := by
  decide +kernel

/-! ### Spatial rules -/

/-- A spatial condition holds for neighbours at a distance. -/
inductive Condition.HoldsAt (d : Float) : Condition → Prop
  | distanceRange {min max : Float} (hmin : min ≤ d) (hmax : d ≤ max) :
      HoldsAt d (.distanceRange min max)
  | mateType (mateType : String) : HoldsAt d (.mateType mateType)

/-- A band holds at its ends too. -/
theorem Condition.holdsAt_distanceRange {d min max : Float} :
    (distanceRange min max).HoldsAt d ↔ min ≤ d ∧ d ≤ max := by
  constructor
  · rintro ⟨hmin, hmax⟩
    exact ⟨hmin, hmax⟩
  · rintro ⟨hmin, hmax⟩
    exact .distanceRange hmin hmax

instance (d : Float) (c : Condition) : Decidable (c.HoldsAt d) :=
  match c with
  | .distanceRange .. => decidable_of_iff _ Condition.holdsAt_distanceRange.symm
  | .mateType t => isTrue (.mateType t)
  | .both _ | .nameContains _ | .threadMatch | .boltNutPair => isFalse nofun

theorem Rule.appliesBetween_eq (r : Rule) (a b : Instance) :
    r.appliesBetween a b =
      decide (r.condition.HoldsAt (a.pose.position.distance b.pose.position)) := by
  rw [appliesBetween]
  cases r.condition with
  | distanceRange min max => simp only [Condition.holdsAt_distanceRange, Bool.decide_and]
  | mateType t => exact (decide_eq_true (.mateType t)).symm
  | both | nameContains | threadMatch | boltNutPair => exact (decide_eq_false nofun).symm

/-! ### Entries of the catalog -/

/-- The entry that stands for an instance: the last one with its part id, or one read out of its
name if the catalog has none. -/
inductive Instance.HasEntry (i : Instance) (catalog : List Part) : Part → Prop
  | listed (before after : List Part) (p : Part) (hcatalog : catalog = before ++ p :: after)
      (hid : p.id = i.partId) (hlast : ∀ q ∈ after, q.id ≠ i.partId) : HasEntry i catalog p
  | inferred (h : ∀ q ∈ catalog, q.id ≠ i.partId) : HasEntry i catalog (.ofProduct i.name)

theorem Instance.hasEntry_part (i : Instance) (catalog : List Part) :
    i.HasEntry catalog (i.part catalog) := by
  rw [part]
  cases hfind : findPart? catalog i.partId with
  | none =>
    rw [findPart?, List.getLast?_eq_none_iff, List.filter_eq_nil_iff] at hfind
    exact .inferred fun q hq heq ↦ hfind q hq (beq_iff_eq.mpr heq)
  | some p =>
    obtain ⟨others, hothers⟩ := List.getLast?_eq_some_iff.mp hfind
    obtain ⟨before, rest, rfl, -, hrest⟩ := List.filter_eq_append_iff.mp hothers
    obtain ⟨between, after, rfl, -, hid, hlast⟩ := List.filter_eq_cons_iff.mp hrest
    rw [List.filter_eq_nil_iff] at hlast
    exact .listed (before ++ between) after p (List.append_assoc ..).symm (beq_iff_eq.mp hid)
      fun q hq heq ↦ hlast q hq (beq_iff_eq.mpr heq)

/-! ### Constraints -/

/-- What corresponds to a list of parts comes in parts. -/
theorem exists_blocks {α β γ : Type} {R : α → β → Prop} {f : γ → List β} {as : List α}
    {cs : List γ} (h : List.Forall₂ R as (cs.flatMap f)) :
    ∃ blocks, as = blocks.flatten ∧
      List.Forall₂ (fun block c ↦ List.Forall₂ R block (f c)) blocks cs := by
  induction cs generalizing as with
  | nil => exact ⟨[], List.forall₂_nil_right_iff.mp h, .nil⟩
  | cons c cs ih =>
    rw [List.flatMap_cons] at h
    obtain ⟨blocks, hrest, hblocks⟩ := ih (List.forall₂_drop_append as _ _ h)
    refine ⟨as.take (f c).length :: blocks, ?_, .cons (List.forall₂_take_append as _ _ h) hblocks⟩
    rw [List.flatten_cons, ← hrest, List.take_append_drop]

theorem forall₂_toConstraint (ps : List Proposal) :
    List.Forall₂ (fun c p ↦ ∃ index, c = p.toConstraint index)
      (ps.mapIdx Proposal.toConstraint) ps := by
  refine List.forall₂_iff_get.mpr ⟨List.length_mapIdx, fun i h _ ↦ ⟨i, ?_⟩⟩
  exact List.getElem_mapIdx

/-- A constraint joins two instances by a rule. -/
structure Constraint.Joins (c : Constraint) (a b : Instance) (r : Rule)
    (policy : MatchPolicy Float) : Prop where
  source : c.entityA = a.id
  target : c.entityB = b.id
  follows : c.Follows r
  confidence : c.confidence = r.sequentialConfidence policy

section Neighbours

variable (catalog : List Part) (rules : List Rule) (policy : MatchPolicy Float)

/-- Some constraints join two neighbours: one by the best rule for their parts, if a rule applies to
them, and one by each spatial rule that holds at their distance, in the order of the rules. -/
def JoinsNeighbours (cs : List Constraint) (pair : Instance × Instance) : Prop :=
  ∃ p q best, pair.1.HasEntry catalog p ∧ pair.2.HasEntry catalog q ∧
    BestRule p q rules policy best ∧
    List.Forall₂ (fun c r ↦ c.Joins pair.1 pair.2 r policy) cs
      (best.toList ++ rules.filter fun r ↦
        r.condition.HoldsAt (pair.1.pose.position.distance pair.2.pose.position))

theorem neighbourRules_eq (a b : Instance) :
    neighbourRules catalog rules policy a b =
      ((bestMatch? (matchingRules (a.part catalog) (b.part catalog) rules policy)).map
          (·.rule)).toList ++
        rules.filter fun r ↦ r.condition.HoldsAt (a.pose.position.distance b.pose.position) := by
  rw [neighbourRules]
  simp only [Rule.appliesBetween_eq]

/-- From an exchange file each pair of neighbours is joined in turn, and no other pair is. The ids
count the constraints, with three digits or more, and no id occurs twice. -/
theorem blocks_generateSequential (instances : List Instance) :
    ∃ blocks, generateSequential instances catalog rules policy = blocks.flatten ∧
      List.Forall₂ (JoinsNeighbours catalog rules policy) blocks (instances.zip instances.tail) ∧
      (∀ n c, blocks.flatten[n]? = some c →
        c.id.toList = 'C' :: (Nat.toDigits 10 (n + 1)).leftpad 3 '0') ∧
      (blocks.flatten.map (·.id)).Nodup := by
  have hnumbered := numbered_generateSequential instances catalog rules policy
  obtain ⟨blocks, hflatten, hblocks⟩ := exists_blocks (forall₂_toConstraint
    ((neighbours instances).flatMap fun pair ↦
      (neighbourRules catalog rules policy pair.1 pair.2).map
        fun r ↦ (⟨pair.1.id, pair.2.id, r, r.sequentialConfidence policy⟩ : Proposal)))
  change generateSequential instances catalog rules policy = _ at hflatten
  refine ⟨blocks, hflatten, hblocks.imp fun block pair hblock ↦ ?_, ?_, ?_⟩
  · rw [List.forall₂_map_right_iff, neighbourRules_eq] at hblock
    refine ⟨_, _, _, pair.1.hasEntry_part catalog, pair.2.hasEntry_part catalog,
      bestRule_bestMatch? _ _ rules policy, hblock.imp ?_⟩
    rintro c r ⟨index, rfl⟩
    exact ⟨rfl, rfl, ⟨rfl, rfl, rfl, rfl⟩, rfl⟩
  · intro n c hc
    rw [← hflatten] at hc
    rw [hnumbered.id_eq hc, Constraint.toList_idFor, Decimal.toList_padStart_natText]
  · rw [← hflatten]
    exact hnumbered.nodup

end Neighbours

end PipingAssembly
