import Mathlib.Data.Sym.Sym2
import PipingAssembly.Proofs.Matching.Direction

/-!
# Matching without direction

Whether a rule applies to two parts, and with which confidence, is the same from either side. So the
order of a catalog has no part in which pairs are joined, by which rule and how: what comes from it
are the ids of the constraints, their order, and which side of a pair is the source.
-/

namespace PipingAssembly

/-! ### Conditions and confidence from either side -/

theorem Part.sharesThread_comm (a b : Part) : a.sharesThread b = b.sharesThread a := by
  unfold sharesThread
  cases a.thread with
  | none => cases b.thread <;> rfl
  | some s =>
    cases b.thread with
    | none => rfl
    | some t => exact Bool.beq_comm

theorem Family.isBoltNutPair_comm (f g : Family) : f.isBoltNutPair g = g.isBoltNutPair f := by
  cases f <;> cases g <;> rfl

/-- A condition holds for two parts whichever of them comes first. -/
theorem Condition.holds_comm (c : Condition) (a b : Part) : c.holds a b = c.holds b a := by
  cases c with
  | both test => exact Bool.and_comm _ _
  | nameContains value => rw [holds, holds, (List.Perm.swap b a []).any_eq]
  | threadMatch => exact a.sharesThread_comm b
  | boltNutPair =>
    exact congrArg₂ (· && ·) (a.family.isBoltNutPair_comm b.family) (a.sharesThread_comm b)
  | distanceRange min max => rfl
  | mateType mateType => rfl

/-- Numbers that agree are both given, so it is enough to ask this of one of them. -/
theorem agrees_comm (m n : Option UInt32) : agrees m n = agrees n m := by
  unfold agrees
  by_cases h : m = n
  · rw [h]
  · rw [beq_eq_false_iff_ne.mpr h, beq_eq_false_iff_ne.mpr (Ne.symm h), Bool.and_false,
      Bool.and_false]

section Matches

variable {α : Type} [Add α] [OfScientific α] [OfNat α 0] [OfNat α 1] [LT α] [DecidableLT α]

theorem Rule.confidence_comm (r : Rule) (a b : Part) (policy : MatchPolicy α) :
    r.confidence a b policy = r.confidence b a policy := by
  rw [confidence, confidence, agrees_comm a.dn b.dn, agrees_comm a.pn b.pn]

/-- The rules that apply to two parts are the same from either side, with their confidence and in
their order. -/
theorem matchingRules_comm (a b : Part) (rules : List Rule) (policy : MatchPolicy α) :
    matchingRules a b rules policy = matchingRules b a rules policy := by
  simp only [matchingRules, Condition.holds_comm _ a b, fun r : Rule ↦ r.confidence_comm a b policy]

end Matches

/-! ### Pairs of a list in any order -/

/-- What is found for the pairs of a list, from either side alike, does not depend on its order. -/
theorem filterMap_orderedPairs_perm {α β : Type} {f : α → α → Option β}
    (hf : ∀ a b, f a b = f b a) {as bs : List α} (h : as.Perm bs) :
    ((orderedPairs as).filterMap fun p ↦ f p.1 p.2).Perm
      ((orderedPairs bs).filterMap fun p ↦ f p.1 p.2) := by
  induction h with
  | nil => exact .nil
  | cons a hperm ih =>
    simp only [orderedPairs, List.filterMap_append, List.filterMap_map]
    exact (hperm.filterMap _).append ih
  | swap a b l =>
    -- the pair of the two comes first in both lists, then the pairs of each of them with the others
    simp only [orderedPairs, List.filterMap_append, List.filterMap_map, List.map_cons,
      List.cons_append, List.filterMap_cons, hf b a]
    have hswap : ∀ xs ys : List β, (xs ++ ys).Perm (ys ++ xs) := fun _ _ ↦ List.perm_append_comm
    have hrest := (hswap (l.filterMap ((fun p : α × α ↦ f p.1 p.2) ∘ (b, ·)))
      (l.filterMap ((fun p : α × α ↦ f p.1 p.2) ∘ (a, ·)))).append_right
        ((orderedPairs l).filterMap fun p ↦ f p.1 p.2)
    rw [List.append_assoc, List.append_assoc] at hrest
    cases f a b with
    | none => exact hrest
    | some x => exact hrest.cons x
  | trans _ _ ih ih' => exact ih.trans ih'

/-! ### Constraints without direction -/

/-- What a constraint says of its two sides, without its id and its direction. -/
structure UndirectedConstraint where
  sides : Sym2 String
  type : ConstraintType
  parameters : Parameters Float
  ruleId : String
  ruleName : String
  confidence : Float

/-- A constraint without its id and its direction. -/
def Constraint.undirected (c : Constraint) : UndirectedConstraint where
  sides := s(c.entityA, c.entityB)
  type := c.type
  parameters := c.parameters
  ruleId := c.ruleId
  ruleName := c.ruleName
  confidence := c.confidence

/-- A proposal without its direction. -/
def Proposal.undirected (p : Proposal) : UndirectedConstraint where
  sides := s(p.entityA, p.entityB)
  type := p.rule.action.type
  parameters := p.rule.action.parameters
  ruleId := p.rule.id
  ruleName := p.rule.name
  confidence := p.confidence

/-- The proposal for two parts without its direction. -/
def undirectedProposal? (rules : List Rule) (policy : MatchPolicy Float) (a b : Part) :
    Option UndirectedConstraint :=
  (bestMatch? (matchingRules a b rules policy)).map fun m ↦
    Proposal.undirected ⟨a.id, b.id, m.rule, m.confidence⟩

/-- The best rule for two parts is the same from either side. -/
theorem undirectedProposal?_comm (rules : List Rule) (policy : MatchPolicy Float) (a b : Part) :
    undirectedProposal? rules policy a b = undirectedProposal? rules policy b a := by
  simp only [undirectedProposal?, matchingRules_comm a b, Proposal.undirected,
    Sym2.eq_swap (a := a.id)]

/-- But for ids and direction the constraints of a catalog are the proposals for its pairs. -/
theorem map_undirected_generateCatalog (parts : List Part) (rules : List Rule)
    (policy : MatchPolicy Float) :
    (generateCatalog parts rules policy).map Constraint.undirected =
      (orderedPairs parts).filterMap fun p ↦ undirectedProposal? rules policy p.1 p.2 := by
  rw [generateCatalog, map_mapIdx_toConstraint Constraint.undirected Proposal.undirected
    fun _ _ ↦ rfl, List.map_filterMap]
  simp only [undirectedProposal?, Option.map_map]
  rfl

/-- A catalog in any order gives the same constraints but for their ids, their order and their
direction: the same pairs are joined by the same rules, with the same parameters and the same
confidence, and each of them as often. -/
theorem undirected_generateCatalog_perm {parts parts' : List Part} (h : parts.Perm parts')
    (rules : List Rule) (policy : MatchPolicy Float) :
    ((generateCatalog parts rules policy).map Constraint.undirected).Perm
      ((generateCatalog parts' rules policy).map Constraint.undirected) := by
  rw [map_undirected_generateCatalog, map_undirected_generateCatalog]
  exact filterMap_orderedPairs_perm (undirectedProposal?_comm rules policy) h

/-- A nut that comes before its bolt is the source of the screw, else the bolt is. -/
theorem undirected_generateCatalog_perm_bolt :
    let bolt : Part := { id := "B-16", family := .bolt, metadata := [("thread", "m16")] }
    let nut : Part := { id := "N-16", family := .nut, endType := some "M16" }
    let pipe : Part := { id := "P-50", family := .pipe, dn := some 50 }
    let rule : Rule :=
      { id := "R-SCREW", name := "Screw", condition := .boltNutPair, action := { type := .screw } }
    [pipe, bolt, nut].Perm [nut, bolt, pipe] ∧
      ((generateCatalog [pipe, bolt, nut] [rule] .default).map Constraint.undirected).Perm
        ((generateCatalog [nut, bolt, pipe] [rule] .default).map Constraint.undirected) ∧
      (generateCatalog [pipe, bolt, nut] [rule] .default).map (·.entityA) = ["B-16"] ∧
      (generateCatalog [nut, bolt, pipe] [rule] .default).map (·.entityA) = ["N-16"] := by
  intro bolt nut pipe rule
  have h : [pipe, bolt, nut].Perm [nut, bolt, pipe] := by decide
  exact ⟨h, undirected_generateCatalog_perm h [rule] .default, by decide, by decide⟩

end PipingAssembly
