import PipingAssembly.Matching.Generation
import PipingAssembly.Proofs.Lists

/-!
# The direction of generated constraints

Both ways of generating constraints go through the instances in order. From a catalog a constraint
leads from a part to a later one. From an exchange file it leads from an instance to the next one,
the constraints of a pair come before those of the pairs behind it, and the first one of a pair
follows the best rule for its parts, or the first spatial rule if there is no such rule.
-/

namespace PipingAssembly

/-- The sides of a constraint stand at two places of a list of ids. -/
structure Constraint.Spans (c : Constraint) (ids : List String) (i j : Nat) : Prop where
  source : ids[i]? = some c.entityA
  target : ids[j]? = some c.entityB

/-- All constraints lead from an id to a later one. -/
def Rising (ids : List String) (cs : List Constraint) : Prop :=
  ∀ c ∈ cs, ∃ i j, i < j ∧ c.Spans ids i j

/-- All constraints lead from an id to the next one, and they follow the order of their sources. -/
structure Consecutive (ids : List String) (cs : List Constraint) : Prop where
  next : ∀ c ∈ cs, ∃ i, c.Spans ids i (i + 1)
  sorted : cs.Pairwise fun c d ↦ ids.idxOf c.entityA ≤ ids.idxOf d.entityA

theorem Consecutive.rising {ids : List String} {cs : List Constraint} (h : Consecutive ids cs) :
    Rising ids cs := by
  intro c hc
  obtain ⟨i, hi⟩ := h.next c hc
  exact ⟨i, i + 1, Nat.lt_succ_self i, hi⟩

/-- The first place of the source of a constraint is before that of its target. -/
structure Constraint.LeadsOn (c : Constraint) (ids : List String) : Prop where
  source_mem : c.entityA ∈ ids
  target_mem : c.entityB ∈ ids
  lt : ids.idxOf c.entityA < ids.idxOf c.entityB

theorem Constraint.LeadsOn.ne {c : Constraint} {ids : List String} (h : c.LeadsOn ids) :
    c.entityA ≠ c.entityB := by
  intro heq
  have hlt := h.lt
  rw [heq] at hlt
  exact Nat.lt_irrefl _ hlt

/-- More ids at the end change nothing. -/
theorem Constraint.LeadsOn.append {c : Constraint} {ids : List String} (h : c.LeadsOn ids)
    (more : List String) : c.LeadsOn (ids ++ more) where
  source_mem := List.mem_append_left more h.source_mem
  target_mem := List.mem_append_left more h.target_mem
  lt := by
    rw [List.idxOf_append_of_mem h.source_mem, List.idxOf_append_of_mem h.target_mem]
    exact h.lt

theorem Rising.leadsOn {ids : List String} {cs : List Constraint} (hrise : Rising ids cs)
    (hids : ids.Nodup) {c : Constraint} (hc : c ∈ cs) : c.LeadsOn ids := by
  obtain ⟨i, j, hij, hspans⟩ := hrise c hc
  refine ⟨List.mem_of_getElem? hspans.source, List.mem_of_getElem? hspans.target, ?_⟩
  rwa [idxOf_of_getElem? hids hspans.source, idxOf_of_getElem? hids hspans.target]

/-! ### Pairs of a list -/

section Pairs

variable {α : Type} {as : List α} {a b : α}

/-- Of an ordered pair the first element stands before the second one. -/
theorem exists_lt_of_mem_orderedPairs (h : (a, b) ∈ orderedPairs as) :
    ∃ i j : Nat, i < j ∧ as[i]? = some a ∧ as[j]? = some b := by
  induction as with
  | nil => cases h
  | cons x xs ih =>
    cases List.mem_append.mp h with
    | inl h =>
      obtain ⟨y, hy, heq⟩ := List.mem_map.mp h
      cases heq
      obtain ⟨j, hj⟩ := List.mem_iff_getElem?.mp hy
      exact ⟨0, j + 1, Nat.succ_pos j, rfl, hj⟩
    | inr h =>
      obtain ⟨i, j, hij, hi, hj⟩ := ih h
      exact ⟨i + 1, j + 1, Nat.succ_lt_succ hij, hi, hj⟩

/-- The neighbours at a place are the elements there and at the next place. -/
theorem getElem?_neighbours {i : Nat} :
    (neighbours as)[i]? = some (a, b) ↔ as[i]? = some a ∧ as[i + 1]? = some b := by
  rw [neighbours, List.getElem?_zip_eq_some, List.getElem?_tail]

end Pairs

/-! ### Proposals -/

section Proposals

variable {ps : List Proposal} {c : Constraint}

/-- What constraints take from their proposals does not depend on their indices. -/
theorem map_mapIdx_toConstraint {β : Type} (f : Constraint → β) (g : Proposal → β)
    (h : ∀ index p, f (p.toConstraint index) = g p) :
    (ps.mapIdx Proposal.toConstraint).map f = ps.map g := by
  apply List.ext_getElem
  · rw [List.length_map, List.length_mapIdx, List.length_map]
  · intro i hi hi'
    rw [List.getElem_map, List.getElem_mapIdx, List.getElem_map, h]

/-- A constraint has the sides of the proposal that it comes from. -/
theorem exists_proposal_of_mem (h : c ∈ ps.mapIdx Proposal.toConstraint) :
    ∃ p ∈ ps, c.entityA = p.entityA ∧ c.entityB = p.entityB := by
  obtain ⟨index, hindex, rfl⟩ := List.mem_mapIdx.mp h
  exact ⟨_, List.getElem_mem hindex, rfl, rfl⟩

/-- The first constraint of a kind comes from the first proposal of that kind. -/
theorem exists_find?_proposal {isOf : Constraint → Bool} (proposes : Proposal → Bool)
    (hkind : ∀ index p, isOf (p.toConstraint index) = proposes p)
    (h : (ps.mapIdx Proposal.toConstraint).find? isOf = some c) :
    ∃ index p, ps.find? proposes = some p ∧ c = p.toConstraint index := by
  obtain ⟨hc, index, hindex, rfl, hbefore⟩ := List.find?_eq_some_iff_getElem.mp h
  rw [List.length_mapIdx] at hindex
  rw [List.getElem_mapIdx, hkind] at hc
  refine ⟨index, ps[index], List.find?_eq_some_iff_getElem.mpr ⟨hc, index, hindex, rfl, ?_⟩,
    List.getElem_mapIdx⟩
  intro j hj
  have hnot := hbefore j hj
  rwa [List.getElem_mapIdx, hkind] at hnot

end Proposals

/-! ### Catalogs -/

/-- The constraints of a catalog lead from a part to a later one. -/
theorem rising_generateCatalog (parts : List Part) (rules : List Rule)
    (policy : MatchPolicy Float) :
    Rising (parts.map (·.id)) (generateCatalog parts rules policy) := by
  intro c hc
  obtain ⟨p, hp, hA, hB⟩ := exists_proposal_of_mem hc
  obtain ⟨⟨a, b⟩, hpair, hp⟩ := List.mem_filterMap.mp hp
  obtain ⟨m, -, rfl⟩ := Option.map_eq_some_iff.mp hp
  obtain ⟨i, j, hij, hi, hj⟩ := exists_lt_of_mem_orderedPairs hpair
  refine ⟨i, j, hij, ?_, ?_⟩
  · rw [List.getElem?_map, hi, hA]
    rfl
  · rw [List.getElem?_map, hj, hB]
    rfl

/-! ### Exchange files -/

/-- The rule that goes before all others in joining two neighbouring instances: the best one for
their parts, or else the first spatial one that applies. -/
def leadingRule? (catalog : List Part) (rules : List Rule) (policy : MatchPolicy Float)
    (a b : Instance) : Option Rule :=
  ((bestMatch? (matchingRules (a.part catalog) (b.part catalog) rules policy)).map (·.rule)).or
    (rules.find? (·.appliesBetween a b))

/-- A constraint is what a rule asks for, and it names the rule. -/
structure Constraint.Follows (c : Constraint) (r : Rule) : Prop where
  type : c.type = r.action.type
  parameters : c.parameters = r.action.parameters
  ruleId : c.ruleId = r.id
  ruleName : c.ruleName = r.name

/-- Whether a constraint leads from one id to another. -/
def Constraint.leads (c : Constraint) (a b : String) : Bool := c.entityA == a && c.entityB == b

section Sequential

variable {instances : List Instance} {catalog : List Part} {rules : List Rule}
  {policy : MatchPolicy Float}

theorem head?_neighbourRules (a b : Instance) :
    (neighbourRules catalog rules policy a b).head? = leadingRule? catalog rules policy a b := by
  rw [neighbourRules, List.head?_append, List.head?_filter, leadingRule?]
  cases bestMatch? (matchingRules (a.part catalog) (b.part catalog) rules policy) <;> rfl

/-- The constraints of an exchange file lead from an instance to the next one. -/
theorem exists_spans_of_mem_generateSequential {c : Constraint}
    (h : c ∈ generateSequential instances catalog rules policy) :
    ∃ i, c.Spans (instances.map (·.id)) i (i + 1) := by
  obtain ⟨p, hp, hA, hB⟩ := exists_proposal_of_mem h
  obtain ⟨⟨a, b⟩, hpair, hp⟩ := List.mem_flatMap.mp hp
  obtain ⟨r, -, rfl⟩ := List.mem_map.mp hp
  obtain ⟨i, hi⟩ := List.mem_iff_getElem?.mp hpair
  obtain ⟨ha, hb⟩ := getElem?_neighbours.mp hi
  refine ⟨i, ?_, ?_⟩
  · rw [List.getElem?_map, ha, hA]
    rfl
  · rw [List.getElem?_map, hb, hB]
    rfl

/-- The sources of the constraints are those of the pairs, each one as often as it has rules. -/
theorem map_entityA_generateSequential :
    (generateSequential instances catalog rules policy).map (·.entityA) =
      (neighbours instances).flatMap fun p ↦
        (neighbourRules catalog rules policy p.1 p.2).map fun _ ↦ p.1.id := by
  rw [generateSequential, map_mapIdx_toConstraint (·.entityA) (·.entityA) fun _ _ ↦ rfl,
    List.map_flatMap]
  simp only [List.map_map]
  rfl

theorem idxOf_source (hids : (instances.map (·.id)).Nodup) {i : Nat} {p : Instance × Instance}
    (hp : (neighbours instances)[i]? = some p) : (instances.map (·.id)).idxOf p.1.id = i := by
  apply idxOf_of_getElem? hids
  rw [List.getElem?_map, (getElem?_neighbours.mp hp).1]
  rfl

/-- Where no id occurs twice the constraints follow the order of the instances that they lead from.
-/
theorem consecutive_generateSequential (hids : (instances.map (·.id)).Nodup) :
    Consecutive (instances.map (·.id)) (generateSequential instances catalog rules policy) where
  next _ hc := exists_spans_of_mem_generateSequential hc
  sorted := by
    rw [← List.pairwise_map (f := fun c : Constraint ↦ c.entityA)
      (R := fun x y ↦ (instances.map (·.id)).idxOf x ≤ (instances.map (·.id)).idxOf y),
      map_entityA_generateSequential, List.pairwise_flatMap]
    constructor
    · intro p _
      exact List.pairwise_map.mpr (List.pairwise_of_forall fun _ _ ↦ Nat.le_refl _)
    · refine List.pairwise_iff_getElem.mpr fun i j hi hj hij x hx y hy ↦ ?_
      obtain ⟨-, -, rfl⟩ := List.mem_map.mp hx
      obtain ⟨-, -, rfl⟩ := List.mem_map.mp hy
      rw [idxOf_source hids (List.getElem?_eq_getElem hi),
        idxOf_source hids (List.getElem?_eq_getElem hj)]
      exact Nat.le_of_lt hij

/-- The first constraint between two neighbouring instances follows the rule that goes before all
others. -/
theorem exists_leadingRule? (hids : (instances.map (·.id)).Nodup) {i : Nat} {a b : Instance}
    (ha : instances[i]? = some a) (hb : instances[i + 1]? = some b) {c : Constraint}
    (hc : (generateSequential instances catalog rules policy).find? (·.leads a.id b.id) = some c) :
    ∃ r, leadingRule? catalog rules policy a b = some r ∧ c.Follows r := by
  obtain ⟨index, p, hp, rfl⟩ := exists_find?_proposal
    (fun p ↦ p.entityA == a.id && p.entityB == b.id) (fun _ _ ↦ rfl) hc
  rw [List.find?_flatMap] at hp
  obtain ⟨⟨a', b'⟩, hpair, hp⟩ := List.exists_of_findSome?_eq_some hp
  -- the pair that it comes from is the one at `i`, since its source has the id of `a`
  have hsame : (a', b') = (a, b) := by
    obtain ⟨r, -, hr⟩ := List.mem_map.mp (List.mem_of_find?_eq_some hp)
    have hsides : (p.entityA == a.id && p.entityB == b.id) = true :=
      List.find?_some (p := fun p : Proposal ↦ p.entityA == a.id && p.entityB == b.id) hp
    have hid : a'.id = a.id := by
      rw [← hr] at hsides
      exact eq_of_beq (Bool.and_eq_true_iff.mp hsides).1
    obtain ⟨j, hj⟩ := List.mem_iff_getElem?.mp hpair
    have hi := getElem?_neighbours.mpr ⟨ha, hb⟩
    have hji : j = i := by
      rw [← idxOf_source hids hj, ← idxOf_source hids hi, hid]
    rw [hji, hi] at hj
    exact (Option.some.inj hj).symm
  cases hsame
  rw [List.find?_map] at hp
  obtain ⟨r, hr, rfl⟩ := Option.map_eq_some_iff.mp hp
  refine ⟨r, ?_, rfl, rfl, rfl, rfl⟩
  rw [← head?_neighbourRules, ← hr]
  cases neighbourRules catalog rules policy a b <;> simp

end Sequential

end PipingAssembly
