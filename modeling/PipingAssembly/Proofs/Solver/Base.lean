import Mathlib.Data.Nat.Find
import PipingAssembly.Proofs.Matching.Direction
import PipingAssembly.Proofs.Solver.Solution

/-!
# The base of constraints in one direction

Where all constraints lead from an instance to a later one they can all be used, and the base is the
first instance that any of them names: no constraint leads to it, since it would have to come from
an instance before. Without constraints the base is the first instance.
-/

namespace PipingAssembly

section Rising

variable {instances : List Instance} {constraints : List Constraint}

/-- A constraint to a later instance joins two different instances that exist. -/
theorem Rising.usable (hrise : Rising (idsOf instances) constraints)
    (hids : (idsOf instances).Nodup) {c : Constraint} (hc : c ∈ constraints) :
    c.Usable instances := by
  have hleads := hrise.leadsOn hids hc
  exact ⟨hleads.source_mem, hleads.target_mem, hleads.ne⟩

/-- The link of such a constraint leads to a later index. -/
theorem Rising.a_lt_b (hrise : Rising (idsOf instances) constraints)
    (hids : (idsOf instances).Nodup) {l : Link} (hl : l ∈ links instances constraints) :
    l.a < l.b := by
  obtain ⟨hc, hjoins⟩ := joins_of_mem_links hl
  obtain ⟨i, j, hij, hspans⟩ := hrise _ hc
  rwa [← idxOf_of_getElem? hids hjoins.source, ← idxOf_of_getElem? hids hjoins.target,
    idxOf_of_getElem? hids hspans.source, idxOf_of_getElem? hids hspans.target]

/-- So no side of a constraint is reported as unknown. -/
theorem Rising.unknownEndpoints_eq_nil (hrise : Rising (idsOf instances) constraints)
    (hids : (idsOf instances).Nodup) : unknownEndpoints instances constraints = [] := by
  have hnone : (constraints.flatMap fun c ↦ [(c.id, c.entityA), (c.id, c.entityB)].filter fun e ↦
      (instanceIndex? instances e.2).isNone) = [] := by
    refine List.flatMap_eq_nil_iff.mpr fun c hc ↦ ?_
    obtain ⟨a, b, ha, hb, -⟩ := (hrise.usable hids hc).exists_indices
    simp [ha, hb]
  rw [unknownEndpoints, hnone, List.eraseDups_nil]

end Rising

/-! ### The first index that a link names -/

section Least

variable {count m : Nat} {ls : List Link}

/-- Where all links lead to later indices the base is the least index that one of them leads from.
-/
theorem baseIndex_eq_least (hrise : ∀ l ∈ ls, l.a < l.b) (hm : ∃ l ∈ ls, l.a = m)
    (hleast : ∀ l ∈ ls, m ≤ l.a) (hcount : m < count) : baseIndex count ls = some m := by
  have hfirst : ((List.range count).find? fun i ↦ ls.any (·.a == i) && !ls.any (·.b == i)) =
      some m := by
    refine List.find?_range_eq_some.mpr ⟨?_, List.mem_range.mpr hcount, fun i hi ↦ ?_⟩
    · rw [Bool.and_eq_true, List.any_eq_true, Bool.not_eq_true', List.any_eq_false]
      obtain ⟨l, hl, rfl⟩ := hm
      refine ⟨⟨l, hl, beq_self_eq_true _⟩, fun k hk heq ↦ ?_⟩
      -- a link to the least index would come from a lesser one
      have hlt := hrise k hk
      rw [eq_of_beq heq] at hlt
      exact Nat.not_lt_of_le (hleast k hk) hlt
    · have hsource : ls.any (·.a == i) = false := by
        refine List.any_eq_false.mpr fun l hl heq ↦ ?_
        exact Nat.not_le_of_lt hi (eq_of_beq heq ▸ hleast l hl)
      rw [hsource]
      rfl
  rw [baseIndex, hfirst]

/-- Without links it is the first one. -/
theorem baseIndex_nil (h : 0 < count) : baseIndex count [] = some 0 := by
  have hsource : (List.range count).find? (fun _ ↦ false) = none := by simp
  have htarget : (List.range count).find? (fun _ ↦ true) = some 0 :=
    List.find?_range_eq_some.mpr ⟨rfl, List.mem_range.mpr h, nofun⟩
  rw [baseIndex]
  simp only [List.any_nil, Bool.false_and, Bool.not_false, hsource, htarget]

/-- Where there are such links one of them leads from the base, and none from an index before it. -/
theorem exists_mem_baseIndex (hrise : ∀ l ∈ ls, l.a < l.b) (hcount : ∀ l ∈ ls, l.a < count)
    (hne : ls ≠ []) : ∃ l ∈ ls, baseIndex count ls = some l.a ∧ ∀ k ∈ ls, l.a ≤ k.a := by
  obtain ⟨first, hfirst⟩ := List.exists_mem_of_ne_nil ls hne
  have hex : ∃ i, ∃ l ∈ ls, l.a = i := ⟨first.a, first, hfirst, rfl⟩
  classical
  obtain ⟨l, hl, hla⟩ := Nat.find_spec hex
  have hleast : ∀ k ∈ ls, l.a ≤ k.a := fun k hk ↦ hla ▸ Nat.find_min' hex ⟨k, hk, rfl⟩
  exact ⟨l, hl, baseIndex_eq_least hrise ⟨l, hl, rfl⟩ hleast (hcount l hl), hleast⟩

/-- No link leads from an index before the base. -/
theorem le_of_baseIndex {b : Nat} (hrise : ∀ l ∈ ls, l.a < l.b) (hcount : ∀ l ∈ ls, l.a < count)
    (hb : baseIndex count ls = some b) : ∀ l ∈ ls, b ≤ l.a := by
  intro l hl
  obtain ⟨first, -, hbase, hleast⟩ := exists_mem_baseIndex hrise hcount (List.ne_nil_of_mem hl)
  rw [hb] at hbase
  rw [Option.some.inj hbase]
  exact hleast l hl

end Least

/-! ### The first instance that a constraint names -/

section Named

variable {instances : List Instance} {constraints : List Constraint}

/-- An instance that a constraint names stands at one side of a link. -/
theorem Rising.exists_link_of_touches (hrise : Rising (idsOf instances) constraints)
    (hids : (idsOf instances).Nodup) {i : Nat} {id : String} (hi : (idsOf instances)[i]? = some id)
    {c : Constraint} (hc : c ∈ constraints) (h : c.touches id = true) :
    ∃ l ∈ links instances constraints, l.a = i ∨ l.b = i := by
  obtain ⟨l, hl, rfl⟩ := exists_mem_links hc (hrise.usable hids hc)
  have hjoins := (joins_of_mem_links hl).2
  refine ⟨l, hl, ?_⟩
  rw [← idxOf_of_getElem? hids hi, ← idxOf_of_getElem? hids hjoins.source,
    ← idxOf_of_getElem? hids hjoins.target]
  rw [Constraint.touches, Bool.or_eq_true, beq_iff_eq, beq_iff_eq] at h
  cases h with
  | inl h => exact Or.inl (by rw [h])
  | inr h => exact Or.inr (by rw [h])

/-- The base of constraints to later instances is the first instance that one of them names. -/
theorem exists_base_of_ne_nil (hrise : Rising (idsOf instances) constraints)
    (hids : (idsOf instances).Nodup) (hne : constraints ≠ []) :
    ∃ b inst, baseOf instances constraints = some b ∧ instances[b]? = some inst ∧
      instances.find? (fun i ↦ constraints.any (·.touches i.id)) = some inst := by
  have hlinks : links instances constraints ≠ [] := by
    obtain ⟨c, hc⟩ := List.exists_mem_of_ne_nil constraints hne
    obtain ⟨l, hl, -⟩ := exists_mem_links hc (hrise.usable hids hc)
    exact List.ne_nil_of_mem hl
  obtain ⟨l, hl, hbase, hleast⟩ := exists_mem_baseIndex (fun l hl ↦ hrise.a_lt_b hids hl)
    (fun l hl ↦ a_lt_of_mem_links hl) hlinks
  have hlt := a_lt_of_mem_links hl
  have hinst := List.getElem?_eq_getElem hlt
  refine ⟨l.a, _, hbase, hinst, List.find?_eq_some_iff_getElem.mpr
    ⟨?_, l.a, hlt, rfl, fun j hj ↦ ?_⟩⟩
  · obtain ⟨hc, hjoins⟩ := joins_of_mem_links hl
    have hsource := hjoins.source
    rw [List.getElem?_map, hinst] at hsource
    refine List.any_eq_true.mpr ⟨l.constraint, hc, ?_⟩
    rw [Constraint.touches, Bool.or_eq_true]
    exact Or.inl (beq_iff_eq.mpr (Option.some.inj hsource).symm)
  · rw [Bool.not_eq_true', List.any_eq_false]
    intro c hc htouches
    have hbefore := List.getElem?_eq_getElem (Nat.lt_trans hj hlt)
    have hid := getElem?_idsOf.mpr ⟨_, hbefore, rfl⟩
    -- all links lead from the base or from behind it, to places behind that
    obtain ⟨k, hk, hside⟩ := hrise.exists_link_of_touches hids hid hc htouches
    have hle := hleast k hk
    have hnext := hrise.a_lt_b hids hk
    omega

/-- Without constraints the base is the first instance. -/
theorem exists_base_of_nil (hne : instances ≠ []) :
    ∃ inst, instances.head? = some inst ∧ baseOf instances [] = some 0 := by
  obtain ⟨inst, rest, rfl⟩ := List.exists_cons_of_ne_nil hne
  exact ⟨inst, rfl, baseIndex_nil (Nat.succ_pos _)⟩

end Named

end PipingAssembly
