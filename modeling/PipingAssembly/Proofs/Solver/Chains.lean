import Mathlib.Data.List.Find
import PipingAssembly.Proofs.Solver.Base

/-!
# Chains of links

Where every link leads from an index to the next one, and the links follow the order of their
sources, a single pass goes from a placed index as far as there are links. Of several links between
two indices the first one places the second of them. Nothing is placed against the direction of a
link, and a second pass finds nothing to do.
-/

namespace PipingAssembly

/-- Links from an index to the next one, in the order of their sources. -/
structure Chained (ls : List Link) : Prop where
  next : ∀ l ∈ ls, l.b = l.a + 1
  sorted : ls.Pairwise fun l k ↦ l.a ≤ k.a

theorem Chained.tail {l : Link} {ls : List Link} (h : Chained (l :: ls)) : Chained ls where
  next k hk := h.next k (List.mem_cons_of_mem l hk)
  sorted := (List.pairwise_cons.mp h.sorted).2

theorem of_find?_a {ls : List Link} {l : Link} {i : Nat} (h : ls.find? (·.a == i) = some l) :
    l ∈ ls ∧ l.a = i :=
  ⟨List.mem_of_find?_eq_some h,
    beq_iff_eq.mp (List.find?_some (p := fun l : Link ↦ l.a == i) h)⟩

namespace Slots

/-- Exactly the indices from `b` to `e` have placements. -/
def Covers (slots : Slots) (b e : Nat) : Prop :=
  ∀ i, (slots.placed? i).isSome ↔ b ≤ i ∧ i ≤ e

/-- From `k` to `e` each placement is by the first link from the index before, and none leads on. -/
structure Chain (slots : Slots) (instances : List Instance) (policy : SolverPolicy Float)
    (ls : List Link) (k e : Nat) : Prop where
  le : k ≤ e
  /-- there is no link from the last index -/
  last : ∀ l ∈ ls, l.a ≠ e
  placed : ∀ i, k ≤ i → i < e → ∃ l o, ls.find? (·.a == i) = some l ∧ slots.placed? i = some o ∧
    slots.placed? (i + 1) = some (l.place .forward o (familyAt instances l.a) policy)

section Chain

variable {instances : List Instance} {policy : SolverPolicy Float} {ls : List Link} {l : Link}
  {slots : Slots} {k e : Nat}

/-! ### One more link -/

private theorem find?_cons_of_ne {i : Nat} (h : l.a ≠ i) :
    (l :: ls).find? (·.a == i) = ls.find? (·.a == i) :=
  List.find?_cons_of_neg fun heq ↦ h (eq_of_beq heq)

/-- A link from an index before the chain takes no part in it. -/
theorem Chain.cons_of_lt (h : slots.Chain instances policy ls k e) (hl : l.a < k) :
    slots.Chain instances policy (l :: ls) k e where
  le := h.le
  last := List.forall_mem_cons.mpr ⟨Nat.ne_of_lt (Nat.lt_of_lt_of_le hl h.le), h.last⟩
  placed i hki hie := by
    rw [find?_cons_of_ne (Nat.ne_of_lt (Nat.lt_of_lt_of_le hl hki))]
    exact h.placed i hki hie

/-- A link to the start of a chain makes it longer. -/
theorem Chain.cons_of_eq (h : slots.Chain instances policy ls (k + 1) e) (hl : l.a = k)
    {o : Placement} (ho : slots.placed? k = some o)
    (hnext : slots.placed? (k + 1) = some (l.place .forward o (familyAt instances l.a) policy)) :
    slots.Chain instances policy (l :: ls) k e where
  le := Nat.le_of_succ_le h.le
  last := List.forall_mem_cons.mpr ⟨hl ▸ Nat.ne_of_lt h.le, h.last⟩
  placed i hki hie := by
    cases Nat.eq_or_lt_of_le hki with
    | inl heq =>
      subst heq
      exact ⟨l, o, List.find?_cons_of_pos (beq_iff_eq.mpr hl), ho, hnext⟩
    | inr hlt =>
      rw [find?_cons_of_ne (hl ▸ Nat.ne_of_lt hlt)]
      exact h.placed i hlt hie

/-- Links from behind the start of a chain do not make it longer. -/
theorem Chain.cons_of_gt (h : slots.Chain instances policy ls k e) (hl : k < l.a)
    (hsorted : ∀ m ∈ ls, l.a ≤ m.a) : slots.Chain instances policy (l :: ls) k e := by
  -- a longer chain would have a link from its start
  have heq : e = k := by
    refine (Nat.eq_or_lt_of_le h.le).elim Eq.symm fun hlt ↦ ?_
    obtain ⟨m, -, hm, -⟩ := h.placed k (Nat.le_refl k) hlt
    obtain ⟨hmem, hma⟩ := of_find?_a hm
    have hle := hsorted m hmem
    omega
  subst heq
  exact ⟨Nat.le_refl e, List.forall_mem_cons.mpr ⟨Nat.ne_of_gt hl, h.last⟩,
    fun i hki hie ↦ absurd hki (Nat.not_le_of_lt hie)⟩

/-! ### One step -/

variable (instances policy)

/-- A link from another index than the last one has both sides in the block or neither. -/
theorem Covers.step_of_ne {b : Nat} (h : slots.Covers b k) (hla : b ≤ l.a) (hlb : l.b = l.a + 1)
    (hne : l.a ≠ k) : Slots.step instances policy slots l = slots := by
  apply step_of_settled
  rw [Bool.eq_iff_iff, h l.a, h l.b]
  omega

/-- A link from the last index adds the next one to the block. -/
theorem Covers.step_of_eq {b : Nat} (h : slots.Covers b k) (hb : b ≤ k) (hla : l.a = k)
    (hlb : l.b = k + 1) (hk : k + 1 < slots.length) :
    (Slots.step instances policy slots l).Covers b (k + 1) ∧
      slots.Extends (Slots.step instances policy slots l) ∧
      ∃ o, slots.placed? k = some o ∧ (Slots.step instances policy slots l).placed? (k + 1) =
        some (l.place .forward o (familyAt instances l.a) policy) := by
  obtain ⟨o, ho⟩ := Option.isSome_iff_exists.mp ((h k).mpr ⟨hb, Nat.le_refl k⟩)
  have hnone : slots.placed? (k + 1) = none := by
    rw [← Option.not_isSome_iff_eq_none, h (k + 1)]
    omega
  rw [step_forward instances policy (hla ▸ ho) (hlb ▸ hnone), hlb]
  refine ⟨fun i ↦ ?_, extends_set hk hnone _, o, ho, by rw [placed?_set hk, if_pos rfl]⟩
  rw [placed?_set hk]
  by_cases hi : k + 1 = i
  · simp only [hi, if_true, Option.isSome_some, true_iff]
    omega
  · rw [if_neg hi, h i]
    omega

/-! ### One pass -/

/-- A pass over such links from a placed index on makes a chain from there. -/
theorem exists_chain_pass {b : Nat} (hchained : Chained ls) (hle : ∀ l ∈ ls, b ≤ l.a)
    (hholds : slots.Holds ls) (hb : b ≤ k) (hcovers : slots.Covers b k) :
    ∃ e, (Slots.pass instances policy ls slots).Chain instances policy ls k e ∧
      (Slots.pass instances policy ls slots).Covers b e ∧
      slots.Extends (Slots.pass instances policy ls slots) := by
  induction ls generalizing slots k with
  | nil =>
    have hnil : Slots.pass instances policy [] slots = slots := rfl
    rw [hnil]
    refine ⟨k, ⟨Nat.le_refl k, ?_, fun i hki hik ↦ absurd hki (Nat.not_le_of_lt hik)⟩, hcovers,
      fun _ _ hp ↦ hp⟩
    exact fun l hl ↦ absurd hl List.not_mem_nil
  | cons l ls ih =>
    have hlb := hchained.next l List.mem_cons_self
    have hla := hle l List.mem_cons_self
    have hle' := fun m hm ↦ hle m (List.mem_cons_of_mem l hm)
    have hholds' : (Slots.step instances policy slots l).Holds ls := by
      intro m hm
      rw [length_step]
      exact hholds m (List.mem_cons_of_mem l hm)
    have hcons : Slots.pass instances policy (l :: ls) slots =
        Slots.pass instances policy ls (Slots.step instances policy slots l) := rfl
    rw [hcons]
    by_cases heq : l.a = k
    · have hlb' : l.b = k + 1 := heq ▸ hlb
      have hlength : k + 1 < slots.length := hlb' ▸ (hholds l List.mem_cons_self).2
      obtain ⟨hcovers', hstep, o, ho, hnext⟩ :=
        hcovers.step_of_eq instances policy hb heq hlb' hlength
      obtain ⟨e, hchain, hcoversAll, hextends⟩ :=
        ih hchained.tail hle' hholds' (Nat.le_succ_of_le hb) hcovers'
      exact ⟨e, hchain.cons_of_eq heq (hextends k o (hstep k o ho)) (hextends (k + 1) _ hnext),
        hcoversAll, hstep.trans hextends⟩
    · rw [hcovers.step_of_ne instances policy hla hlb heq] at hholds' ⊢
      obtain ⟨e, hchain, hcoversAll, hextends⟩ := ih hchained.tail hle' hholds' hb hcovers
      refine ⟨e, ?_, hcoversAll, hextends⟩
      cases Nat.lt_or_gt_of_ne heq with
      | inl hlt => exact hchain.cons_of_lt hlt
      | inr hgt => exact hchain.cons_of_gt hgt (List.pairwise_cons.mp hchained.sorted).1

/-- The last index of a block is that of an id. -/
theorem Covers.lt_length {b : Nat} {ids : List String} (h : slots.Covers b e)
    (hlabels : slots.Labelled ids) (hb : b ≤ e) : e < ids.length := by
  obtain ⟨p, hp⟩ := Option.isSome_iff_exists.mp ((h e).mpr ⟨hb, Nat.le_refl e⟩)
  exact (List.getElem?_eq_some_iff.mp (hlabels.id_eq e p hp)).1

/-- After such a pass every link has both sides placed or neither. -/
theorem Covers.settled {b : Nat} (h : slots.Covers b e) (hchained : Chained ls)
    (hle : ∀ l ∈ ls, b ≤ l.a) (hlast : ∀ l ∈ ls, l.a ≠ e) : slots.Settled ls := by
  intro l hl
  have hnext := hchained.next l hl
  have hla := hle l hl
  have hne := hlast l hl
  rw [Bool.eq_iff_iff, h l.a, h l.b]
  omega

end Chain

end Slots

/-! ### Constraints between neighbours -/

/-- A constraint leads from the id at a place to the next one. -/
def Linked (ids : List String) (cs : List Constraint) (i : Nat) : Prop :=
  ∃ c ∈ cs, c.Spans ids i (i + 1)

section Consecutive

variable {instances : List Instance} {constraints : List Constraint}

/-- The links of constraints between neighbours are those of a chain. -/
theorem Consecutive.chained (h : Consecutive (idsOf instances) constraints)
    (hids : (idsOf instances).Nodup) : Chained (links instances constraints) where
  next l hl := by
    obtain ⟨hc, hjoins⟩ := joins_of_mem_links hl
    obtain ⟨i, hspans⟩ := h.next _ hc
    rw [← idxOf_of_getElem? hids hjoins.source, ← idxOf_of_getElem? hids hjoins.target,
      idxOf_of_getElem? hids hspans.source, idxOf_of_getElem? hids hspans.target]
  sorted := by
    have hsorted := h.sorted
    rw [← map_constraint_links fun c hc ↦ h.rising.usable hids hc, List.pairwise_map] at hsorted
    refine hsorted.imp_of_mem fun {l k} hl hk hle ↦ ?_
    rwa [idxOf_of_getElem? hids (joins_of_mem_links hl).2.source,
      idxOf_of_getElem? hids (joins_of_mem_links hk).2.source] at hle

/-- A link leads from an index exactly where a constraint does. -/
theorem Consecutive.exists_mem_links_iff (h : Consecutive (idsOf instances) constraints)
    (hids : (idsOf instances).Nodup) {i : Nat} :
    (∃ l ∈ links instances constraints, l.a = i) ↔ Linked (idsOf instances) constraints i := by
  constructor
  · rintro ⟨l, hl, rfl⟩
    obtain ⟨hc, hjoins⟩ := joins_of_mem_links hl
    exact ⟨l.constraint, hc, hjoins.source, (h.chained hids).next l hl ▸ hjoins.target⟩
  · rintro ⟨c, hc, hspans⟩
    obtain ⟨l, hl, rfl⟩ := exists_mem_links hc (h.rising.usable hids hc)
    refine ⟨l, hl, ?_⟩
    rw [← idxOf_of_getElem? hids (joins_of_mem_links hl).2.source,
      idxOf_of_getElem? hids hspans.source]

/-- The first constraint between two neighbours is that of the first link between them. -/
theorem Consecutive.find?_leads (h : Consecutive (idsOf instances) constraints)
    (hids : (idsOf instances).Nodup) {i : Nat} {a b : String}
    (ha : (idsOf instances)[i]? = some a) (hb : (idsOf instances)[i + 1]? = some b) :
    constraints.find? (·.leads a b) =
      ((links instances constraints).find? (·.a == i)).map (·.constraint) := by
  have hsides : ∀ l ∈ links instances constraints, l.constraint.leads a b = (l.a == i) := by
    intro l hl
    have hjoins := (joins_of_mem_links hl).2
    have hnext := (h.chained hids).next l hl
    rw [Bool.eq_iff_iff, Constraint.leads, Bool.and_eq_true, beq_iff_eq, beq_iff_eq, beq_iff_eq]
    constructor
    · rintro ⟨hsource, -⟩
      rw [← idxOf_of_getElem? hids ha, ← hsource, idxOf_of_getElem? hids hjoins.source]
    · rintro rfl
      exact ⟨Option.some.inj (hjoins.source.symm.trans ha),
        Option.some.inj (hjoins.target.symm.trans (hnext ▸ hb))⟩
  calc constraints.find? (·.leads a b)
      = ((links instances constraints).map (·.constraint)).find? (·.leads a b) := by
        rw [map_constraint_links fun c hc ↦ h.rising.usable hids hc]
    _ = ((links instances constraints).find? fun l ↦ l.constraint.leads a b).map (·.constraint) :=
        List.find?_map
    _ = ((links instances constraints).find? (·.a == i)).map (·.constraint) := by
        rw [List.find?_congr hsides]

/-- Before the first pass exactly the base has a placement. -/
theorem covers_initialSlots {b : Nat} (hb : b < instances.length) :
    (initialSlots instances (some b)).Covers b b := by
  intro i
  rw [Option.isSome_iff_exists]
  simp only [placed?_initialSlots]
  constructor
  · rintro ⟨p, hbase, -⟩
    cases hbase
    exact ⟨Nat.le_refl _, Nat.le_refl _⟩
  · rintro ⟨hle, hge⟩
    obtain rfl := Nat.le_antisymm hle hge
    exact ⟨_, rfl, _, List.getElem?_eq_getElem hb, rfl⟩

/-- At most two passes over constraints between neighbours make one chain, which starts at the base.
-/
theorem Consecutive.exists_chain_spread (h : Consecutive (idsOf instances) constraints)
    (hids : (idsOf instances).Nodup) {policy : SolverPolicy Float}
    (hbound : 1 ≤ passBound policy instances.length) {b : Nat}
    (hb : baseOf instances constraints = some b) :
    ∃ e, (spread instances constraints policy).2.Chain instances policy
        (links instances constraints) b e ∧
      (spread instances constraints policy).2.Covers b e ∧
      (spread instances constraints policy).1 ≤ 2 := by
  have hlt : b < instances.length := baseIndex_lt hb
  have hle := le_of_baseIndex (fun l hl ↦ h.rising.a_lt_b hids hl)
    (fun l hl ↦ a_lt_of_mem_links hl) hb
  have hchained := h.chained hids
  have hholds : (initialSlots instances (some b)).Holds (links instances constraints) :=
    (labelled_initialSlots instances (some b)).holds
  obtain ⟨e, hchain, hcovers, -⟩ := Slots.exists_chain_pass instances policy hchained hle hholds
    (Nat.le_refl b) (covers_initialSlots hlt)
  have hsettled := hcovers.settled hchained hle hchain.last
  obtain ⟨hslots, hpasses⟩ := Slots.run_of_settled_pass instances policy hholds hsettled hbound 0
  rw [spread, hb, hslots]
  exact ⟨e, hchain, hcovers, hpasses⟩

end Consecutive

end PipingAssembly
