import PipingAssembly.Proofs.Exchange.Statements
import PipingAssembly.Proofs.Run.Ids
import PipingAssembly.Proofs.Solver.Chains
import PipingAssembly.Proofs.Solver.Reach

/-!
# The chain of instances in a run over an exchange file

The instances of an exchange file are joined to their neighbours only. So one chain of them starts
at the base and goes on as far as neighbours are joined. Each instance of the chain has its
placement by the one before it, through the first constraint between the two. All other instances of
the file are on the grid, and the second pass over the constraints, if there is one, is the last.
-/

namespace PipingAssembly

/-- One instance has its placement by the instance before it, through the first constraint between
the two, and that constraint follows the rule that goes before all others. -/
def PlacedNext (c : RunContext) (constraints : List Constraint) (a b : Instance)
    (o p : Placement) : Prop :=
  ∃ rule constraint, leadingRule? c.parts c.rules c.policy.matching a b = some rule ∧
    constraints.find? (·.leads a.id b.id) = some constraint ∧ constraint.Follows rule ∧
    p = ⟨b.id, o.pose.propagate .forward constraint.type constraint.parameters c.policy.solver
      a.family, .constraint constraint.id a.id⟩

/-- The instances of an exchange file from `b` to `e` are a chain from the base, and those outside
of it are on the grid. -/
structure Run.Chain (r : Run) (c : RunContext) (extracted : List Instance) (b e : Nat) : Prop where
  front : ∃ synthesized, r.instances = extracted ++ synthesized ∧
    ∀ i ∈ synthesized, i.isSynthesized = true
  constraints : r.constraints = generateSequential extracted c.parts c.rules c.policy.matching
  base : ∃ inst, extracted[b]? = some inst ∧ r.report.base = some inst.id ∧
    r.placements[b]? = some ⟨inst.id, .origin, .base⟩
  le : b ≤ e
  lt : e < extracted.length
  linked : ∀ i, b ≤ i → i < e → Linked (idsOf extracted) r.constraints i
  maximal : ¬ Linked (idsOf extracted) r.constraints e
  placed : ∀ i, b ≤ i → i < e → ∃ x y o p, extracted[i]? = some x ∧ extracted[i + 1]? = some y ∧
    r.placements[i]? = some o ∧ r.placements[i + 1]? = some p ∧ PlacedNext c r.constraints x y o p
  fallback : ∀ i inst, extracted[i]? = some inst → i < b ∨ e < i →
    ∃ p, r.placements[i]? = some p ∧ p.instanceId = inst.id ∧ p.isFallback = true
  passes : r.report.passes ≤ 2

section Sequential

variable {c : RunContext} {extracted : List Instance}

/-- The constraints of a context between neighbours. -/
abbrev RunContext.sequential (c : RunContext) (extracted : List Instance) : List Constraint :=
  generateSequential extracted c.parts c.rules c.policy.matching

/-- A placement by the first link from an index is that of the next instance by the first constraint
between the two. -/
theorem exists_placedNext (hids : (idsOf extracted).Nodup) {i : Nat} {l : Link} {o : Placement}
    (hl : (links extracted (c.sequential extracted)).find? (·.a == i) = some l)
    (ho : (spread extracted (c.sequential extracted) c.policy.solver).2.placed? i = some o) :
    ∃ x y, extracted[i]? = some x ∧ extracted[i + 1]? = some y ∧
      PlacedNext c (c.sequential extracted) x y o
        (l.place .forward o (familyAt extracted l.a) c.policy.solver) := by
  have hconsecutive : Consecutive (idsOf extracted) (c.sequential extracted) :=
    consecutive_generateSequential hids
  obtain ⟨hmem, hla⟩ := of_find?_a hl
  have hlb : l.b = i + 1 := hla ▸ (hconsecutive.chained hids).next l hmem
  have hjoins := (joins_of_mem_links hmem).2
  obtain ⟨x, hx, hxid⟩ := getElem?_idsOf.mp (hla ▸ hjoins.source)
  obtain ⟨y, hy, hyid⟩ := getElem?_idsOf.mp (hlb ▸ hjoins.target)
  have hxs := getElem?_idsOf.mpr ⟨x, hx, rfl⟩
  have hys := getElem?_idsOf.mpr ⟨y, hy, rfl⟩
  have hfirst := hconsecutive.find?_leads hids hxs hys
  rw [hl, Option.map_some] at hfirst
  obtain ⟨rule, hrule, hfollows⟩ := exists_leadingRule? hids hx hy hfirst
  have hfamily : familyAt extracted l.a = x.family := by rw [familyAt, hla, hx]; rfl
  have horigin : o.instanceId = x.id := by
    have hid := (labelled_spread extracted (c.sequential extracted) c.policy.solver).1.id_eq i o ho
    exact Option.some.inj (hid.symm.trans hxs)
  refine ⟨x, y, hx, hy, rule, l.constraint, hrule, hfirst, hfollows, ?_⟩
  rw [Link.place, hfamily, horigin, hyid]

/-- A run over instances with distinct ids, joined to their neighbours, makes one chain. -/
theorem RunContext.exists_chain_finished (c : RunContext) (hids : (idsOf extracted).Nodup)
    (hne : extracted ≠ []) (hbound : 1 ≤ passBound c.policy.solver extracted.length)
    (name : String) (mode : Mode) (warnings : List Warning) :
    ∃ b e, (c.finished name mode extracted (c.sequential extracted) warnings).Chain c extracted
      b e := by
  have hconsecutive : Consecutive (idsOf extracted) (c.sequential extracted) :=
    consecutive_generateSequential hids
  have hlabels := (labelled_spread extracted (c.sequential extracted) c.policy.solver).1
  have hfront : ∀ {i : Nat} {p : Placement},
      (solution extracted (c.sequential extracted) c.policy.solver).placements[i]? = some p →
        (c.finished name mode extracted (c.sequential extracted) warnings).placements[i]? =
          some p := by
    intro i p hp
    rw [finished, List.getElem?_append_left (List.getElem?_eq_some_iff.mp hp).1, hp]
  obtain ⟨b, inst, hb, hinst, hbase, hplaced⟩ :=
    exists_base hne (c.sequential extracted) c.policy.solver
  obtain ⟨e, hchain, hcovers, hpasses⟩ := hconsecutive.exists_chain_spread hids hbound hb
  exact ⟨b, e,
    { front := ⟨_, rfl, fun _ hi ↦ isSynthesized_of_mem_map_added hi⟩
      constraints := rfl
      base := ⟨inst, hinst, hbase, hfront (getElem?_placements_of_placed? hplaced)⟩
      le := hchain.le
      lt := by
        rw [← List.length_map (f := (·.id))]
        exact hcovers.lt_length hlabels hchain.le
      linked := fun i hbi hie ↦ by
        obtain ⟨l, -, hl, -, -⟩ := hchain.placed i hbi hie
        exact (hconsecutive.exists_mem_links_iff hids).mp ⟨l, of_find?_a hl⟩
      maximal := fun hlinked ↦ by
        obtain ⟨l, hl, hla⟩ := (hconsecutive.exists_mem_links_iff hids).mpr hlinked
        exact hchain.last l hl hla
      placed := fun i hbi hie ↦ by
        obtain ⟨l, o, hl, ho, hp⟩ := hchain.placed i hbi hie
        obtain ⟨x, y, hx, hy, hnext⟩ := exists_placedNext hids hl ho
        exact ⟨x, y, o, _, hx, hy, hfront (getElem?_placements_of_placed? ho),
          hfront (getElem?_placements_of_placed? hp), hnext⟩
      fallback := fun i inst hinst houtside ↦ by
        have hnone :
            (spread extracted (c.sequential extracted) c.policy.solver).2.placed? i = none := by
          rw [← Option.not_isSome_iff_eq_none, hcovers i]
          omega
        obtain ⟨p, hp, hpid, hgrid⟩ := exists_fallback_of_placed? hinst hnone
        exact ⟨p, hfront hp, hpid, hgrid⟩
      passes := hpasses }⟩

end Sequential

/-- In every run over the instances of an exchange file these make one chain from the base, and at
most two passes are run, whatever the length of the chain. -/
theorem RunContext.exists_chain (c : RunContext) {text name : String} {r : Run}
    (h : c.runExchange text name = .ok r) (hmode : r.mode = .exchange)
    (hpasses : 1 ≤ c.policy.solver.passesPerPart)
    (hbound : c.policy.solver.passesPerPart.toNat *
      (Exchange.Assembly.read text).instances.length < UInt64.size) :
    ∃ b e, r.Chain c ((Exchange.Assembly.read text).instances.map c.withCatalogEntry) b e := by
  obtain ⟨-, ⟨-, hcatalog⟩ | ⟨hinstances, -, hexchange⟩⟩ := runExchange_eq_ok.mp h
  · obtain ⟨-, -, hfinish⟩ := assembleCatalog_eq_ok.mp hcatalog
    obtain ⟨-, -, -, rfl⟩ := finish_eq_ok.mp hfinish
    cases hmode
  · obtain ⟨-, -, hids, rfl⟩ := finish_eq_ok.mp hexchange
    refine c.exists_chain_finished hids (mt List.map_eq_nil_iff.mp hinstances) ?_ name .exchange []
    rw [List.length_map]
    exact Nat.le_trans (List.length_pos_iff.mpr hinstances) (length_le_passBound hpasses hbound)

/-- The entity of a product with nothing but a name. -/
private abbrev productEntity (id : Exchange.EntityId) (name : String) : Exchange.Entity :=
  ⟨id, [("PRODUCT", [.text name])]⟩

private theorem tokens_flanges_valve :
    Exchange.tokens "#1=PRODUCT('Flange A');#2=PRODUCT('Flange B');#3=PRODUCT('Valve');".toList =
      [productEntity 1 "Flange A", productEntity 2 "Flange B", productEntity 3 "Valve"].flatMap
        Exchange.Entity.tokens := by
  with_unfolding_all rfl

/-- Two flanges and a valve, of which a rule joins the flanges. -/
theorem exists_chain_flanges :
    let text := "#1=PRODUCT('Flange A');#2=PRODUCT('Flange B');#3=PRODUCT('Valve');"
    let rule : Rule :=
      { id := "R-FLANGES", name := "Flanges"
        condition := .both { field := "family", value := some "flange" }
        action := { type := .coincident } }
    let c : RunContext := { parts := [], rules := [rule] }
    1 ≤ c.policy.solver.passesPerPart ∧
      c.policy.solver.passesPerPart.toNat * (Exchange.Assembly.read text).instances.length <
        UInt64.size ∧
      ∃ r, c.runExchange text "flanges" = .ok r ∧ r.mode = .exchange ∧
        ∃ b e, r.Chain c ((Exchange.Assembly.read text).instances.map c.withCatalogEntry) b e := by
  intro text rule c
  have hread := Exchange.readEntities_of_tokens (by simp) tokens_flanges_valve
  have hlength : (Exchange.Assembly.read text).instances.length = 3 := by
    rw [Exchange.Assembly.read, hread]
    rfl
  have hinstances : (Exchange.Assembly.read text).instances ≠ [] := by
    rw [← List.length_pos_iff, hlength]
    decide
  have hpasses : 1 ≤ c.policy.solver.passesPerPart := by decide
  have hbound : c.policy.solver.passesPerPart.toNat *
      (Exchange.Assembly.read text).instances.length < UInt64.size := by
    rw [hlength]
    decide
  have hrun : c.runExchange text "flanges" = .ok _ := RunContext.runExchange_eq_ok.mpr
    ⟨rfl, Or.inr ⟨hinstances, rfl, RunContext.finish_eq_ok.mpr
      ⟨rfl, rfl, c.nodup_extracted text, rfl⟩⟩⟩
  exact ⟨hpasses, hbound, _, hrun, rfl, c.exists_chain hrun rfl hpasses hbound⟩

end PipingAssembly
