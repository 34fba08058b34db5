import PipingAssembly.Proofs.Catalog.Firsts
import PipingAssembly.Proofs.Results
import PipingAssembly.Proofs.Store.Records
import PipingAssembly.Store.Basic

/-!
# Tables that mirror a catalog

A rebuilt table holds one row for each record, in the order of the store, as the records have
different ids. Reading the rows of parts gives the parts back for every selection. Reading the rows
of rules gives the active rules back exactly if their floating-point numbers survive.
-/

namespace PipingAssembly

/-! ### Tables of rows -/

/-- Rows with different ids are put into a table one after another. -/
theorem foldl_putRow {α : Type} (key : α → String) (table : List α) {rows : List α}
    (h : ((table ++ rows).map key).Nodup) :
    rows.foldl (Database.putRow key) table = table ++ rows := by
  induction rows generalizing table with
  | nil => exact (List.append_nil table).symm
  | cons row rows ih =>
    have hkeep : Database.putRow key table row = table ++ [row] := by
      rw [Database.putRow, List.filter_eq_self.mpr]
      intro other hother
      rw [List.map_append, List.nodup_append'] at h
      have hdisjoint := h.2.2 (List.mem_map_of_mem hother)
      rw [List.map_cons] at hdisjoint
      exact bne_iff_ne.mpr fun heq ↦ hdisjoint (heq ▸ List.mem_cons_self)
    rw [List.foldl_cons, hkeep, ih, List.append_assoc]
    · rfl
    · rw [List.append_assoc]
      exact h

/-! ### Orders -/

theorem pairwise_sortParts (parts : List Part) :
    (sortParts parts).Pairwise fun p q ↦ decide (p.id ≤ q.id) = true := by
  apply List.pairwise_mergeSort
  · intro p q r hpq hqr
    exact decide_eq_true (String.le_trans (of_decide_eq_true hpq) (of_decide_eq_true hqr))
  · intro p q
    rw [Bool.or_eq_true, decide_eq_true_eq, decide_eq_true_eq]
    exact String.le_total p.id q.id

theorem Rule.precedes_iff {r s : Rule} :
    r.precedes s = true ↔
      s.priority.toInt < r.priority.toInt ∨
        r.priority.toInt = s.priority.toInt ∧ r.id ≤ s.id := by
  simp [Rule.precedes, Int32.lt_iff_toInt_lt, Int32.toInt_inj]

theorem pairwise_sortRules (rules : List Rule) :
    (sortRules rules).Pairwise fun r s ↦ r.precedes s = true := by
  apply List.pairwise_mergeSort
  · intro r s t hrs hst
    rw [Rule.precedes_iff] at *
    obtain hrs | ⟨hrs, hid⟩ := hrs
    · omega
    · obtain hst | ⟨hst, hid'⟩ := hst
      · omega
      · exact Or.inr ⟨hrs.trans hst, String.le_trans hid hid'⟩
  · intro r s
    rw [Bool.or_eq_true, Rule.precedes_iff, Rule.precedes_iff]
    obtain hlt | heq | hgt := Int.lt_trichotomy r.priority.toInt s.priority.toInt
    · exact Or.inr (Or.inl hlt)
    · exact (String.le_total r.id s.id).imp (fun hid ↦ Or.inr ⟨heq, hid⟩)
        fun hid ↦ Or.inr ⟨heq.symm, hid⟩
    · exact Or.inl (Or.inl hgt)

/-! ### Reading rows -/

namespace Database

/-- Whether the tables of a database hold some records, in their order. -/
def Mirrors (d : Database) (parts : List Part) (rules : List Rule) : Prop :=
  d.parts = parts.map .of ∧ d.rules = rules.map .of

/-- A database whose rows are those of parts in the order of ids gives these parts for every
selection. -/
theorem Mirrors.selectParts {d : Database} {parts : List Part} {rules : List Rule}
    (h : d.Mirrors parts rules)
    (horder : parts.Pairwise fun p q ↦ decide (p.id ≤ q.id) = true)
    (hkeys : ∀ p ∈ parts, KeysRise p.metadata) (f : PartFilter) :
    d.selectParts f = .ok (f.select parts) := by
  let ofFamily : Part → Bool := fun p ↦ f.family.all (p.family.name == ·.name)
  have hrows : d.parts.filter (fun row ↦ f.family.all (row.family == ·.name)) =
      (parts.filter ofFamily).map PartRow.of := by
    rw [h.1, List.filter_map]
    rfl
  have hsorted : ((parts.filter ofFamily).map PartRow.of).mergeSort (fun a b ↦ a.id ≤ b.id) =
      (parts.filter ofFamily).map PartRow.of :=
    List.mergeSort_of_pairwise (List.pairwise_map.mpr (horder.filter ofFamily))
  have hread : ((parts.filter ofFamily).map PartRow.of).mapM PartRow.part =
      .ok (parts.filter ofFamily) := by
    rw [List.mapM_map, mapM_eq_ok_iff, List.forall₂_same]
    intro p hp
    rw [Function.comp_apply, PartRow.part_of (hkeys p (List.mem_filter.mp hp).1)]
  have hselect : f.select (parts.filter ofFamily) = f.select parts := by
    rw [PartFilter.select, PartFilter.select, List.filter_filter]
    apply List.filter_congr
    intro p _
    rw [Bool.and_eq_left_iff_imp]
    intro haccepts
    rw [PartFilter.accepts, Bool.and_eq_true, Bool.and_eq_true] at haccepts
    obtain ⟨⟨-, hfamily⟩, -⟩ := haccepts
    cases hf : f.family with
    | none => simp [ofFamily, hf]
    | some family =>
      rw [hf, Option.all_some, beq_iff_eq] at hfamily
      simp [ofFamily, hf, hfamily]
  rw [Database.selectParts, hrows, hsorted, hread, ← hselect]
  rfl

/-- What the rows of rules hold stands in the order of the rules. -/
private theorem sortRules_of_rows {rules read : List Rule}
    (horder : rules.Pairwise fun r s ↦ r.precedes s = true)
    (hrows : List.Forall₂ (fun r s ↦ (RuleRow.of r).rule = .ok s) rules read) :
    sortRules read = read := by
  have hkeys : rules.map (fun r ↦ (r.priority, r.id)) = read.map fun r ↦ (r.priority, r.id) := by
    induction hrows with
    | nil => rfl
    | cons hrow _ ih =>
      obtain ⟨hid, hpriority⟩ := RuleRow.id_priority_of_rule_of hrow
      rw [List.map_cons, List.map_cons, hid, hpriority, ih (List.pairwise_cons.mp horder).2]
  let before : Int32 × String → Int32 × String → Prop := fun a b ↦
    (decide (b.1 < a.1) || (a.1 == b.1 && decide (a.2 ≤ b.2))) = true
  have hmap : (read.map fun r ↦ (r.priority, r.id)).Pairwise before := by
    rw [← hkeys, List.pairwise_map]
    exact horder
  exact List.mergeSort_of_pairwise (List.pairwise_map.mp hmap)

/-- A database whose rows are those of rules in the order of stores gives the active ones among them
exactly if their floating-point numbers survive. -/
theorem Mirrors.activeRules_eq_ok_iff {d : Database} {parts : List Part} {rules : List Rule}
    (h : d.Mirrors parts rules) (horder : rules.Pairwise fun r s ↦ r.precedes s = true) :
    d.activeRules = .ok (rules.filter (·.isActive)) ↔
      ∀ r ∈ rules, r.isActive = true → ∀ x ∈ r.floats, ReadsBack x := by
  have hactive := horder.filter (·.isActive)
  have hrows : (d.rules.filter (·.isActive)).mergeSort rowPrecedes =
      (rules.filter (·.isActive)).map RuleRow.of := by
    rw [h.2, List.filter_map]
    exact List.mergeSort_of_pairwise (List.pairwise_map.mpr hactive)
  have hsorted : sortRules (rules.filter (·.isActive)) = rules.filter (·.isActive) :=
    List.mergeSort_of_pairwise hactive
  rw [Database.activeRules, hrows, List.mapM_map, Function.comp_def]
  constructor
  · intro hall r hr hisActive
    cases hrules : (rules.filter (·.isActive)).mapM fun r ↦ (RuleRow.of r).rule with
    | error e =>
      rw [hrules] at hall
      cases hall
    | ok read =>
      have hforall := mapM_eq_ok_iff.mp hrules
      rw [hrules] at hall
      have heq : read = rules.filter (·.isActive) :=
        (sortRules_of_rows hactive hforall).symm.trans (Except.ok.inj hall)
      rw [heq, List.forall₂_same] at hforall
      have hrow := hforall r (List.mem_filter.mpr ⟨hr, hisActive⟩)
      exact r.survives_iff.mp (RuleRow.rule_of_eq_ok_iff.mp hrow)
  · intro hall
    have hforall : List.Forall₂ (fun r s ↦ (RuleRow.of r).rule = .ok s)
        (rules.filter (·.isActive)) (rules.filter (·.isActive)) := by
      rw [List.forall₂_same]
      intro r hr
      obtain ⟨hmem, hisActive⟩ := List.mem_filter.mp hr
      exact RuleRow.rule_of_eq_ok_iff.mpr (r.survives_iff.mpr (hall r hmem hisActive))
    rw [mapM_eq_ok_iff.mpr hforall]
    exact congrArg Except.ok hsorted

end Database

end PipingAssembly
