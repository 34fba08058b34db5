import PipingAssembly.Proofs.Exchange.Texts
import PipingAssembly.Proofs.Run.Direction
import PipingAssembly.Proofs.Run.Ids

/-!
# Which files give way to the catalog

A run leaves an exchange file for the catalog if it finds no instances in it. This is not the same
as a file without products. A usage gives an instance without any product if it has a name of its
own, and a product gives none where there are usages and no usage has a name.
-/

namespace PipingAssembly

namespace Exchange

theorem numberOccurrences_eq_nil {before : List String} {os : List Occurrence} :
    numberOccurrences before os = [] ↔ os = [] := by
  cases os <;> simp [numberOccurrences]

namespace Assembly

variable {a : Assembly}

/-- Without usages an assembly has instances if it has products. -/
theorem instances_eq_nil_of_no_usages (h : a.usages = []) :
    a.instances = [] ↔ a.products = [] := by
  rw [instances, numberOccurrences_eq_nil, occurrences_of_no_usages h, List.mapIdx_eq_nil_iff]

/-- With usages it has instances if one of these has a name, whatever products it has. -/
theorem instances_eq_nil_of_usages (h : a.usages ≠ []) :
    a.instances = [] ↔ ∀ u ∈ a.usages, a.usageName u = "" := by
  rw [instances, numberOccurrences_eq_nil, occurrences_of_usages h, List.map_eq_nil_iff,
    List.filter_eq_nil_iff]
  simp only [decide_eq_true_eq, not_not]

/-- Without products every usage has but its own name. -/
theorem usageName_of_no_products (h : a.products = []) (u : Usage) :
    a.usageName u = u.occurrence := by
  have hnone : u.childProduct.bind a.product? = none := by
    simp [product?, h]
  rw [usageName, hnone]
  rfl

/-- An assembly without products has no instances if none of its usages has a name of its own. -/
theorem instances_eq_nil_of_no_products (h : a.products = []) :
    a.instances = [] ↔ ∀ u ∈ a.usages, u.occurrence = "" := by
  by_cases husages : a.usages = []
  · simp [instances_eq_nil_of_no_usages husages, h, husages]
  · simp [instances_eq_nil_of_usages husages, usageName_of_no_products h]

/-- An assembly with products has no instances if it has usages and none of them has a name. -/
theorem instances_eq_nil_of_products (h : a.products ≠ []) :
    a.instances = [] ↔ a.usages ≠ [] ∧ ∀ u ∈ a.usages, a.usageName u = "" := by
  by_cases husages : a.usages = []
  · simp [instances_eq_nil_of_no_usages husages, h, husages]
  · simp [instances_eq_nil_of_usages husages, husages]

end Assembly

end Exchange

namespace RunContext

/-- What a run over an exchange file has for its outcome if it leaves the file: an error if the
catalog is empty too, and else a run over the catalog with a warning. -/
def GivesWay (c : RunContext) (name : String) (outcome : Except RunError Run) : Prop :=
  (c.parts = [] ∧ outcome = .error .noPartData) ∨
    (c.parts ≠ [] ∧ outcome = c.assembleCatalog name [.emptyExchangeFile name])

/-- Which way the run over an exchange file goes. -/
structure Route (c : RunContext) (text name : String) : Prop where
  /-- the file is left exactly if no instances are found in it -/
  givesWay_iff : c.GivesWay name (c.runExchange text name) ↔
    (Exchange.Assembly.read text).instances = []
  /-- a file without products is left unless a usage has a name of its own -/
  withoutProducts : (Exchange.Assembly.read text).products = [] →
    (c.GivesWay name (c.runExchange text name) ↔
      ∀ u ∈ (Exchange.Assembly.read text).usages, u.occurrence = "")
  /-- a file with products is kept unless it has usages and none of them has a name -/
  withProducts : (Exchange.Assembly.read text).products ≠ [] →
    (c.GivesWay name (c.runExchange text name) ↔
      (Exchange.Assembly.read text).usages ≠ [] ∧
        ∀ u ∈ (Exchange.Assembly.read text).usages,
          (Exchange.Assembly.read text).usageName u = "")
  /-- a run that leaves the file and ends is one over the catalog, and says so -/
  leaves : c.GivesWay name (c.runExchange text name) → ∀ r, c.runExchange text name = .ok r →
    r.mode = .catalog ∧ .emptyExchangeFile name ∈ r.warnings
  /-- a run that keeps the file always ends, and is one over the file -/
  keeps : ¬ c.GivesWay name (c.runExchange text name) → ∃ r, c.runExchange text name = .ok r ∧
    r.mode = .exchange ∧ ∀ file, .emptyExchangeFile file ∉ r.warnings

section Outcome

variable {c : RunContext} {text name : String}

theorem GivesWay.leaves {r : Run} (h : c.GivesWay name (.ok r)) :
    r.mode = .catalog ∧ .emptyExchangeFile name ∈ r.warnings := by
  obtain ⟨-, h⟩ | ⟨-, h⟩ := h
  · cases h
  · obtain ⟨-, -, hfinish⟩ := assembleCatalog_eq_ok.mp h.symm
    obtain ⟨-, -, -, rfl⟩ := finish_eq_ok.mp hfinish
    exact ⟨rfl, List.mem_append_left _ (List.mem_append_left _ List.mem_cons_self)⟩

/-- Solving never warns about an empty file. -/
theorem emptyExchangeFile_notMem_finished {mode : Mode} {instances : List Instance}
    {constraints : List Constraint} (file : String) :
    .emptyExchangeFile file ∉ (c.finished name mode instances constraints []).warnings := by
  intro h
  obtain hbefore | ⟨_, -, hw⟩ | ⟨_, _, _, hw⟩ | ⟨_, _, _, _, _, hw⟩ := mem_warnings_finished h
  · cases hbefore
  · cases hw
  · cases hw
  · cases hw

/-- Without instances a file gives way. -/
theorem givesWay_of_eq_nil (hdeadline : ∀ stage, c.isPast stage = false)
    (h : (Exchange.Assembly.read text).instances = []) :
    c.GivesWay name (c.runExchange text name) := by
  rw [runExchange, checkpoint, hdeadline, h]
  by_cases hparts : c.parts = []
  · exact Or.inl ⟨hparts, by rw [hparts]; rfl⟩
  · exact Or.inr ⟨hparts, by rw [List.isEmpty_eq_false_iff.mpr hparts]; rfl⟩

/-- With instances it does not. -/
theorem keeps_of_ne_nil (hdeadline : ∀ stage, c.isPast stage = false)
    (h : (Exchange.Assembly.read text).instances ≠ []) (name : String) :
    ∃ r, c.runExchange text name = .ok r ∧ r.mode = .exchange ∧
      ∀ file, .emptyExchangeFile file ∉ r.warnings := by
  have hrun : c.runExchange text name = .ok _ := runExchange_eq_ok.mpr
    ⟨hdeadline _, Or.inr ⟨h, hdeadline _, finish_eq_ok.mpr
      ⟨hdeadline _, hdeadline _, c.nodup_extracted text, rfl⟩⟩⟩
  exact ⟨_, hrun, rfl, emptyExchangeFile_notMem_finished⟩

end Outcome

/-- Without a deadline a file gives way to the catalog exactly if no instances are found in it. That
decides it for files without products, where a usage may still have a name, and for files with
products, where all usages may be without one. -/
theorem route_runExchange (c : RunContext) (text name : String)
    (hdeadline : ∀ stage, c.isPast stage = false) : c.Route text name := by
  have hiff : c.GivesWay name (c.runExchange text name) ↔
      (Exchange.Assembly.read text).instances = [] := by
    refine ⟨fun hway ↦ by_contra fun hne ↦ ?_, givesWay_of_eq_nil hdeadline⟩
    obtain ⟨r, hr, hmode, -⟩ := keeps_of_ne_nil hdeadline hne name
    rw [hr] at hway
    rw [hway.leaves.1] at hmode
    cases hmode
  exact
    { givesWay_iff := hiff
      withoutProducts := fun h ↦ hiff.trans (Exchange.Assembly.instances_eq_nil_of_no_products h)
      withProducts := fun h ↦ hiff.trans (Exchange.Assembly.instances_eq_nil_of_products h)
      leaves := fun hway r hr ↦ by
        rw [hr] at hway
        exact hway.leaves
      keeps := fun hkeeps ↦ keeps_of_ne_nil hdeadline (mt hiff.mpr hkeeps) name }

/-- A usage of products that the file does not have. -/
private abbrev strayUsage : Exchange.Entity :=
  ⟨1, [("NEXT_ASSEMBLY_USAGE_OCCURRENCE",
    [.text "A", .text "", .text "", .reference 2, .reference 3, .omitted])]⟩

/-- A product, and a usage without a name that leads to none. -/
private abbrev namelessEntities : List Exchange.Entity :=
  [⟨1, [("PRODUCT", [.text "A", .text "A", .text "", .list []])]⟩,
    ⟨2, [("NEXT_ASSEMBLY_USAGE_OCCURRENCE",
      [.text "", .text "", .text "", .reference 9, .reference 9, .omitted])]⟩]

/-- A file without products that is kept, and a file with a product that is left. -/
theorem route_usages :
    let stray := "#1=NEXT_ASSEMBLY_USAGE_OCCURRENCE('A','','',#2,#3,$);"
    let nameless := "#1=PRODUCT('A','A','',());" ++
      "#2=NEXT_ASSEMBLY_USAGE_OCCURRENCE('','','',#9,#9,$);"
    let c : RunContext := { parts := [], rules := [] }
    (∀ stage, c.isPast stage = false) ∧
      (c.Route stray "x" ∧ (Exchange.Assembly.read stray).products = [] ∧
        ¬ c.GivesWay "x" (c.runExchange stray "x")) ∧
      (c.Route nameless "x" ∧ (Exchange.Assembly.read nameless).products ≠ [] ∧
        c.GivesWay "x" (c.runExchange nameless "x")) := by
  intro stray nameless c
  have hdeadline : ∀ stage, c.isPast stage = false := fun _ ↦ rfl
  have hstray : stray = Exchange.fileText [strayUsage] := by decide +kernel
  have hnameless : nameless = Exchange.fileText namelessEntities := by decide +kernel
  have hread : Exchange.readEntities stray = [strayUsage] :=
    hstray ▸ Exchange.readEntities_eq_sortEntities (by decide +kernel)
  have hread' : Exchange.readEntities nameless = namelessEntities :=
    hnameless ▸ Exchange.readEntities_eq_sortEntities (by decide +kernel)
  have hroute := c.route_runExchange stray "x" hdeadline
  have hroute' := c.route_runExchange nameless "x" hdeadline
  have hkept : (Exchange.Assembly.read stray).instances ≠ [] := by
    rw [Exchange.Assembly.read, hread]
    exact List.cons_ne_nil _ _
  have hleft : (Exchange.Assembly.read nameless).instances = [] := by
    rw [Exchange.Assembly.read, hread']
    rfl
  refine ⟨hdeadline, ⟨hroute, ?_, mt hroute.givesWay_iff.mp hkept⟩,
    hroute', ?_, hroute'.givesWay_iff.mpr hleft⟩
  · rw [Exchange.Assembly.read, hread]
    rfl
  · rw [Exchange.Assembly.read, hread']
    exact List.cons_ne_nil _ _

end RunContext

end PipingAssembly
