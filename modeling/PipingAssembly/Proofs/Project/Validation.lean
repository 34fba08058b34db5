import PipingAssembly.Command.Basic
import PipingAssembly.Proofs.Files.Places
import PipingAssembly.Proofs.Schema.Documents
import PipingAssembly.Proofs.Store.Sources
import PipingAssembly.Proofs.Store.Tables

/-!
# What a check of the whole catalog says of its stores

A check goes through the files of a catalog with the ids that have been declared so far. Where no
file fails, each file is valid for the kind that its path tells, and no two files declare one id of
a kind. So a store drops no record as a repeated one; and it skips a file exactly if the path tells
the other kind, or if what the schema leaves open does not fit.
-/

namespace PipingAssembly

/-- The id that the file at a place declares as a record of a kind, if its path tells this kind. -/
def declaredId? (files : Files) (kind : RecordKind) (p : Path) : Option String :=
  if RecordKind.ofPath? p = some kind then (recordAt? files p).bind kind.idOf? else none

/-- The ids of a kind that have been declared. -/
def DeclaredIds.ids (declared : DeclaredIds) : RecordKind → List String
  | .part => declared.parts.map (·.1)
  | .rule => declared.rules.map (·.1)

/-! ### One file -/

private theorem notMem_of_lookup {issue : String → Issue} {id : String}
    {l : List (String × String)} (h : (l.lookup id).toList.map issue = []) : id ∉ l.map (·.1) := by
  have hnone : l.lookup id = none := by
    cases hlookup : l.lookup id with
    | none => rfl
    | some path =>
      rw [hlookup] at h
      cases h
  intro hmem
  obtain ⟨e, he, rfl⟩ := List.mem_map.mp hmem
  have hne := List.lookup_eq_none_iff.mp hnone e he
  simp at hne

theorem bind_idOf?_part (v : Option Value) :
    v.bind RecordKind.part.idOf? = (v.bind Part.ofValue?).map (·.id) := by
  cases v <;> rfl

theorem bind_idOf?_rule (v : Option Value) :
    v.bind RecordKind.rule.idOf? = (v.bind Rule.ofValue?).map (·.id) := by
  cases v <;> rfl

/-- A document without issues declares its id, which is not declared yet. -/
private theorem issuesOf_nil {kind : RecordKind} {path content : String} {declared : DeclaredIds}
    (h : (issuesOf kind path content declared).1 = []) :
    (∀ id ∈ (Yaml.readRecord? content).bind kind.idOf?, id ∉ declared.ids kind) ∧
      ∀ other, (issuesOf kind path content declared).2.ids other =
        (if other = kind then ((Yaml.readRecord? content).bind kind.idOf?).toList else []) ++
          declared.ids other := by
  cases kind with
  | part =>
    rw [bind_idOf?_part]
    simp only [issuesOf] at h ⊢
    cases hread : (Yaml.readRecord? content).bind Part.ofValue? with
    | none => exact ⟨nofun, fun other ↦ by cases other <;> rfl⟩
    | some q =>
      rw [hread] at h
      refine ⟨?_, fun other ↦ by cases other <;> rfl⟩
      rintro id ⟨⟩
      exact notMem_of_lookup h
  | rule =>
    rw [bind_idOf?_rule]
    simp only [issuesOf] at h ⊢
    cases hread : (Yaml.readRecord? content).bind Rule.ofValue? with
    | none => exact ⟨nofun, fun other ↦ by cases other <;> rfl⟩
    | some r =>
      rw [hread] at h
      refine ⟨?_, fun other ↦ by cases other <;> rfl⟩
      rintro id ⟨⟩
      exact notMem_of_lookup (List.append_eq_nil_iff.mp h).1

/-- A file that passes has no kind, or is valid for its kind and without issues. -/
private theorem checkFile_cases {w : Workspace} {declared : DeclaredIds} {path : String}
    (h : (checkFile w declared path).1.isFailure = false) :
    (RecordKind.ofPath? (PathText.names path) = none ∧ (checkFile w declared path).2 = declared) ∨
    ∃ kind content, RecordKind.ofPath? (PathText.names path) = some kind ∧
      (w.bytes? path).bind Text.decode? = some content ∧ validate content kind = .ok () ∧
      (issuesOf kind path content declared).1 = [] ∧
      (checkFile w declared path).2 = (issuesOf kind path content declared).2 := by
  rw [checkFile] at h ⊢
  cases hkind : RecordKind.ofPath? (PathText.names path) with
  | none => exact Or.inl ⟨rfl, rfl⟩
  | some kind =>
    rw [hkind] at h
    cases hcontent : (w.bytes? path).bind Text.decode? with
    | none =>
      rw [hcontent] at h
      cases h
    | some content =>
      simp only [hcontent] at h
      cases hvalid : validate content kind with
      | error refusal =>
        rw [hvalid] at h
        cases h
      | ok _ =>
        simp only [hvalid] at h
        cases hissues : issuesOf kind path content declared with
        | mk issues after =>
          cases issues with
          | cons issue issues =>
            rw [hissues] at h
            cases h
          | nil =>
            refine Or.inr ⟨kind, content, rfl, rfl, hvalid, congrArg Prod.fst hissues, ?_⟩
            simp only [hvalid, hissues]

section File

variable {w : Workspace} (hrooted : w.files.isRooted = true) {place p : Path}
  (hp : p ∈ w.files.yamlFiles place)
include hrooted hp

/-- The bytes that a check reads are those that a store reads. -/
private theorem bytes?_text :
    (w.bytes? p.text).bind Text.decode? = (w.files.content? p).bind (·.text?) := by
  have hlocate := FileTree.locate?_text hrooted hp w.here
  rw [Workspace.bytes?, Workspace.find?, FileTree.find?, hlocate, Option.bind_some]
  change ((w.files.content? p).map FileContent.toBytes).bind Text.decode? = _
  cases w.files.content? p <;> rfl

/-- A file that passes is valid for the kind that its path tells, and declares a new id if it is
read as a record of this kind. -/
theorem checkFile_passed {declared : DeclaredIds}
    (h : (checkFile w declared p.text).1.isFailure = false) :
    (∀ kind, RecordKind.ofPath? p = some kind → ∃ n : Yaml.Node,
      recordAt? w.files p = some n.toValue ∧ (Schema.ofKind kind).Accepts n) ∧
    ∀ kind, (∀ id ∈ declaredId? w.files kind p, id ∉ declared.ids kind) ∧
      (checkFile w declared p.text).2.ids kind =
        (declaredId? w.files kind p).toList ++ declared.ids kind := by
  obtain ⟨hne, hnames⟩ := FileTree.isName_of_mem_yamlFiles hrooted hp
  have hkind := RecordKind.ofPath?_names_text hne hnames
  have hbytes := bytes?_text hrooted hp
  simp only [declaredId?, recordAt?]
  obtain ⟨hnone, hsame⟩ | ⟨own, content, hown, hcontent, hvalid, hissues, hafter⟩ :=
    checkFile_cases h
  · rw [← hkind, hnone, hsame]
    exact ⟨nofun, fun kind ↦ ⟨nofun, rfl⟩⟩
  · obtain ⟨n, hn, haccepts⟩ := accepts_of_validate hvalid
    obtain ⟨hfresh, hids⟩ := issuesOf_nil hissues
    rw [← hkind, hown, ← hbytes, hcontent, hafter]
    refine ⟨fun kind hkind ↦ ⟨n, hn, Option.some.inj hkind ▸ haccepts⟩, fun kind ↦ ?_⟩
    rw [hids kind]
    by_cases hother : kind = own
    · subst hother
      simpa using hfresh
    · have hne : ¬some own = some kind := fun heq ↦ hother (Option.some.inj heq).symm
      rw [if_neg hother, if_neg hne]
      exact ⟨nofun, rfl⟩

end File

/-! ### All files -/

theorem checkFiles_cons (w : Workspace) (keepGoing : Bool) (declared : DeclaredIds)
    (path : String) (paths : List String) :
    checkFiles w keepGoing declared (path :: paths) =
      (path, (checkFile w declared path).1) ::
        if (checkFile w declared path).1.isFailure && !keepGoing then []
        else checkFiles w keepGoing (checkFile w declared path).2 paths := by
  rw [checkFiles]
  cases checkFile w declared path with
  | mk verdict after =>
    dsimp only
    split <;> rfl

/-- If no file fails, every file is valid for its kind and the ids of a kind are different. The
induction is on the files; the ids that are declared before a file rule out its own. -/
theorem checkFiles_passed {w : Workspace} (hrooted : w.files.isRooted = true) {keepGoing : Bool}
    {places : List Path} (hplaces : ∀ p ∈ places, ∃ place, p ∈ w.files.yamlFiles place)
    {declared : DeclaredIds}
    (h : ∀ v ∈ checkFiles w keepGoing declared (places.map Path.text), v.2.isFailure = false) :
    (∀ p ∈ places, ∀ kind, RecordKind.ofPath? p = some kind → ∃ n : Yaml.Node,
      recordAt? w.files p = some n.toValue ∧ (Schema.ofKind kind).Accepts n) ∧
    ∀ kind, (places.filterMap (declaredId? w.files kind)).Nodup ∧
      ∀ id ∈ places.filterMap (declaredId? w.files kind), id ∉ declared.ids kind := by
  induction places generalizing declared with
  | nil => exact ⟨nofun, fun kind ↦ ⟨List.nodup_nil, nofun⟩⟩
  | cons p places ih =>
    obtain ⟨⟨place, hp⟩, hrest⟩ := List.forall_mem_cons.mp hplaces
    rw [List.map_cons, checkFiles_cons] at h
    obtain ⟨hpassed, htail⟩ := List.forall_mem_cons.mp h
    rw [if_neg (by simp [hpassed])] at htail
    obtain ⟨hvalid, hdeclared⟩ := checkFile_passed hrooted hp hpassed
    obtain ⟨hvalids, hids⟩ := ih hrest htail
    refine ⟨List.forall_mem_cons.mpr ⟨hvalid, hvalids⟩, fun kind ↦ ?_⟩
    obtain ⟨hfresh, hafter⟩ := hdeclared kind
    obtain ⟨hnodup, hnew⟩ := hids kind
    rw [hafter] at hnew
    rw [List.filterMap_cons]
    cases hid : declaredId? w.files kind p with
    | none =>
      rw [hid] at hnew
      exact ⟨hnodup, hnew⟩
    | some id =>
      rw [hid] at hnew
      refine ⟨List.nodup_cons.mpr ⟨fun hmem ↦ hnew id hmem List.mem_cons_self, hnodup⟩, ?_⟩
      refine List.forall_mem_cons.mpr ⟨hfresh id hid, fun id' hid' hmem ↦ ?_⟩
      exact hnew id' hid' (List.mem_cons_of_mem _ hmem)

/-! ### Loading -/

/-- The directory of the records of a kind. -/
def Project.recordsDir (p : Project) : RecordKind → Path
  | .part => p.partsDir
  | .rule => p.rulesDir

/-- A file below a directory of records has a kind. -/
theorem Project.exists_kind {p : Project} {files : Files} {own : RecordKind} {q : Path}
    (hq : q ∈ files.yamlFiles (p.recordsDir own)) : ∃ kind, RecordKind.ofPath? q = some kind := by
  obtain ⟨⟨rest, rfl⟩, hname, -⟩ := FileTree.mem_yamlFiles.mp hq
  obtain ⟨dir, hdir, hnoYaml, hkind⟩ : ∃ dir, p.recordsDir own = p.root ++ ["catalog", dir] ∧
      isYamlName dir = false ∧ RecordKind.ofPath? [dir, ""] = some own := by
    cases own with
    | part => exact ⟨"parts", rfl, by decide +kernel, rfl⟩
    | rule => exact ⟨"rules", rfl, by decide +kernel, rfl⟩
  rw [hdir] at hname ⊢
  have hrest : rest ≠ [] := by
    rintro rfl
    rw [List.append_nil, List.getLast?_append] at hname
    simp [hnoYaml] at hname
  have hmem : dir ∈ (p.root ++ ["catalog", dir] ++ rest).dropLast.reverse := by
    rw [List.mem_reverse, List.dropLast_append_of_ne_nil hrest]
    simp
  rw [← Option.isSome_iff_exists, RecordKind.ofPath?, List.findSome?_isSome_iff]
  refine ⟨dir, hmem, ?_⟩
  simpa [RecordKind.ofPath?] using congrArg Option.isSome hkind

/-- Every record file of a project is valid for the kind that its path tells, and no two of them
declare the same id of a kind. -/
structure Project.Checked (p : Project) (files : Files) : Prop where
  valid : ∀ q ∈ p.sourceFiles files, ∀ kind, RecordKind.ofPath? q = some kind →
    ∃ n : Yaml.Node, recordAt? files q = some n.toValue ∧ (Schema.ofKind kind).Accepts n
  distinct : ∀ kind, ((p.sourceFiles files).filterMap (declaredId? files kind)).Nodup

namespace Project.Checked

variable {p : Project} {files : Files}

private theorem mem_sourceFiles {own : RecordKind} {q : Path}
    (hq : q ∈ files.yamlFiles (p.recordsDir own)) : q ∈ p.sourceFiles files := by
  cases own with
  | part => exact List.mem_append_left _ hq
  | rule => exact List.mem_append_right _ hq

variable (h : p.Checked files)
include h

/-- A file below a directory of records is read as a record of it exactly if its path tells the kind
of the directory and what the schema leaves open fits. -/
theorem isSome_idOf?_iff {own : RecordKind} {q : Path}
    (hq : q ∈ files.yamlFiles (p.recordsDir own)) :
    ((recordAt? files q).bind own.idOf?).isSome = true ↔
      RecordKind.ofPath? q = some own ∧ ∃ v ∈ recordAt? files q, own.Fits v := by
  obtain ⟨kind, hkind⟩ := Project.exists_kind hq
  obtain ⟨n, hn, haccepts⟩ := h.valid q (mem_sourceFiles hq) kind hkind
  rw [hn, Option.bind_some, RecordKind.isSome_idOf?_iff haccepts, hkind, Option.some.injEq, eq_comm]
  simp

/-- The ids of the records below a directory are those that its files declare. -/
private theorem filterMap_idOf? (own : RecordKind) :
    (files.yamlFiles (p.recordsDir own)).filterMap (fun q ↦ (recordAt? files q).bind own.idOf?) =
      (files.yamlFiles (p.recordsDir own)).filterMap (declaredId? files own) := by
  apply List.filterMap_congr
  intro q hq
  rw [declaredId?]
  split
  · rfl
  · rename_i hkind
    rw [← Option.isNone_iff_eq_none, ← Option.not_isSome, Bool.not_eq_true', Bool.eq_false_iff,
      ne_eq, h.isSome_idOf?_iff hq]
    exact fun hown ↦ hkind hown.1

private theorem nodup_idOf? (own : RecordKind) :
    ((files.yamlFiles (p.recordsDir own)).filterMap
      fun q ↦ (recordAt? files q).bind own.idOf?).Nodup := by
  rw [h.filterMap_idOf?]
  have hdistinct := h.distinct own
  rw [Project.sourceFiles, List.filterMap_append] at hdistinct
  cases own with
  | part => exact hdistinct.of_append_left
  | rule => exact hdistinct.of_append_right

section Records

variable {α : Type} {read : Value → Option α} {key : α → String} {own : RecordKind}
  (hread : ∀ v, own.idOf? v = (read v).map key)
include hread

/-- No record is dropped as a repeated one. -/
theorem firstOfEach_records : firstOfEach key (loadAll read files (p.recordsDir own)).1 =
    (loadAll read files (p.recordsDir own)).1 := by
  apply firstOfEach_of_nodup
  rw [loadAll_fst, List.map_filterMap]
  simp only [Option.map_bind, Function.comp_def, ← hread]
  exact h.nodup_idOf? own

/-- A file below a directory of records is skipped exactly if its path tells the other kind or what
the schema leaves open does not fit. -/
theorem mem_skipped {q : Path} : q ∈ (loadAll read files (p.recordsDir own)).2 ↔
    q ∈ files.yamlFiles (p.recordsDir own) ∧
      ¬(RecordKind.ofPath? q = some own ∧ ∃ v ∈ recordAt? files q, own.Fits v) := by
  rw [mem_loadAll_snd]
  refine and_congr_right fun hq ↦ ?_
  rw [← h.isSome_idOf?_iff hq, Option.not_isSome_iff_eq_none]
  cases recordAt? files q with
  | none => exact iff_of_true rfl rfl
  | some v => rw [Option.bind_some, Option.bind_some, hread, Option.map_eq_none_iff]

end Records

end Project.Checked

/-! ### The command -/

namespace Command

open Effect

/-- If steps succeed one after another, the first one succeeds and the next one from there. -/
private theorem exists_of_bind_ok {α β : Type} {x : Effect α} {f : α → Effect β} {s s' : Session}
    {b : β} (h : (x >>= f).run.run s = (.ok b, s')) :
    ∃ a s₁, x.run.run s = (.ok a, s₁) ∧ (f a).run.run s₁ = (.ok b, s') := by
  rw [ExceptT.run_bind, StateT.run_bind] at h
  cases hx : x.run.run s with
  | mk result s₁ =>
    rw [hx] at h
    cases result with
    | error e => cases h
    | ok a => exact ⟨a, s₁, rfl, h⟩

private theorem run_project {o : CommonOptions} {s s' : Session} {p : Project}
    (h : (project o).run.run s = (.ok p, s')) : o.discover s.workspace = .ok p ∧ s' = s := by
  rw [project] at h
  obtain ⟨w, s₁, hw, h⟩ := exists_of_bind_ok h
  cases hw
  cases hp : o.discover s.workspace with
  | error e =>
    rw [hp] at h
    cases h
  | ok q =>
    rw [hp] at h
    cases h
    exact ⟨rfl, rfl⟩

private theorem reportVerdicts_ok {quiet summaryOnly : Bool} {verdicts : List (String × Verdict)}
    {s s' : Session} (h : (reportVerdicts quiet summaryOnly verdicts).run.run s = (.ok (), s')) :
    ∀ v ∈ verdicts, v.2.isFailure = false := by
  rw [reportVerdicts] at h
  obtain ⟨_, _, -, hcounts⟩ := exists_of_bind_ok h
  obtain ⟨_, s₂, -, hend⟩ := exists_of_bind_ok hcounts
  by_cases hfailed : 0 < (CheckSummary.of verdicts).failed
  · rw [if_pos hfailed] at hend
    cases hend
  · have hnone : (verdicts.map (·.2)).countP (·.isFailure) = 0 := Nat.eq_zero_of_not_pos hfailed
    rw [List.countP_eq_zero] at hnone
    intro v hv
    exact Bool.eq_false_iff.mpr (hnone v.2 (List.mem_map_of_mem hv))

/-- A check that succeeds finds no file that fails. -/
theorem checkCatalog_ok {o : CommonOptions} {options : CheckOptions} {s s' : Session}
    (h : (checkCatalog o options).run.run s = (.ok (), s')) :
    ∃ p, o.discover s.workspace = .ok p ∧
      ∀ v ∈ checkFiles s.workspace options.keepGoing {} (options.targets p s.workspace),
        v.2.isFailure = false := by
  rw [checkCatalog] at h
  obtain ⟨p, s₁, hproject, hcheck⟩ := exists_of_bind_ok h
  obtain ⟨hp, rfl⟩ := run_project hproject
  obtain ⟨w, s₂, hw, hverdicts⟩ := exists_of_bind_ok hcheck
  cases hw
  refine ⟨p, hp, ?_⟩
  dsimp only at hverdicts
  split at hverdicts
  · obtain ⟨_, _, -, hline⟩ := exists_of_bind_ok hverdicts
    obtain ⟨_, _, -, hreport⟩ := exists_of_bind_ok hline
    exact reportVerdicts_ok hreport
  · exact reportVerdicts_ok hverdicts

theorem discover_completed (o : CommonOptions) (w : Workspace) :
    (o.completed w).discover w = o.discover w := by
  rw [CommonOptions.completed]
  split <;> rfl

section Run

variable {w : Workspace} (hrooted : w.files.isRooted = true) {arguments : List String}
  {o : CommonOptions} {options : CheckOptions}
  (htask : readTask arguments = .ok (o, .check options)) (hpaths : options.paths = [])
  {p : Project} (hp : o.discover w = .ok p) (hdone : (run w arguments).ending = .done)
include hrooted htask hpaths hp hdone

private theorem checked_of_run : p.Checked w.files := by
  cases hcheck : (checkCatalog (o.completed w) options).run.run { workspace := w } with
  | mk result session =>
    simp only [run, htask, Task.perform, hcheck] at hdone
    cases result with
    | error e => cases hdone
    | ok _ =>
      obtain ⟨q, hq, hverdicts⟩ := checkCatalog_ok hcheck
      rw [discover_completed, hp] at hq
      obtain rfl := Except.ok.inj hq
      have htargets : options.targets p w = (p.sourceFiles w.files).map Path.text := by
        rw [CheckOptions.targets, hpaths]
        rfl
      rw [htargets] at hverdicts
      have hplaces : ∀ q ∈ p.sourceFiles w.files, ∃ place, q ∈ w.files.yamlFiles place := by
        intro q hq
        obtain hq | hq := List.mem_append.mp hq
        · exact ⟨_, hq⟩
        · exact ⟨_, hq⟩
      obtain ⟨hvalid, hids⟩ := checkFiles_passed hrooted hplaces hverdicts
      exact ⟨hvalid, fun kind ↦ (hids kind).1⟩

/-- After a check of the whole catalog that reports success, the store over the files drops no
record as a repeated one, and skips exactly those files whose path tells the other kind of record
or that do not fit what their schema leaves open. -/
theorem mem_skipped_of_run :
    (∀ q, q ∈ (loadAll Part.ofValue? w.files p.partsDir).2 ↔
      q ∈ w.files.yamlFiles p.partsDir ∧
        ¬(RecordKind.ofPath? q = some .part ∧ ∃ v ∈ recordAt? w.files q, Part.Fits v)) ∧
    (∀ q, q ∈ (loadAll Rule.ofValue? w.files p.rulesDir).2 ↔
      q ∈ w.files.yamlFiles p.rulesDir ∧
        ¬(RecordKind.ofPath? q = some .rule ∧ ∃ v ∈ recordAt? w.files q, Rule.Fits v)) ∧
    firstOfEach (·.id) (loadAll Part.ofValue? w.files p.partsDir).1 =
      (loadAll Part.ofValue? w.files p.partsDir).1 ∧
    firstOfEach (·.id) (loadAll Rule.ofValue? w.files p.rulesDir).1 =
      (loadAll Rule.ofValue? w.files p.rulesDir).1 := by
  have hchecked := checked_of_run hrooted htask hpaths hp hdone
  have hparts : ∀ v, RecordKind.part.idOf? v = (Part.ofValue? v).map (·.id) := fun _ ↦ rfl
  have hrules : ∀ v, RecordKind.rule.idOf? v = (Rule.ofValue? v).map (·.id) := fun _ ↦ rfl
  exact ⟨fun _ ↦ hchecked.mem_skipped hparts, fun _ ↦ hchecked.mem_skipped hrules,
    hchecked.firstOfEach_records hparts, hchecked.firstOfEach_records hrules⟩

end Run

/-- A workspace with a part and with a rule whose condition lacks the field it tests. -/
private def incompleteRule : Workspace where
  files := ⟨[
    ([".tasm"], .directory), (["catalog"], .directory), (["catalog", "parts"], .directory),
    (["catalog", "parts", "P.yaml"], .file (.text "part_id: P-1\n")),
    (["catalog", "rules"], .directory),
    (["catalog", "rules", "R.yaml"], .file (.text
      "rule_id: R-1\nname: one\ncondition:\n  type: both\naction:\n  type: SCREW\n"))]⟩

/-- A rule with a condition that lacks a field it needs is valid and skipped. -/
theorem mem_skipped_of_run_incomplete :
    (run incompleteRule ["validate"]).ending = .done ∧
    ["catalog", "rules", "R.yaml"] ∈
      (loadAll Rule.ofValue? incompleteRule.files ["catalog", "rules"]).2 ∧
    (∀ v ∈ recordAt? incompleteRule.files ["catalog", "rules", "R.yaml"], ¬Rule.Fits v) ∧
    ∃ v ∈ recordAt? incompleteRule.files ["catalog", "parts", "P.yaml"], Part.Fits v := by
  have hdone : (run incompleteRule ["validate"]).ending = .done := by decide +kernel
  have hskipped : ["catalog", "rules", "R.yaml"] ∈
      (loadAll Rule.ofValue? incompleteRule.files ["catalog", "rules"]).2 := by
    decide +kernel
  have hread : ["catalog", "parts", "P.yaml"] ∉
      (loadAll Part.ofValue? incompleteRule.files ["catalog", "parts"]).2 := by
    decide +kernel
  obtain ⟨hparts, hrules, -⟩ := mem_skipped_of_run (w := incompleteRule) (p := ⟨[]⟩)
    (by decide +kernel) (o := {}) (by rfl) rfl (by decide +kernel) hdone
  refine ⟨hdone, hskipped, fun v hv hfits ↦ ?_, ?_⟩
  · exact ((hrules _).mp hskipped).2 ⟨by decide +kernel, v, hv, hfits⟩
  · by_contra hunfit
    exact hread ((hparts _).mpr ⟨by decide +kernel, fun hpart ↦ hunfit hpart.2⟩)

end Command

end PipingAssembly
