import Mathlib.Data.List.Pairwise
import Mathlib.Data.List.Perm.Subperm
import PipingAssembly.Proofs.Files.Spellings
import PipingAssembly.Proofs.Project.Verdicts

/-!
# Checks of files that are named more than once

The paths of a check may name a file twice, or a file and a directory above it. Every name of a file
is checked by itself, so a file that is named again counts again, and one that declares an id is
then told to be a duplicate of itself. Only for files that are named once does a check tell of them
what it says.
-/

namespace PipingAssembly

/-! ### Files that paths cover -/

namespace Workspace

variable (w : Workspace)

/-- What the paths of a check stand for, in the order in which it is checked. -/
def targets (paths : List String) : List CheckTarget := (expandPaths w paths).map w.target

/-- Files that are all those that paths stand for, with each of them named once. -/
structure Covers (paths files : List String) : Prop where
  isFile : ∀ f ∈ files, filesOf w f = [f]
  mem : ∀ f ∈ files, f ∈ expandPaths w paths
  covered : ∀ x ∈ w.targets paths, x ∈ files.map w.target
  distinct : (files.map w.target).Nodup

variable {w}

/-- Names with the same steps that lead somewhere are taken for the same. -/
private theorem target_eq_of_steps {s t : String} (h : PathText.steps s = PathText.steps t)
    (hs : (w.files.locate? w.here s).isSome = true)
    (ht : (w.files.locate? w.here t).isSome = true) : w.target s = w.target t := by
  obtain ⟨p, hp⟩ := Option.isSome_iff_exists.mp hs
  obtain ⟨q, hq⟩ := Option.isSome_iff_exists.mp ht
  rw [target, target, PathText.names, PathText.names, h, hp, hq, FileTree.eq_of_locate? hp,
    FileTree.eq_of_locate? hq, h]

private theorem pairwise_expandPaths (w : Workspace) (paths : List String) :
    (expandPaths w paths).Pairwise fun s t ↦ PathText.precedes s t = true :=
  List.pairwise_mergeSort PathText.precedes_trans PathText.precedes_total _

private theorem filter_targets (w : Workspace) (paths : List String) :
    (w.targets paths).filter (·.kind.isSome) =
      ((expandPaths w paths).filter w.namesRecord).map w.target := by
  rw [targets, List.filter_map]
  rfl

private theorem eq_of_target {paths : List String}
    (honce : ((w.targets paths).filter (·.kind.isSome)).Nodup) {s t : String}
    (hs : s ∈ (expandPaths w paths).filter w.namesRecord)
    (ht : t ∈ (expandPaths w paths).filter w.namesRecord) (heq : w.target s = w.target t) :
    s = t := by
  rw [filter_targets] at honce
  exact List.inj_on_of_nodup_map honce hs ht heq

namespace Covers

variable {paths files : List String} (h : w.Covers paths files)
include h

theorem expandPaths_perm : (expandPaths w files).Perm files := by
  have hflat : files.flatMap (filesOf w) = files := by
    rw [List.flatMap_congr h.isFile, List.flatMap_singleton']
  rw [expandPaths, hflat]
  exact List.mergeSort_perm _ _

theorem nodup_targets : (w.targets files).Nodup :=
  (h.expandPaths_perm.map w.target).nodup_iff.mpr h.distinct

theorem mem_expandPaths {f : String} (hf : f ∈ expandPaths w files) : f ∈ expandPaths w paths :=
  h.mem f (h.expandPaths_perm.mem_iff.mp hf)

/-- Whatever paths stand for is the file of one of the names. -/
theorem exists_name {path : String} (hpath : path ∈ expandPaths w paths) :
    ∃ f ∈ expandPaths w files, w.target f = w.target path := by
  obtain ⟨f, hf, htarget⟩ := List.mem_map.mp (h.covered _ (List.mem_map_of_mem hpath))
  exact ⟨f, h.expandPaths_perm.mem_iff.mpr hf, htarget⟩

theorem mem_targets_iff {x : CheckTarget} : x ∈ w.targets files ↔ x ∈ w.targets paths := by
  refine ⟨fun hx ↦ ?_, fun hx ↦ ?_⟩
  · obtain ⟨f, hf, rfl⟩ := List.mem_map.mp hx
    exact List.mem_map_of_mem (h.mem_expandPaths hf)
  · obtain ⟨path, hpath, rfl⟩ := List.mem_map.mp hx
    obtain ⟨f, hf, htarget⟩ := h.exists_name hpath
    exact List.mem_map.mpr ⟨f, hf, htarget⟩

/-- A name that paths stand for leads somewhere. -/
private theorem isSome_locate? {path : String} (hpath : path ∈ expandPaths w paths) :
    (w.files.locate? w.here path).isSome = true := by
  obtain ⟨f, hf, htarget⟩ := h.exists_name hpath
  have hplace : w.files.locate? w.here f = w.files.locate? w.here path :=
    congrArg CheckTarget.place htarget
  have hself := h.isFile f (h.expandPaths_perm.mem_iff.mp hf)
  rw [filesOf, FileTree.existing?] at hself
  rw [← hplace]
  cases hlocate : w.files.locate? w.here f with
  | some place => rfl
  | none =>
    rw [hlocate] at hself
    cases hself

section Once

variable (honce : ((w.targets paths).filter (·.kind.isSome)).Nodup)
include honce

private theorem filter_expandPaths_perm : ((expandPaths w paths).filter w.namesRecord).Perm
    ((expandPaths w files).filter w.namesRecord) := by
  have hpaths : ((expandPaths w paths).filter w.namesRecord).Nodup := by
    rw [filter_targets] at honce
    exact List.Nodup.of_map _ honce
  have hfiles : (expandPaths w files).Nodup := List.Nodup.of_map _ h.nodup_targets
  refine (List.perm_ext_iff_of_nodup hpaths (hfiles.filter _)).mpr fun path ↦ ?_
  constructor
  · intro hpath
    obtain ⟨hin, hrecord⟩ := List.mem_filter.mp hpath
    obtain ⟨f, hf, htarget⟩ := h.exists_name hin
    have hself : w.namesRecord f = true := by rwa [namesRecord, htarget]
    have hkept := List.mem_filter.mpr ⟨h.mem_expandPaths hf, hself⟩
    exact eq_of_target honce hkept hpath htarget ▸ List.mem_filter.mpr ⟨hf, hself⟩
  · intro hf
    obtain ⟨hin, hrecord⟩ := List.mem_filter.mp hf
    exact List.mem_filter.mpr ⟨h.mem_expandPaths hin, hrecord⟩

/-- If no record file is named twice, the record files that are checked are those that paths stand
for, in the same order: names that stand beside each other in the order of paths are taken for the
same. -/
private theorem filter_expandPaths :
    (expandPaths w paths).filter w.namesRecord = (expandPaths w files).filter w.namesRecord := by
  have hperm := h.filter_expandPaths_perm honce
  have hsame : ∀ s t, s ∈ (expandPaths w paths).filter w.namesRecord →
      t ∈ (expandPaths w files).filter w.namesRecord → PathText.precedes s t = true →
      PathText.precedes t s = true → s = t := by
    intro s t hs ht hst hts
    have ht := hperm.mem_iff.mpr ht
    refine eq_of_target honce hs ht ?_
    exact target_eq_of_steps (PathText.steps_eq_of_precedes hst hts)
      (h.isSome_locate? (List.mem_of_mem_filter hs)) (h.isSome_locate? (List.mem_of_mem_filter ht))
  exact hperm.eq_of_pairwise hsame ((pairwise_expandPaths w paths).filter _)
    ((pairwise_expandPaths w files).filter _)

end Once

/-- The counts are those of the files, each checked once, exactly if no record file is named
twice. -/
theorem summary_eq_iff :
    CheckSummary.of (checkFiles w true {} (expandPaths w paths)) =
        CheckSummary.of (checkFiles w true {} (expandPaths w files)) ↔
      ∀ x ∈ w.targets paths, 1 < (w.targets paths).count x → x.kind = none := by
  have hnone : (∀ x ∈ w.targets paths, 1 < (w.targets paths).count x → x.kind = none) ↔
      ((w.targets paths).filter (·.kind.isSome)).Nodup := by
    simp only [nodup_filter_iff, Option.isSome_eq_false_iff, Option.isNone_iff_eq_none]
  rw [hnone]
  constructor
  · intro hsummary
    have hlength : ((w.targets paths).filter (·.kind.isSome)).length =
        ((w.targets files).filter (·.kind.isSome)).length := by
      have hchecked := congrArg CheckSummary.checked hsummary
      rw [checked_checkFiles, checked_checkFiles] at hchecked
      rw [filter_targets, filter_targets, List.length_map, List.length_map, hchecked]
    have hnodup := h.nodup_targets.filter (·.kind.isSome)
    have hsubset : (w.targets files).filter (·.kind.isSome) ⊆
        (w.targets paths).filter (·.kind.isSome) := fun x hx ↦ by
      obtain ⟨hmem, hkind⟩ := List.mem_filter.mp hx
      exact List.mem_filter.mpr ⟨h.mem_targets_iff.mp hmem, hkind⟩
    have hperm := (List.Nodup.subperm hnodup hsubset).perm_of_length_le hlength.le
    exact hperm.nodup_iff.mp hnodup
  · intro hrecords
    rw [← summary_checkFiles_filter, h.filter_expandPaths hrecords, summary_checkFiles_filter]

/-- No file fails exactly if none of the files does, each checked once, and none of them that
declares an id is named twice. -/
theorem passed_iff :
    (∀ v ∈ checkFiles w true {} (expandPaths w paths), v.2.isFailure = false) ↔
      (∀ v ∈ checkFiles w true {} (expandPaths w files), v.2.isFailure = false) ∧
      ∀ x ∈ w.targets paths, 1 < (w.targets paths).count x → w.declared? x = none := by
  have halone : (∀ path ∈ expandPaths w paths, (checkFile w {} path).1.isFailure = false) ↔
      ∀ f ∈ expandPaths w files, (checkFile w {} f).1.isFailure = false := by
    refine ⟨fun hall f hf ↦ hall f (h.mem_expandPaths hf), fun hall path hpath ↦ ?_⟩
    obtain ⟨f, hf, htarget⟩ := h.exists_name hpath
    rw [← checkFile_congr w htarget]
    exact hall f hf
  have hids : ((w.targets paths).filterMap w.declared?).Nodup ↔
      ((w.targets files).filterMap w.declared?).Nodup ∧
      ∀ x ∈ w.targets paths, 1 < (w.targets paths).count x → w.declared? x = none := by
    have hfiles := h.nodup_targets.filter fun x ↦ (w.declared? x).isSome
    simp only [nodup_filterMap_iff, h.mem_targets_iff, hfiles, true_and]
    rw [and_comm, nodup_filter_iff]
    simp only [Option.isSome_eq_false_iff, Option.isNone_iff_eq_none]
  simp only [checkFiles_passed_iff, DeclaredIds.file?_empty, implies_true, and_true]
  rw [halone, and_assoc]
  exact and_congr_right fun _ ↦ hids

/-- Of files that are each checked once, one is told to be a duplicate only of another file. -/
theorem place_ne_of_duplicate {path : String} {v : Verdict}
    (hv : (path, v) ∈ checkFiles w true {} (expandPaths w files)) {key : RecordKind × String}
    {first : String} (hissue : Issue.duplicate key first ∈ v.issues) :
    w.declared? (w.target first) = w.declared? (w.target path) ∧
      (w.target first).place ≠ (w.target path).place := by
  obtain ⟨i, hi⟩ := List.getElem?_of_mem hv
  obtain ⟨hpath, hfirst⟩ := (duplicate_mem_issues_iff hi key first).mp hissue
  have hdeclared : w.declared? (w.target first) = some key := by
    simpa using List.find?_some hfirst
  refine ⟨hdeclared.trans hpath.symm, fun hplace ↦ ?_⟩
  have hkind := (kind_of_declared? hdeclared).trans (kind_of_declared? hpath).symm
  have htarget : w.target first = w.target path := by
    cases hfirst : w.target first
    cases hpath : w.target path
    simp_all
  obtain ⟨j, hj, hfirstAt⟩ := List.mem_take_iff_getElem.mp
    (List.mem_reverse.mp (List.mem_of_find?_eq_some hfirst))
  -- Both stand at the one place that a target has among those of the files.
  rw [getElem?_checkFiles] at hi
  obtain ⟨_, hpathAt, hpair⟩ := Option.map_eq_some_iff.mp hi
  obtain ⟨rfl, -⟩ := Prod.mk.inj hpair
  have hi : (w.targets files)[i]? = some (w.target first) := by
    rw [targets, List.getElem?_map, hpathAt, htarget]
    rfl
  have hj' : (w.targets files)[j]? = some (w.target first) := by
    rw [targets, List.getElem?_map, List.getElem?_eq_getElem (by omega), hfirstAt]
    rfl
  have hi := idxOf_of_getElem? h.nodup_targets hi
  have hj' := idxOf_of_getElem? h.nodup_targets hj'
  omega

end Covers

/-! Every list of paths has such files. -/

section Rooted

variable (hrooted : w.files.isRooted = true) (hplaces : (w.files.entries.map (·.1)).Nodup)
include hrooted hplaces

/-- What paths stand for are files. -/
private theorem filesOf_of_mem_expandPaths {paths : List String} {path : String}
    (h : path ∈ expandPaths w paths) : filesOf w path = [path] := by
  obtain ⟨named, -, hpath⟩ := List.mem_flatMap.mp ((List.mergeSort_perm _ _).mem_iff.mp h)
  rw [filesOf] at hpath
  split at hpath
  · cases hpath
  · rename_i place hplace
    split at hpath
    · rename_i hdir
      obtain ⟨q, hq, rfl⟩ := List.mem_map.mp hpath
      obtain ⟨hlocate, -⟩ := Option.filter_eq_some_iff.mp hplace
      have hself := FileTree.locate?_join hrooted hlocate hdir hq
      obtain ⟨hcontains, hfile⟩ := FileTree.isFile_of_mem_yamlFiles hrooted hplaces hq
      have hexisting : w.files.existing? w.here
          (PathText.join named ("/".intercalate (q.drop place.length))) = some q :=
        Option.filter_eq_some_iff.mpr ⟨hself, hcontains⟩
      simp only [filesOf, hexisting, hfile, Bool.false_eq_true, if_false]
    · rename_i hfile
      obtain rfl := List.mem_singleton.mp hpath
      simp only [filesOf, hplace, hfile, Bool.false_eq_true, if_false]

/-- Of the names of a file that paths stand for, one can be kept. -/
theorem exists_covers (paths : List String) : ∃ files, w.Covers paths files := by
  let differ : String → String → Prop := fun s t ↦ w.target s ≠ w.target t
  have hdiffer : ∀ {s t u}, differ s u → differ s t ∨ differ t u := by
    intro s t u hsu
    by_contra hsame
    simp only [differ, not_or, not_not] at hsame
    exact hsu (hsame.1.trans hsame.2)
  have hsub := List.pwFilter_sublist (R := differ) (expandPaths w paths)
  refine ⟨(expandPaths w paths).pwFilter differ, fun f hf ↦ ?_, fun f hf ↦ hsub.subset hf, ?_, ?_⟩
  · exact filesOf_of_mem_expandPaths hrooted hplaces (hsub.subset hf)
  · rintro x hx
    obtain ⟨path, hpath, rfl⟩ := List.mem_map.mp hx
    by_contra hnone
    have hkept : ∀ f ∈ (expandPaths w paths).pwFilter differ, differ path f := fun f hf heq ↦
      hnone (heq ▸ List.mem_map_of_mem hf)
    have hall := (List.forall_mem_pwFilter (R := differ) hdiffer path _).mp hkept
    exact hall path hpath rfl
  · exact List.pairwise_map.mpr (List.pairwise_pwFilter _)

end Rooted

end Workspace

/-! ### The command -/

namespace Command

open Effect

/-- If a step succeeds, and the next one from there, they succeed one after another. -/
theorem exists_bind_ok {α : Type} {x : Effect α} {f : α → Effect Unit} {s s₁ : Session} {a : α}
    (hx : x.run.run s = (.ok a, s₁)) (hf : ∃ s', (f a).run.run s₁ = (.ok (), s')) :
    ∃ s', (x >>= f).run.run s = (.ok (), s') := by
  obtain ⟨s', hf⟩ := hf
  refine ⟨s', ?_⟩
  rw [ExceptT.run_bind, StateT.run_bind, hx]
  exact hf

/-- A command that succeeds wherever it is called. -/
def Succeeds (x : Effect Unit) : Prop := ∀ s, ∃ s', x.run.run s = (.ok (), s')

namespace Succeeds

theorem bind {x : Effect Unit} {f : Unit → Effect Unit} (hx : Succeeds x) (hf : Succeeds (f ())) :
    Succeeds (x >>= f) := by
  intro s
  obtain ⟨s₁, hs₁⟩ := hx s
  exact exists_bind_ok hs₁ (hf s₁)

theorem forM {α : Type} {f : α → Effect Unit} {l : List α} (h : ∀ a ∈ l, Succeeds (f a)) :
    Succeeds (l.forM f) := by
  induction l with
  | nil => exact fun s ↦ ⟨s, rfl⟩
  | cons a l ih =>
    obtain ⟨ha, hl⟩ := List.forall_mem_cons.mp h
    exact ha.bind (ih hl)

/-- Telling of files of which none fails succeeds. -/
theorem reportVerdicts {quiet summaryOnly : Bool} {verdicts : List (String × Verdict)}
    (h : ∀ v ∈ verdicts, v.2.isFailure = false) :
    Succeeds (reportVerdicts quiet summaryOnly verdicts) := by
  rw [Command.reportVerdicts]
  refine .bind (.forM fun v hv s ↦ ?_) (.bind ?_ ?_)
  · obtain ⟨path, v⟩ := v
    have hpassed : v.isFailure = false := h _ hv
    cases v with
    | notRecord => cases quiet <;> cases summaryOnly <;> exact ⟨_, rfl⟩
    | passed => cases quiet <;> cases summaryOnly <;> exact ⟨_, rfl⟩
    | refused => cases hpassed
    | faulty => cases hpassed
  · exact fun s ↦ ⟨_, rfl⟩
  · have hnone : (CheckSummary.of verdicts).failed = 0 := by
      refine List.countP_eq_zero.mpr fun v hv ↦ ?_
      obtain ⟨_, hmem, rfl⟩ := List.mem_map.mp hv
      rw [h _ hmem]
      exact Bool.false_ne_true
    rw [if_neg (by rw [hnone]; exact Nat.lt_irrefl 0)]
    exact fun s ↦ ⟨_, rfl⟩

end Succeeds

/-- A check succeeds exactly if there is a project and no file fails. -/
theorem run_check_done_iff {w : Workspace} {arguments : List String} {o : CommonOptions}
    {options : CheckOptions} (htask : readTask arguments = .ok (o, .check options)) :
    (run w arguments).ending = .done ↔ ∃ p, o.discover w = .ok p ∧
      ∀ v ∈ checkFiles w options.keepGoing {} (options.targets p w), v.2.isFailure = false := by
  have hrun : (run w arguments).ending = .done ↔
      ∃ s, (checkCatalog (o.completed w) options).run.run { workspace := w } = (.ok (), s) := by
    simp only [run, htask, Task.perform]
    cases (checkCatalog (o.completed w) options).run.run { workspace := w } with
    | mk result s =>
      cases result with
      | error e =>
        refine iff_of_false (by simp) ?_
        rintro ⟨_, hs⟩
        cases hs
      | ok _ => exact iff_of_true rfl ⟨s, rfl⟩
  rw [hrun, ← discover_completed o w]
  refine ⟨fun hdone ↦ checkCatalog_ok hdone.choose_spec, ?_⟩
  rintro ⟨p, hp, hverdicts⟩
  have hworkspace : workspace.run.run { workspace := w } = (.ok w, { workspace := w }) := rfl
  have hproject : (project (o.completed w)).run.run { workspace := w } =
      (.ok p, { workspace := w }) := by
    rw [project, ExceptT.run_bind, StateT.run_bind, hworkspace]
    change (ofExcept Failure.project ((o.completed w).discover w)).run.run { workspace := w } = _
    rw [hp]
    rfl
  have htold : Succeeds (reportVerdicts (o.completed w).quiet options.summaryOnly
      (checkFiles w options.keepGoing {} (options.targets p w))) := .reportVerdicts hverdicts
  rw [checkCatalog]
  refine exists_bind_ok hproject (exists_bind_ok hworkspace ?_)
  split
  · have hline : ∀ text, Succeeds (printLine text) := fun _ _ ↦ ⟨_, rfl⟩
    exact (hline _).bind ((hline "").bind htold) _
  · exact htold _

/-- A check that keeps going, of paths under which files are named more than once. It succeeds
exactly if it succeeds with each file named once and no file that declares an id is named again; it
tells the same counts exactly if no file of a record is named again. With each file named once, a
file is told to be a duplicate only of another one; else of any file in front of it that declares
its id, be it the same one. -/
theorem run_check_of_covers {w : Workspace} {arguments once : List String} {o : CommonOptions}
    {options : CheckOptions} {files : List String}
    (htask : readTask arguments = .ok (o, .check options))
    (honce : readTask once = .ok (o, .check { options with paths := files }))
    (hkeep : options.keepGoing = true) (hfiles : files ≠ [])
    (hcovers : w.Covers options.paths files) :
    let named := w.targets options.paths
    let verdicts := checkFiles w true {} (expandPaths w options.paths)
    let verdictsOnce := checkFiles w true {} (expandPaths w files)
    ((run w arguments).ending = .done ↔ (run w once).ending = .done ∧
      ∀ x ∈ named, 1 < named.count x → w.declared? x = none) ∧
    (CheckSummary.of verdicts = CheckSummary.of verdictsOnce ↔
      ∀ x ∈ named, 1 < named.count x → x.kind = none) ∧
    (∀ path v, (path, v) ∈ verdictsOnce → ∀ key first, Issue.duplicate key first ∈ v.issues →
      w.declared? (w.target first) = w.declared? (w.target path) ∧
        (w.target first).place ≠ (w.target path).place) ∧
    ∀ i path v, verdicts[i]? = some (path, v) → ∀ key first,
      Issue.duplicate key first ∈ v.issues ↔
        w.declared? (w.target path) = some key ∧
          ((expandPaths w options.paths).take i).reverse.find?
            (fun earlier ↦ w.declared? (w.target earlier) = some key) = some first := by
  intro named verdicts verdictsOnce
  have htargets : ∀ (options : CheckOptions) (p : Project), options.paths ≠ [] →
      options.targets p w = expandPaths w options.paths := fun options p hne ↦ by
    rw [CheckOptions.targets, if_neg (by simpa using hne)]
  have hpaths : options.paths ≠ [] := by
    intro hempty
    obtain ⟨f, hf⟩ := List.exists_mem_of_ne_nil files hfiles
    have hmem := hcovers.mem f hf
    rw [hempty] at hmem
    simp [expandPaths] at hmem
  refine ⟨?_, hcovers.summary_eq_iff, fun path v hv key first hissue ↦
    hcovers.place_ne_of_duplicate hv hissue, fun i path v hv ↦ duplicate_mem_issues_iff hv⟩
  rw [run_check_done_iff htask, run_check_done_iff honce]
  simp only [htargets options _ hpaths, htargets { options with paths := files } _ hfiles]
  rw [hkeep, hcovers.passed_iff]
  simp only [← and_assoc, exists_and_right]
  rfl

/-- A workspace with one part. -/
private def onePart : Workspace where
  files := ⟨[
    ([".tasm"], .directory), (["catalog"], .directory), (["catalog", "parts"], .directory),
    (["catalog", "parts", "X.yaml"], .file (.text "part_id: X-1\n"))]⟩

private theorem expandPaths_onePart :
    expandPaths onePart ["catalog/parts/X.yaml", "catalog/parts"] =
      ["catalog/parts/X.yaml", "catalog/parts/X.yaml"] := by
  have hfiles : ["catalog/parts/X.yaml", "catalog/parts"].flatMap (filesOf onePart) =
      ["catalog/parts/X.yaml", "catalog/parts/X.yaml"] := by decide +kernel
  rw [expandPaths, hfiles]
  exact List.mergeSort_of_pairwise (by decide +kernel)

/-- A part that is named by its file and by the directory above it is a duplicate of itself. -/
theorem run_check_of_covers_onePart :
    (run onePart ["validate", "--keep-going", "catalog/parts/X.yaml"]).ending = .done ∧
    (run onePart ["validate", "--keep-going", "catalog/parts/X.yaml", "catalog/parts"]).ending ≠
      .done := by
  have honce : (run onePart ["validate", "--keep-going", "catalog/parts/X.yaml"]).ending =
      .done := by decide +kernel
  have htargets : onePart.targets ["catalog/parts/X.yaml", "catalog/parts"] =
      [onePart.target "catalog/parts/X.yaml", onePart.target "catalog/parts/X.yaml"] := by
    rw [Workspace.targets, expandPaths_onePart]
    rfl
  have hcovers : onePart.Covers ["catalog/parts/X.yaml", "catalog/parts"]
      ["catalog/parts/X.yaml"] := by
    refine ⟨by decide +kernel, ?_, ?_, by decide +kernel⟩
    · simp [expandPaths_onePart]
    · simp [htargets]
  have htask : readTask
      ["validate", "--keep-going", "catalog/parts/X.yaml", "catalog/parts"] = .ok ({}, .check
        { paths := ["catalog/parts/X.yaml", "catalog/parts"], keepGoing := true }) := by rfl
  obtain ⟨hdone, -⟩ := run_check_of_covers (w := onePart) htask
    (by rfl : readTask ["validate", "--keep-going", "catalog/parts/X.yaml"] = _) rfl
    (List.cons_ne_nil _ _) hcovers
  refine ⟨honce, fun hall ↦ ?_⟩
  have hnone := (hdone.mp hall).2 (onePart.target "catalog/parts/X.yaml") (by simp [htargets])
    (by simp [htargets])
  revert hnone
  decide +kernel

end Command

end PipingAssembly
