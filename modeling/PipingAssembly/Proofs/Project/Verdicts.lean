import PipingAssembly.Proofs.Lists
import PipingAssembly.Proofs.Project.Validation

/-!
# Verdicts on files in their order

What a check says of a file depends on what the file is taken for and on the ids that the files in
front of it declare: it says what it says of the file by itself, and that the file is a duplicate if
one in front of it declares the same id.
-/

namespace PipingAssembly

/-! ### One file -/

namespace Verdict

/-- The verdict on a file that fits its schema. -/
def ofIssues : List Issue → Verdict
  | [] => passed
  | issues => faulty issues

/-- The issues that a verdict tells. -/
def issues : Verdict → List Issue
  | faulty issues => issues
  | _ => []

/-- A verdict with one more issue, which is told first. -/
def withIssue (v : Verdict) : Option Issue → Verdict
  | none => v
  | some issue => faulty (issue :: v.issues)

theorem ofIssues_append (issue? : Option Issue) (issues : List Issue) :
    ofIssues (issue?.toList ++ issues) = (ofIssues issues).withIssue issue? := by
  cases issue? <;> cases issues <;> rfl

theorem issues_ofIssues (l : List Issue) : (ofIssues l).issues = l := by
  cases l <;> rfl

theorem isFailure_withIssue (v : Verdict) (issue? : Option Issue) :
    (v.withIssue issue?).isFailure = (v.isFailure || issue?.isSome) := by
  cases issue? <;> simp [withIssue, isFailure]

theorem issues_withIssue (v : Verdict) (issue? : Option Issue) :
    (v.withIssue issue?).issues = issue?.toList ++ v.issues := by
  cases issue? <;> simp [withIssue, issues]

end Verdict

/-- The issue of a file that declares an id of a kind after another file. -/
def Issue.duplicate : RecordKind × String → String → Issue
  | (.part, id) => duplicatePart id
  | (.rule, id) => duplicateRule id

theorem Issue.duplicate_inj {key key' : RecordKind × String} {first first' : String} :
    duplicate key first = duplicate key' first' ↔ key = key' ∧ first = first' := by
  obtain ⟨kind, id⟩ := key
  obtain ⟨kind', id'⟩ := key'
  cases kind <;> cases kind' <;> simp [duplicate]

/-- What a check takes a path for: the kind of record that its steps tell and the place that it
leads to. -/
structure CheckTarget where
  kind : Option RecordKind
  place : Option Path
  deriving DecidableEq

namespace Workspace

variable (w : Workspace)

/-- What a check takes a path for. -/
def target (path : String) : CheckTarget :=
  ⟨RecordKind.ofPath? (PathText.names path), w.files.locate? w.here path⟩

/-- The text of a file. -/
def content? (t : CheckTarget) : Option String :=
  t.place.bind fun place ↦ (w.files.content? place).bind (·.text?)

/-- The id that a file declares, with its kind: that of a valid document which is read as a
record. -/
def declared? (t : CheckTarget) : Option (RecordKind × String) := do
  let kind ← t.kind
  let content ← w.content? t
  let _ ← (validate content kind).toOption
  let id ← (Yaml.readRecord? content).bind kind.idOf?
  return (kind, id)

variable {w} in
theorem kind_of_declared? {t : CheckTarget} {key : RecordKind × String}
    (h : w.declared? t = some key) : t.kind = some key.1 := by
  obtain ⟨kind, hkind, h⟩ := Option.bind_eq_some_iff.mp h
  obtain ⟨_, -, h⟩ := Option.bind_eq_some_iff.mp h
  obtain ⟨_, -, h⟩ := Option.bind_eq_some_iff.mp h
  obtain ⟨_, -, h⟩ := Option.bind_eq_some_iff.mp h
  obtain rfl := Option.some.inj h
  exact hkind

end Workspace

namespace DeclaredIds

/-- The last file that declared an id of a kind. -/
def file? (declared : DeclaredIds) : RecordKind × String → Option String
  | (.part, id) => declared.parts.lookup id
  | (.rule, id) => declared.rules.lookup id

/-- The ids after a file has declared one. -/
def insert (declared : DeclaredIds) (path : String) : RecordKind × String → DeclaredIds
  | (.part, id) => { declared with parts := (id, path) :: declared.parts }
  | (.rule, id) => { declared with rules := (id, path) :: declared.rules }

@[simp]
theorem file?_empty (key : RecordKind × String) : file? {} key = none := by
  obtain ⟨kind, id⟩ := key
  cases kind <;> rfl

theorem file?_insert (declared : DeclaredIds) (path : String) (key other : RecordKind × String) :
    (declared.insert path key).file? other =
      if other = key then some path else declared.file? other := by
  obtain ⟨kind, id⟩ := key
  obtain ⟨kind', id'⟩ := other
  cases kind <;> cases kind' <;> simp [insert, file?, List.lookup_cons] <;> grind

theorem file?_insert_eq_none_iff {declared : DeclaredIds} {path : String}
    {key other : RecordKind × String} :
    (declared.insert path key).file? other = none ↔ other ≠ key ∧ declared.file? other = none := by
  rw [file?_insert]
  by_cases hother : other = key <;> simp [hother]

end DeclaredIds

/-- A document that fits its schema has one more issue if its id is declared already. -/
private theorem issuesOf_eq (kind : RecordKind) (path content : String) (declared : DeclaredIds) :
    issuesOf kind path content declared =
      let key? := ((Yaml.readRecord? content).bind kind.idOf?).map (kind, ·)
      ((key?.bind fun key ↦ (declared.file? key).map (.duplicate key)).toList ++
        (issuesOf kind "" content {}).1,
       key?.elim declared (declared.insert path)) := by
  cases kind with
  | part =>
    rw [bind_idOf?_part]
    simp only [issuesOf]
    cases (Yaml.readRecord? content).bind Part.ofValue? with
    | none => rfl
    | some p =>
      cases hfile : declared.parts.lookup p.id <;>
        simp [DeclaredIds.file?, DeclaredIds.insert, Issue.duplicate, hfile]
  | rule =>
    rw [bind_idOf?_rule]
    simp only [issuesOf]
    cases (Yaml.readRecord? content).bind Rule.ofValue? with
    | none => rfl
    | some r =>
      cases hfile : declared.rules.lookup r.id <;>
        simp [DeclaredIds.file?, DeclaredIds.insert, Issue.duplicate, hfile]

section File

variable (w : Workspace)

private theorem bind_decode?_bytes? (path : String) :
    (w.bytes? path).bind Text.decode? = w.content? (w.target path) := by
  rw [Workspace.bytes?, Workspace.find?, FileTree.find?, Workspace.content?, Workspace.target]
  cases w.files.locate? w.here path with
  | none => rfl
  | some place =>
    change ((w.files.content? place).map FileContent.toBytes).bind Text.decode? = _
    cases hcontent : w.files.content? place <;> simp [hcontent, FileContent.text?]

private theorem checkFile_of_none {path : String} (hkind : (w.target path).kind = none)
    (declared : DeclaredIds) : checkFile w declared path = (.notRecord, declared) := by
  have hkind : RecordKind.ofPath? (PathText.names path) = none := hkind
  rw [checkFile, hkind]

/-- The verdict on a file whose path tells a kind, as far as it does not depend on other files. -/
private theorem checkFile_of_kind {path : String} {kind : RecordKind}
    (hkind : (w.target path).kind = some kind) (declared : DeclaredIds) :
    checkFile w declared path =
      match w.content? (w.target path) with
      | none => (.faulty [.notText], declared)
      | some content =>
        match validate content kind with
        | .error refusal => (.refused content refusal, declared)
        | .ok () =>
          (.ofIssues (issuesOf kind path content declared).1,
            (issuesOf kind path content declared).2) := by
  have hkind : RecordKind.ofPath? (PathText.names path) = some kind := hkind
  rw [checkFile, hkind, bind_decode?_bytes?]
  cases w.content? (w.target path) with
  | none => rfl
  | some content =>
    cases hvalid : validate content kind with
    | error refusal => simp only [hvalid]
    | ok _ =>
      simp only [hvalid]
      cases hissues : issuesOf kind path content declared with
      | mk issues after => cases issues <;> simp [Verdict.ofIssues]

/-- A check adds to what it says of a file by itself whether its id is declared already, and goes on
with this id. -/
theorem checkFile_eq (declared : DeclaredIds) (path : String) :
    checkFile w declared path =
      ((checkFile w {} path).1.withIssue
        ((w.declared? (w.target path)).bind fun key ↦
          (declared.file? key).map (Issue.duplicate key)),
       (w.declared? (w.target path)).elim declared (declared.insert path)) := by
  rw [Workspace.declared?]
  cases hkind : (w.target path).kind with
  | none =>
    rw [checkFile_of_none w hkind, checkFile_of_none w hkind]
    rfl
  | some kind =>
    rw [checkFile_of_kind w hkind, checkFile_of_kind w hkind]
    cases w.content? (w.target path) with
    | none => rfl
    | some content =>
      cases hvalid : validate content kind with
      | error refusal => simp [hvalid, Except.toOption, Verdict.withIssue]
      | ok _ =>
        simp only [hvalid, issuesOf_eq kind path content, Verdict.ofIssues_append]
        cases hid : (Yaml.readRecord? content).bind kind.idOf? <;>
          simp [hid, hvalid, Except.toOption, Verdict.withIssue]

/-- What a check says of a file by itself does not depend on how the file is named. -/
theorem checkFile_congr {s t : String} (h : w.target s = w.target t) :
    (checkFile w {} s).1 = (checkFile w {} t).1 := by
  cases hkind : (w.target t).kind with
  | none =>
    rw [checkFile_of_none w ((congrArg CheckTarget.kind h).trans hkind),
      checkFile_of_none w hkind]
  | some kind =>
    rw [checkFile_of_kind w ((congrArg CheckTarget.kind h).trans hkind),
      checkFile_of_kind w hkind, h]
    cases w.content? (w.target t) with
    | none => rfl
    | some content =>
      cases hvalid : validate content kind with
      | error refusal => simp only [hvalid]
      | ok _ =>
        simp only [hvalid, issuesOf_eq kind s content, issuesOf_eq kind t content,
          DeclaredIds.file?_empty]

/-- Every file counts as checked whose path tells a kind. -/
theorem isChecked_checkFile (declared : DeclaredIds) (path : String) :
    (checkFile w declared path).1.isChecked = (w.target path).kind.isSome := by
  cases hkind : (w.target path).kind with
  | none =>
    rw [checkFile_of_none w hkind]
    rfl
  | some kind =>
    rw [checkFile_of_kind w hkind]
    split
    · rfl
    · split
      · rfl
      · cases (issuesOf kind path _ declared).1 <;> rfl

/-- A file by itself is no duplicate. -/
private theorem duplicate_notMem_issues (path : String) (key : RecordKind × String)
    (first : String) : Issue.duplicate key first ∉ (checkFile w {} path).1.issues := by
  cases hkind : (w.target path).kind with
  | none =>
    rw [checkFile_of_none w hkind]
    exact List.not_mem_nil
  | some kind =>
    rw [checkFile_of_kind w hkind]
    split
    · obtain ⟨_ | _, id⟩ := key <;> simp [Issue.duplicate, Verdict.issues]
    · rename_i content _
      split
      · exact List.not_mem_nil
      · rw [Verdict.issues_ofIssues]
        cases kind with
        | part =>
          rw [issuesOf]
          cases (Yaml.readRecord? content).bind Part.ofValue? <;> simp
        | rule =>
          rw [issuesOf]
          cases (Yaml.readRecord? content).bind Rule.ofValue? with
          | none => exact List.not_mem_nil
          | some r =>
            obtain ⟨_ | _, id⟩ := key <;> simp [Issue.duplicate] <;> split <;> simp

end File

/-! ### One file after another -/

section Run

variable (w : Workspace)

private theorem checkFiles_true_cons (declared : DeclaredIds) (path : String)
    (paths : List String) :
    checkFiles w true declared (path :: paths) =
      (path, (checkFile w declared path).1) ::
        checkFiles w true (checkFile w declared path).2 paths := by
  rw [checkFiles_cons, Bool.not_true, Bool.and_false, if_neg Bool.false_ne_true]

/-- The ids that are declared after a check of files. -/
def declaredAfter (declared : DeclaredIds) (paths : List String) : DeclaredIds :=
  paths.foldl (fun declared path ↦ (checkFile w declared path).2) declared

/-- The last file that declared an id is the last one of those that declare it. -/
theorem file?_declaredAfter (declared : DeclaredIds) (paths : List String)
    (key : RecordKind × String) :
    (declaredAfter w declared paths).file? key =
      (paths.reverse.find? fun path ↦ w.declared? (w.target path) = some key).or
        (declared.file? key) := by
  induction paths generalizing declared with
  | nil => rfl
  | cons path paths ih =>
    rw [declaredAfter, List.foldl_cons, ← declaredAfter, ih, checkFile_eq, List.reverse_cons,
      List.find?_append, Option.or_assoc]
    congr 1
    cases hid : w.declared? (w.target path) with
    | none => simp [hid]
    | some own =>
      rw [Option.elim_some, DeclaredIds.file?_insert]
      by_cases hkey : key = own <;> simp [hid, hkey, eq_comm]

/-- What is said of a file depends on those in front of it. -/
theorem getElem?_checkFiles (declared : DeclaredIds) (paths : List String) (i : Nat) :
    (checkFiles w true declared paths)[i]? = paths[i]?.map fun path ↦
      (path, (checkFile w (declaredAfter w declared (paths.take i)) path).1) := by
  induction paths generalizing declared i with
  | nil => rfl
  | cons path paths ih =>
    rw [checkFiles_true_cons]
    cases i with
    | zero => rfl
    | succ i => rw [List.getElem?_cons_succ, List.getElem?_cons_succ, ih, List.take_succ_cons]; rfl

variable {w}

/-- A file is told to be a duplicate exactly if it declares an id that a file in front of it
declares, the last of which is named. -/
theorem duplicate_mem_issues_iff {paths : List String} {i : Nat} {path : String} {v : Verdict}
    (h : (checkFiles w true {} paths)[i]? = some (path, v)) (key : RecordKind × String)
    (first : String) :
    Issue.duplicate key first ∈ v.issues ↔
      w.declared? (w.target path) = some key ∧
      ((paths.take i).reverse.find? fun p ↦ w.declared? (w.target p) = some key) = some first := by
  rw [getElem?_checkFiles] at h
  obtain ⟨_, -, hpair⟩ := Option.map_eq_some_iff.mp h
  obtain ⟨rfl, rfl⟩ := Prod.mk.inj hpair
  rw [checkFile_eq, Verdict.issues_withIssue, List.mem_append,
    or_iff_left (duplicate_notMem_issues w _ _ _), Option.mem_toList, Option.bind_eq_some_iff]
  constructor
  · rintro ⟨own, hown, hfile⟩
    obtain ⟨other, hother, hissue⟩ := Option.map_eq_some_iff.mp hfile
    obtain ⟨rfl, rfl⟩ := Issue.duplicate_inj.mp hissue
    rw [file?_declaredAfter, DeclaredIds.file?_empty, Option.or_none] at hother
    exact ⟨hown, hother⟩
  · rintro ⟨hown, hother⟩
    refine ⟨key, hown, ?_⟩
    rw [file?_declaredAfter, hother]
    rfl

/-- No file fails exactly if none fails by itself and no two of them declare the same id. The
induction is on the files; the ids that are declared before a file rule out its own. -/
theorem checkFiles_passed_iff {declared : DeclaredIds} {paths : List String} :
    (∀ v ∈ checkFiles w true declared paths, v.2.isFailure = false) ↔
      (∀ path ∈ paths, (checkFile w {} path).1.isFailure = false) ∧
      ((paths.map w.target).filterMap w.declared?).Nodup ∧
      ∀ key ∈ (paths.map w.target).filterMap w.declared?, declared.file? key = none := by
  induction paths generalizing declared with
  | nil => simp [checkFiles]
  | cons path paths ih =>
    rw [checkFiles_true_cons, List.forall_mem_cons, ih, checkFile_eq, Verdict.isFailure_withIssue,
      List.forall_mem_cons, List.map_cons, List.filterMap_cons]
    cases hid : w.declared? (w.target path) with
    | none =>
      rw [Option.bind_none, Option.isSome_none, Bool.or_false, Option.elim_none, and_assoc]
    | some key =>
      simp only [Option.bind_some, Option.isSome_map, Option.elim_some,
        DeclaredIds.file?_insert_eq_none_iff, imp_and, forall_and, Bool.or_eq_false_iff,
        Option.isSome_eq_false_iff, Option.isNone_iff_eq_none, List.nodup_cons,
        List.forall_mem_cons, ne_eq, List.forall_mem_ne']
      tauto

end Run

/-! ### Counts -/

/-- Files that do not count as checked count for nothing. -/
private theorem summary_filter (verdicts : List (String × Verdict)) :
    CheckSummary.of (verdicts.filter (·.2.isChecked)) = CheckSummary.of verdicts := by
  have hfailed : ∀ v : Verdict, (v.isFailure && v.isChecked) = v.isFailure := by
    intro v
    cases v <;> rfl
  have herrors : total ((verdicts.filter (·.2.isChecked)).map (·.2.errorCount)) =
      total (verdicts.map (·.2.errorCount)) := by
    induction verdicts with
    | nil => rfl
    | cons v verdicts ih =>
      rw [List.map_cons, total_cons, ← ih, List.filter_cons]
      split
      · rw [List.map_cons, total_cons]
      · rename_i hchecked
        have hnone : v.2.errorCount = 0 := by
          cases hv : v.2 <;> rw [hv] at hchecked <;> first | rfl | exact absurd rfl hchecked
        rw [hnone, Nat.zero_add]
  simp only [CheckSummary.of, List.map_map, List.countP_map, List.countP_filter,
    Function.comp_def, herrors, hfailed, Bool.and_self]

section Counts

variable (w : Workspace)

/-- Whether the steps of a path tell a kind of record. -/
def Workspace.namesRecord (path : String) : Bool := (w.target path).kind.isSome

private theorem length_checkFiles (declared : DeclaredIds) (paths : List String) :
    (checkFiles w true declared paths).length = paths.length := by
  induction paths generalizing declared with
  | nil => rfl
  | cons path paths ih => rw [checkFiles_true_cons, List.length_cons, List.length_cons, ih]

private theorem checkFiles_filter (declared : DeclaredIds) (paths : List String) :
    checkFiles w true declared (paths.filter w.namesRecord) =
      (checkFiles w true declared paths).filter (·.2.isChecked) := by
  induction paths generalizing declared with
  | nil => rfl
  | cons path paths ih =>
    rw [checkFiles_true_cons, List.filter_cons, List.filter_cons, isChecked_checkFile,
      Workspace.namesRecord]
    split
    · rw [checkFiles_true_cons, ih]
    · rename_i hnone
      rw [Bool.not_eq_true, Option.isSome_eq_false_iff, Option.isNone_iff_eq_none] at hnone
      rw [ih, checkFile_eq, Workspace.declared?, hnone]
      rfl

/-- Files that are in no directory of records do not change the counts. -/
theorem summary_checkFiles_filter (paths : List String) :
    CheckSummary.of (checkFiles w true {} (paths.filter w.namesRecord)) =
      CheckSummary.of (checkFiles w true {} paths) := by
  rw [checkFiles_filter, summary_filter]

/-- All files count as checked that are in a directory of records. -/
theorem checked_checkFiles (declared : DeclaredIds) (paths : List String) :
    (CheckSummary.of (checkFiles w true declared paths)).checked =
      (paths.filter w.namesRecord).length := by
  rw [← length_checkFiles w declared, checkFiles_filter, ← List.countP_eq_length_filter]
  exact List.countP_map

end Counts

end PipingAssembly
