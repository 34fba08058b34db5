import Mathlib.Data.Finset.Card
import PipingAssembly.Proofs.Files.Growth
import PipingAssembly.Proofs.Import.Written

/-!
# How an import advances

An import goes through records. One that is no part is counted, and of a part the file is written,
announced or kept, as the file is there and as the import is forced. So what an import does follows
from the parts that it comes to, and from what it does with one of them.
-/

namespace PipingAssembly

/-! ### Counts -/

namespace ImportStats

/-- The counts after a part, as its file was there and as the import is forced. -/
def countPart (s : ImportStats) (existed force : Bool) : ImportStats :=
  if !existed then { s with created := s.created + 1 }
  else if force then { s with updated := s.updated + 1 }
  else { s with skipped := s.skipped + 1 }

/-- The number of parts that were counted. -/
def parts (s : ImportStats) : Nat := s.created + s.updated + s.skipped

/-- Whether each row was counted as a part or as an error. -/
def Balanced (s : ImportStats) : Prop := s.rows = s.parts + s.errors

variable (s : ImportStats) (existed force : Bool)

theorem parts_countPart : (s.countPart existed force).parts = s.parts + 1 := by
  cases existed <;> cases force <;> simp [countPart, parts] <;> omega

theorem rows_countPart : (s.countPart existed force).rows = s.rows := by
  cases existed <;> cases force <;> rfl

theorem errors_countPart : (s.countPart existed force).errors = s.errors := by
  cases existed <;> cases force <;> rfl

theorem created_countPart :
    (s.countPart existed force).created = s.created + if existed then 0 else 1 := by
  cases existed <;> cases force <;> rfl

theorem skipped_countPart_of_force : (s.countPart existed true).skipped = s.skipped := by
  cases existed <;> rfl

theorem updated_countPart_of_not_force : (s.countPart existed false).updated = s.updated := by
  cases existed <;> rfl

end ImportStats

/-! ### Places of parts -/

private theorem card_toFinset_cons {α : Type} [DecidableEq α] (x : α) (l : List α) :
    (x :: l).toFinset.card = (l.filter (· ≠ x)).toFinset.card + 1 := by
  have hothers : (insert x l.toFinset).erase x = (l.filter (· ≠ x)).toFinset := by
    ext y
    simp [and_comm]
  rw [List.toFinset_cons, ← Finset.card_erase_add_one (Finset.mem_insert_self x _), hothers]

namespace Project

variable {p : Project} {files files' : Files} {q : Part} {parts : List Part} {path : Path}

/-- The places of the files of some parts that are not there yet. -/
def newPlaces (p : Project) (files : Files) (parts : List Part) : List Path :=
  (parts.map (p.partPath ·.id)).filter fun path ↦ !files.contains path

/-- The first of some parts whose file has a place. -/
def firstAt? (p : Project) (path : Path) (parts : List Part) : Option Part :=
  parts.find? fun q ↦ p.partPath q.id == path

theorem firstAt?_cons_self (p : Project) (q : Part) (parts : List Part) :
    p.firstAt? (p.partPath q.id) (q :: parts) = some q :=
  List.find?_cons_of_pos (beq_self_eq_true (p.partPath q.id))

theorem firstAt?_cons_of_ne (h : p.partPath q.id ≠ path) (parts : List Part) :
    p.firstAt? path (q :: parts) = p.firstAt? path parts :=
  List.find?_cons_of_neg (by simpa using h)

theorem partPath_of_firstAt? (h : p.firstAt? path parts = some q) : p.partPath q.id = path := by
  let isThere : Part → Bool := fun r ↦ p.partPath r.id == path
  exact eq_of_beq (List.find?_some (p := isThere) h)

/-- Whether a content is that of the file of one of some parts. -/
def Puts (p : Project) (parts : List Part) (path : Path) (content : FileContent) : Prop :=
  ∃ q ∈ parts, p.partPath q.id = path ∧ content = q.fileContent

theorem mem_newPlaces : path ∈ p.newPlaces files parts ↔
    files.contains path = false ∧ ∃ q ∈ parts, p.partPath q.id = path := by
  rw [newPlaces, List.mem_filter, List.mem_map, Bool.not_eq_true', and_comm]

theorem newPlaces_cons_of_contains (h : files.contains (p.partPath q.id) = true)
    (parts : List Part) : p.newPlaces files (q :: parts) = p.newPlaces files parts := by
  rw [newPlaces, List.map_cons, List.filter_cons_of_neg (by simp [h]), newPlaces]

theorem newPlaces_cons_of_not_contains (h : files.contains (p.partPath q.id) = false)
    (parts : List Part) :
    p.newPlaces files (q :: parts) = p.partPath q.id :: p.newPlaces files parts := by
  rw [newPlaces, List.map_cons, List.filter_cons_of_pos (by simp [h]), newPlaces]

/-- The file of a part is not on the way to that of another one. -/
theorem not_partPath_prefix (p : Project) (id id' : String) :
    ¬p.partPath id <+: (p.partPath id').dropLast := by
  intro h
  have hlength := h.length_le
  rw [partPath, partPath, List.dropLast_concat, List.length_append, List.length_singleton]
    at hlength
  omega

section Write

variable (h : files.writeWithin (p.partPath q.id) q.fileContent = .ok files')
include h

/-- Writing the file of a part leaves what stands in the places of other ones. -/
theorem entry?_partPath_of_ne {id : String} (hne : p.partPath id ≠ p.partPath q.id) :
    files'.entry? (p.partPath id) = files.entry? (p.partPath id) :=
  FileTree.entry?_writeWithin_of_ne h hne (p.not_partPath_prefix _ _)

theorem contains_partPath_self : files'.contains (p.partPath q.id) = true := by
  obtain ⟨e, he, -⟩ := Option.bind_eq_some_iff.mp (FileTree.content?_writeWithin_self h)
  rw [FileTree.contains, he]
  rfl

/-- After a file was written its place is no new one any more, and other places are as before. -/
theorem newPlaces_of_writeWithin (parts : List Part) :
    p.newPlaces files' parts = (p.newPlaces files parts).filter (· ≠ p.partPath q.id) := by
  rw [newPlaces, newPlaces, List.filter_filter]
  apply List.filter_congr
  intro path hpath
  obtain ⟨r, -, rfl⟩ := List.mem_map.mp hpath
  by_cases hr : p.partPath r.id = p.partPath q.id
  · rw [hr, contains_partPath_self h]
    simp
  · rw [FileTree.contains, entry?_partPath_of_ne h hr, FileTree.contains]
    simp [hr]

/-- Writing a file that is there makes no place a new one, and leaves the new ones new. -/
theorem newPlaces_of_contains (hthere : files.contains (p.partPath q.id) = true)
    (parts : List Part) : p.newPlaces files' parts = p.newPlaces files parts := by
  rw [newPlaces_of_writeWithin h, List.filter_eq_self]
  intro path hpath
  refine decide_eq_true ?_
  rintro rfl
  exact absurd hthere (Bool.eq_false_iff.mp (mem_newPlaces.mp hpath).1)

end Write

end Project

namespace ImportProgress

/-! ### One part -/

section Put

variable {p : Project} {options : ImportOptions} {a b : ImportProgress} {q : Part}

@[simp]
theorem files_countWritten (a : ImportProgress) (existed : Bool) :
    (a.countWritten existed).files = a.files := by
  cases existed <;> rfl

@[simp]
theorem rejected_countWritten (a : ImportProgress) (existed : Bool) :
    (a.countWritten existed).rejected = a.rejected := by
  cases existed <;> rfl

private theorem stats_countWritten (a : ImportProgress) {existed force : Bool}
    (h : existed = true → force = true) :
    (a.countWritten existed).stats = a.stats.countPart existed force := by
  cases existed with
  | false => rfl
  | true => rw [h rfl]; rfl

private theorem put_cases (h : a.put p options q = .ok b) :
    b.stats = a.stats.countPart (a.files.contains (p.partPath q.id)) options.force ∧
      b.rejected = a.rejected ∧
      ((b.files = a.files ∧ (options.dryRun = true ∨
          a.files.contains (p.partPath q.id) = true ∧ options.force = false)) ∨
        (options.dryRun = false ∧
          (a.files.contains (p.partPath q.id) = true → options.force = true) ∧
          a.files.writeWithin (p.partPath q.id) q.fileContent = .ok b.files)) := by
  rw [put] at h
  dsimp only at h
  split at h
  case isTrue hkept =>
    obtain rfl := Except.ok.inj h
    rw [Bool.and_eq_true, Bool.not_eq_true'] at hkept
    refine ⟨?_, rfl, Or.inl ⟨rfl, Or.inr hkept⟩⟩
    rw [hkept.1, hkept.2]
    rfl
  case isFalse hkept =>
    have hforce : a.files.contains (p.partPath q.id) = true → options.force = true :=
      fun hthere ↦ by simpa [hthere] using hkept
    split at h
    case isTrue hdry =>
      obtain rfl := Except.ok.inj h
      exact ⟨stats_countWritten _ hforce, rejected_countWritten _ _,
        Or.inl ⟨files_countWritten _ _, Or.inl hdry⟩⟩
    case isFalse hdry =>
      obtain ⟨files, hwrite, h⟩ := bind_eq_ok_iff.mp h
      obtain rfl := Except.ok.inj h
      refine ⟨stats_countWritten _ hforce, rejected_countWritten _ _,
        Or.inr ⟨Bool.eq_false_iff.mpr hdry, hforce, ?_⟩⟩
      rw [files_countWritten]
      exact hwrite

/-- A row with a part is counted, and its file is written, unless all files stay as they are: in a
dry run, and where the file is there and nothing is forced. -/
theorem row_cases (h : a.countRow.put p options q = .ok b) :
    b.stats = a.countRow.stats.countPart (a.files.contains (p.partPath q.id)) options.force ∧
      b.rejected = a.rejected ∧
      ((b.files = a.files ∧ (options.dryRun = true ∨
          a.files.contains (p.partPath q.id) = true ∧ options.force = false)) ∨
        (options.dryRun = false ∧
          (a.files.contains (p.partPath q.id) = true → options.force = true) ∧
          a.files.writeWithin (p.partPath q.id) q.fileContent = .ok b.files)) :=
  put_cases h

/-- The file of a part is written where nothing stands, unless the run is dry. -/
theorem writeWithin_of_row (h : a.countRow.put p options q = .ok b)
    (hwet : options.dryRun = false) (hnew : a.files.contains (p.partPath q.id) = false) :
    a.files.writeWithin (p.partPath q.id) q.fileContent = .ok b.files := by
  obtain ⟨-, hdry | ⟨hold, -⟩⟩ | ⟨-, -, hwrite⟩ := (row_cases h).2.2
  · rw [hwet] at hdry
    cases hdry
  · rw [hnew] at hold
    cases hold
  · exact hwrite

theorem created_of_row (h : a.countRow.put p options q = .ok b) :
    b.stats.created =
      a.stats.created + if a.files.contains (p.partPath q.id) then 0 else 1 := by
  rw [(row_cases h).1, ImportStats.created_countPart]
  rfl

/-- A row with a part leaves what stands in the places of other ones. -/
theorem entry?_of_row (h : a.countRow.put p options q = .ok b) {id : String}
    (hne : p.partPath id ≠ p.partPath q.id) :
    b.files.entry? (p.partPath id) = a.files.entry? (p.partPath id) := by
  obtain ⟨hsame, -⟩ | ⟨-, -, hwrite⟩ := (row_cases h).2.2
  · rw [hsame]
  · exact Project.entry?_partPath_of_ne hwrite hne

/-- A dry run comes by every part. -/
theorem exists_put_eq_ok (hdry : options.dryRun = true) (a : ImportProgress) (q : Part) :
    ∃ b, a.put p options q = .ok b := by
  rw [put]
  dsimp only
  split
  · exact ⟨_, rfl⟩
  · exact ⟨_, rfl⟩

end Put

end ImportProgress

/-! ### Several parts -/

namespace ImportProgress

/-- Whether an import comes from one point to another one by records that are no parts and by some
parts. -/
inductive Advances (p : Project) (options : ImportOptions) :
    ImportProgress → List Part → ImportProgress → Prop
  | refl (a : ImportProgress) : Advances p options a [] a
  | reject {a b : ImportProgress} {parts : List Part} (number : Nat) (fault : RowFault)
    (rest : Advances p options (a.countRow.reject number fault) parts b) :
    Advances p options a parts b
  | put {a next b : ImportProgress} {q : Part} {parts : List Part}
    (first : a.countRow.put p options q = .ok next) (rest : Advances p options next parts b) :
    Advances p options a (q :: parts) b

namespace Advances

variable {p : Project} {options : ImportOptions} {a b : ImportProgress} {parts : List Part}
  (h : Advances p options a parts b)
include h

/-- Each row is counted once. -/
theorem balanced (ha : a.stats.Balanced) : b.stats.Balanced := by
  induction h with
  | refl a => exact ha
  | reject number fault _ ih =>
    refine ih ?_
    rw [ImportStats.Balanced] at ha ⊢
    exact congrArg (· + 1) ha
  | @put a next b q parts first _ ih =>
    refine ih ?_
    rw [ImportStats.Balanced] at ha ⊢
    rw [(row_cases first).1, ImportStats.rows_countPart, ImportStats.parts_countPart,
      ImportStats.errors_countPart]
    change a.stats.rows + 1 = a.stats.parts + 1 + a.stats.errors
    omega

/-- Each part is counted once. -/
theorem parts_stats : b.stats.parts = a.stats.parts + parts.length := by
  induction h with
  | refl a => rfl
  | reject number fault _ ih => exact ih
  | @put a next b q parts first _ ih =>
    rw [ih, (row_cases first).1, ImportStats.parts_countPart, List.length_cons]
    change a.stats.parts + 1 + parts.length = _
    omega

/-- A forced import skips no part. -/
theorem skipped_of_force (hforce : options.force = true) : b.stats.skipped = a.stats.skipped := by
  induction h with
  | refl a => rfl
  | reject number fault _ ih => exact ih
  | put first _ ih =>
    rw [ih, (row_cases first).1, hforce, ImportStats.skipped_countPart_of_force]
    rfl

/-- An import that is not forced updates no file. -/
theorem updated_of_not_force (hforce : options.force = false) :
    b.stats.updated = a.stats.updated := by
  induction h with
  | refl a => rfl
  | reject number fault _ ih => exact ih
  | put first _ ih =>
    rw [ih, (row_cases first).1, hforce, ImportStats.updated_countPart_of_not_force]
    rfl

/-- Nothing is removed, and all that is written is files of the parts, where nothing stood unless
the import is forced. -/
theorem grows : a.files.Grows b.files fun path content ↦
    p.Puts parts path content ∧ (options.force = false → a.files.contains path = false) := by
  induction h with
  | refl a => exact .refl _ _
  | reject number fault _ ih => exact ih
  | @put a next b q parts first _ ih =>
    have hmore : ∀ path content, p.Puts parts path content → p.Puts (q :: parts) path content :=
      fun path content ⟨r, hr, hput⟩ ↦ ⟨r, List.mem_cons_of_mem q hr, hput⟩
    obtain ⟨hfiles, -⟩ | ⟨-, hforce, hwrite⟩ := (row_cases first).2.2
    · rw [hfiles] at ih
      exact ih.mono fun path content ⟨hput, hnew⟩ ↦ ⟨hmore path content hput, hnew⟩
    · have hself : p.Puts (q :: parts) (p.partPath q.id) q.fileContent ∧
          (options.force = false → a.files.contains (p.partPath q.id) = false) := by
        refine ⟨⟨q, List.mem_cons_self, rfl, rfl⟩, fun hkeep ↦ Bool.eq_false_iff.mpr fun hold ↦ ?_⟩
        rw [hforce hold] at hkeep
        cases hkeep
      have hwritten : a.files.Grows next.files fun path content ↦
          p.Puts (q :: parts) path content ∧
            (options.force = false → a.files.contains path = false) :=
        FileTree.grows_writeWithin hwrite hself
      refine hwritten.trans (ih.mono fun path content ⟨hput, hnew⟩ ↦
        ⟨hmore path content hput, fun hkeep ↦ Bool.eq_false_iff.mpr fun hold ↦ ?_⟩)
      exact absurd (hwritten.contains hold) (Bool.eq_false_iff.mp (hnew hkeep))

/-- An import that is not forced leaves what is there. -/
theorem entry?_of_contains (hforce : options.force = false) {path : Path}
    (hold : a.files.contains path = true) : b.files.entry? path = a.files.entry? path := by
  obtain hkept | ⟨hnone, -⟩ | ⟨content, ⟨-, hnew⟩, -⟩ := h.grows path
  · exact hkept
  · rw [FileTree.contains, hnone] at hold
    cases hold
  · rw [hnew hforce] at hold
    cases hold

section Dry

variable (hdry : options.dryRun = true)
include hdry

/-- A dry run changes no file. -/
theorem files_of_dryRun : b.files = a.files := by
  induction h with
  | refl a => rfl
  | reject number fault _ ih => exact ih
  | put first _ ih =>
    obtain ⟨hfiles, -⟩ | ⟨hwet, -⟩ := (row_cases first).2.2
    · exact ih.trans hfiles
    · rw [hdry] at hwet
      cases hwet

/-- A dry run counts each part whose file is not there. -/
theorem created_of_dryRun :
    b.stats.created = a.stats.created + (p.newPlaces a.files parts).length := by
  induction h with
  | refl a => rfl
  | reject number fault _ ih => exact ih
  | @put a next b q parts first rest ih =>
    have hfiles : next.files = a.files :=
      (rest.files_of_dryRun hdry).symm.trans ((Advances.put first rest).files_of_dryRun hdry)
    rw [ih, hfiles, created_of_row first]
    cases hthere : a.files.contains (p.partPath q.id) with
    | true => rw [Project.newPlaces_cons_of_contains hthere]; rfl
    | false =>
      rw [Project.newPlaces_cons_of_not_contains hthere, List.length_cons]
      simp only [Bool.false_eq_true, if_false]
      omega

end Dry

section Wet

variable (hwet : options.dryRun = false)
include hwet

/-- An import that writes counts each place once where a file comes to be. -/
theorem created_of_not_dryRun :
    b.stats.created = a.stats.created + (p.newPlaces a.files parts).toFinset.card := by
  induction h with
  | refl a => rfl
  | reject number fault _ ih => exact ih
  | @put a next b q parts first rest ih =>
    rw [ih, created_of_row first]
    cases hthere : a.files.contains (p.partPath q.id) with
    | true =>
      rw [Project.newPlaces_cons_of_contains hthere]
      obtain ⟨hsame, -⟩ | ⟨-, -, hwrite⟩ := (row_cases first).2.2
      · rw [hsame]
        rfl
      · rw [Project.newPlaces_of_contains hwrite hthere]
        rfl
    | false =>
      -- for the parts that follow this place is not new any more
      rw [Project.newPlaces_of_writeWithin (writeWithin_of_row first hwet hthere),
        Project.newPlaces_cons_of_not_contains hthere, card_toFinset_cons]
      simp only [Bool.false_eq_true, if_false]
      omega

/-- After an import that writes there is a file in the place of each part. -/
theorem isSome_content? {r : Part} (hr : r ∈ parts)
    (hnew : a.files.contains (p.partPath r.id) = false) :
    (b.files.content? (p.partPath r.id)).isSome = true := by
  induction h with
  | refl a => exact absurd hr List.not_mem_nil
  | reject number fault _ ih => exact ih hr hnew
  | @put a next b q parts first rest ih =>
    by_cases hplace : p.partPath r.id = p.partPath q.id
    · rw [hplace] at hnew ⊢
      have hwritten := FileTree.content?_writeWithin_self (writeWithin_of_row first hwet hnew)
      obtain hkept | ⟨content, -, hput⟩ := rest.grows.content? (p.partPath q.id)
      · rw [hkept, hwritten]
        rfl
      · rw [hput]
        rfl
    · have hmem : r ∈ parts := (List.mem_cons.mp hr).resolve_left fun hrq ↦ hplace (hrq ▸ rfl)
      refine ih hmem ?_
      rw [FileTree.contains, entry?_of_row first hplace]
      exact hnew

/-- Of parts with one place, where nothing stood, the first one is kept unless the import is
forced. -/
private theorem content?_partPath (hforce : options.force = false) {id : String}
    (hnew : a.files.contains (p.partPath id) = false) :
    b.files.content? (p.partPath id) =
      (p.firstAt? (p.partPath id) parts).map Part.fileContent := by
  induction h with
  | refl a =>
    rw [FileTree.content?_eq_none hnew]
    rfl
  | reject number fault _ ih => exact ih hnew
  | @put a next b q parts first rest ih =>
    by_cases hplace : p.partPath q.id = p.partPath id
    · have hwrite := writeWithin_of_row first hwet (hplace ▸ hnew)
      -- once it is written, the file is one that is there
      have hkept := rest.entry?_of_contains hforce (Project.contains_partPath_self hwrite)
      rw [← hplace, Project.firstAt?_cons_self, FileTree.content?, hkept]
      exact FileTree.content?_writeWithin_self hwrite
    · rw [Project.firstAt?_cons_of_ne hplace]
      refine ih ?_
      rw [FileTree.contains, entry?_of_row first (Ne.symm hplace)]
      exact hnew

/-- Where nothing stood there is the file of the first part with this place, unless the import is
forced. -/
theorem content?_of_not_contains (hforce : options.force = false) {path : Path}
    (hnew : a.files.contains path = false) :
    b.files.content? path = (p.firstAt? path parts).map Part.fileContent := by
  cases hfirst : p.firstAt? path parts with
  | some q =>
    obtain rfl := Project.partPath_of_firstAt? hfirst
    rw [h.content?_partPath hwet hforce hnew, hfirst]
  | none =>
    obtain hkept | ⟨content, ⟨⟨q, hq, hpath, -⟩, -⟩, -⟩ := h.grows.content? path
    · rw [hkept, FileTree.content?_eq_none hnew]
      rfl
    · exact absurd (beq_iff_eq.mpr hpath) (List.find?_eq_none.mp hfirst q hq)

end Wet

end Advances

end ImportProgress

end PipingAssembly
