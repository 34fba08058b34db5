import PipingAssembly.Import.Basic
import PipingAssembly.Proofs.Files.Places
import PipingAssembly.Proofs.Import.Rows
import PipingAssembly.Proofs.Run.Loading
import PipingAssembly.Proofs.Text.Encoding

/-!
# What a forced import leaves in a catalog

A forced import writes every part to the file that its id names. Different ids may name one file, as
characters that are awkward in file names all become an underscore, and then the last part that was
written is the one the file declares.
-/

namespace PipingAssembly

/-! ### Declarations of a project -/

namespace Project

variable {p : Project} {files : Files} {id : String} {path : Path}

/-- Whether a file at a place is looked at for a part of a project. -/
def IsPartPlace (p : Project) (path : Path) : Prop :=
  p.partsDir <+: path ∧ path.getLast?.any isYamlName = true

theorem mem_yamlFiles_iff_isPartPlace {q : Part} (h : declaredPart? files path = some q) :
    path ∈ files.yamlFiles p.partsDir ↔ p.IsPartPlace path := by
  constructor
  · intro hpath
    exact ⟨FileTree.prefix_of_mem_yamlFiles hpath, (FileTree.mem_yamlFiles.mp hpath).2.1⟩
  · rintro ⟨hbelow, hname⟩
    obtain ⟨v, hv, -⟩ := Option.bind_eq_some_iff.mp h
    obtain ⟨s, hs, -⟩ := Option.bind_eq_some_iff.mp hv
    obtain ⟨content, hcontent, -⟩ := Option.bind_eq_some_iff.mp hs
    exact FileTree.mem_yamlFiles_of_content? hbelow hname hcontent

/-- A project has a part with an id if and only if one of its files declares one. -/
theorem exists_mem_allParts_iff :
    (∃ q ∈ p.allParts files, q.id = id) ↔
      ∃ path, p.IsPartPlace path ∧ ∃ q, declaredPart? files path = some q ∧ q.id = id := by
  let declares : Path → Bool := fun path ↦ (declaredPart? files path).any (·.id == id)
  have hdeclares : ∀ path, declares path = true ↔
      ∃ q, declaredPart? files path = some q ∧ q.id = id := by
    intro path
    simp only [declares, Option.any_eq_true, beq_iff_eq]
  constructor
  · rintro ⟨q, hq, rfl⟩
    obtain ⟨path, hfound, hdeclared⟩ := Option.bind_eq_some_iff.mp (mem_allParts_iff.mp hq)
    exact ⟨path, (mem_yamlFiles_iff_isPartPlace hdeclared).mp (List.mem_of_find?_eq_some hfound), q,
      hdeclared, rfl⟩
  · rintro ⟨path, hplace, q, hdeclared, hid⟩
    have hfound : ((files.yamlFiles p.partsDir).find? declares).isSome = true :=
      List.find?_isSome.mpr ⟨path, (mem_yamlFiles_iff_isPartPlace hdeclared).mpr hplace,
        (hdeclares path).mpr ⟨q, hdeclared, hid⟩⟩
    obtain ⟨first, hfirst⟩ := Option.isSome_iff_exists.mp hfound
    obtain ⟨r, hr, rfl⟩ := (hdeclares first).mp (List.find?_some (p := declares) hfirst)
    exact ⟨r, mem_allParts_iff.mpr (Option.bind_eq_some_iff.mpr ⟨first, hfirst, hr⟩), rfl⟩

/-! ### Files of parts -/

theorem partPath_eq_iff {id' : String} :
    p.partPath id = p.partPath id' ↔ fileStem id = fileStem id' := by
  rw [partPath, partPath, List.append_cancel_left_eq, List.singleton_inj, String.append_left_inj]

theorem fileStem_ne_empty (h : id ≠ "") : fileStem id ≠ "" := by
  intro hempty
  rw [fileStem, ← String.toList_eq_nil_iff, String.toList_map, List.map_eq_nil_iff,
    String.toList_eq_nil_iff] at hempty
  exact h hempty

theorem isPartPlace_partPath (h : id ≠ "") : p.IsPartPlace (p.partPath id) := by
  refine ⟨List.prefix_append _ _, ?_⟩
  rw [partPath, List.getLast?_concat]
  exact isYamlName_append (fileStem_ne_empty h)

end Project

/-! ### Imports -/

/-- The last of some parts whose file has a place. -/
def Project.lastAt? (p : Project) (path : Path) (parts : List Part) : Option Part :=
  (parts.filter fun q ↦ p.partPath q.id == path).getLast?

theorem Project.lastAt?_cons_self (p : Project) (q : Part) (parts : List Part) :
    p.lastAt? (p.partPath q.id) (q :: parts) =
      some ((p.lastAt? (p.partPath q.id) parts).getD q) := by
  let isThere : Part → Bool := fun r ↦ p.partPath r.id == p.partPath q.id
  have hself : isThere q = true := beq_self_eq_true (p.partPath q.id)
  rw [lastAt?, List.filter_cons_of_pos (p := isThere) hself, List.getLast?_cons, lastAt?]

theorem Project.mem_of_lastAt? {p : Project} {path : Path} {parts : List Part} {q : Part}
    (h : p.lastAt? path parts = some q) : q ∈ parts ∧ p.partPath q.id = path := by
  obtain ⟨hq, hpath⟩ := List.mem_filter.mp (List.mem_of_getLast? h)
  exact ⟨hq, eq_of_beq hpath⟩

/-- A part whose file is no other one's is the last one with its place. -/
theorem Project.lastAt?_of_nodup (p : Project) {parts : List Part}
    (h : (parts.map (fileStem ·.id)).Nodup) {q : Part} (hq : q ∈ parts) :
    p.lastAt? (p.partPath q.id) parts = some q := by
  have hpaths : (parts.map (p.partPath ·.id)).Nodup := by
    rw [List.Nodup, List.pairwise_map] at h ⊢
    exact h.imp fun hne heq ↦ hne (partPath_eq_iff.mp heq)
  rw [lastAt?, filter_key_eq_singleton hpaths hq]
  rfl

theorem Project.lastAt?_cons_of_ne {p : Project} {path : Path} {q : Part}
    (h : p.partPath q.id ≠ path) (parts : List Part) :
    p.lastAt? path (q :: parts) = p.lastAt? path parts := by
  rw [lastAt?, List.filter_cons_of_neg (by simpa using h), lastAt?]

/-- The content of the file of a part. -/
def Part.fileContent (q : Part) : FileContent := .text (Yaml.render q.toValue)

section Forced

variable {p : Project} {options : ImportOptions} (hforce : options.force = true)
  (hwrite : options.dryRun = false)
include hforce hwrite

/-- A forced import writes the file of a part whatever stands in its place. -/
theorem ImportProgress.writeWithin_of_put {progress progress' : ImportProgress} {q : Part}
    (h : progress.put p options q = .ok progress') :
    progress.files.writeWithin (p.partPath q.id) q.fileContent = .ok progress'.files := by
  rw [ImportProgress.put] at h
  simp only [hforce, hwrite, Bool.not_true, Bool.and_false, Bool.false_eq_true, if_false] at h
  obtain ⟨files, hfiles, h⟩ := bind_eq_ok_iff.mp h
  obtain rfl := Except.ok.inj h
  rw [Part.fileContent, hfiles, ImportProgress.countWritten]
  split <;> rfl

/-- After the records of some parts every file has the content of the last part with its place, and
other files are as before. -/
theorem content?_importRecords {columns : Columns} {progress progress' : ImportProgress}
    {records : List Delimited.Record} {parts : List Part}
    (hparts : records.mapM (partOfRecord columns) = .ok parts)
    (h : importRecords p options columns progress records = (progress', none)) (path : Path) :
    progress'.files.content? path =
      ((p.lastAt? path parts).map Part.fileContent).or (progress.files.content? path) := by
  rw [mapM_eq_ok_iff] at hparts
  induction hparts generalizing progress with
  | nil =>
    rw [importRecords, Prod.mk.injEq] at h
    rw [← h.1]
    rfl
  | @cons r q records parts hpart _ ih =>
    rw [importRecords] at h
    simp only [hpart] at h
    cases hput : progress.countRow.put p options q with
    | error fault =>
      rw [hput] at h
      cases h
    | ok next =>
      rw [hput] at h
      have hwritten := ImportProgress.writeWithin_of_put hforce hwrite hput
      have hprogress : progress.countRow.files = progress.files := rfl
      rw [hprogress] at hwritten
      rw [ih h]
      by_cases hpath : p.partPath q.id = path
      · subst hpath
        rw [p.lastAt?_cons_self, FileTree.content?_writeWithin_self hwritten]
        cases p.lastAt? (p.partPath q.id) parts <;> rfl
      · rw [Project.lastAt?_cons_of_ne hpath,
          FileTree.content?_writeWithin_of_ne hwritten (Ne.symm hpath)]

/-- The parts of a text of comma separated values, if it has a header and all its records are
parts. -/
def partsOfText? (bs : List UInt8) : Option (List Part) := do
  let records := Delimited.read bs
  let header ← (← records.head?).header.toOption
  (records.tail.mapM (partOfRecord (Columns.ofHeader header))).toOption

/-- A forced import that ends well leaves every file with the content of the last part with its
place, and all other files as they were. -/
theorem content?_importParts {files : Files} {bs : List UInt8} {parts : List Part}
    {progress : ImportProgress} (hparts : partsOfText? bs = some parts)
    (h : importParts p options files bs = (progress, none)) (path : Path) :
    progress.files.content? path =
      ((p.lastAt? path parts).map Part.fileContent).or (files.content? path) := by
  simp only [partsOfText?, Option.bind_eq_bind, Option.bind_eq_some_iff,
    toOption_eq_some_iff] at hparts
  obtain ⟨r, hhead, header, hheader, hrecords⟩ := hparts
  rw [importParts, hhead, Option.map_some, Option.getD_some, hheader] at h
  dsimp only at h
  split at h
  case isTrue => cases h
  case isFalse => exact content?_importRecords hforce hwrite hrecords h path

end Forced

/-- The parts of a text are read from its rows. -/
theorem isOfRow_of_mem_partsOfText? {bs : List UInt8} {parts : List Part}
    (h : partsOfText? bs = some parts) {q : Part} (hq : q ∈ parts) : q.IsOfRow := by
  simp only [partsOfText?, Option.bind_eq_bind, Option.bind_eq_some_iff,
    toOption_eq_some_iff] at h
  obtain ⟨_, -, header, -, hrecords⟩ := h
  generalize (Delimited.read bs).tail = records at hrecords
  rw [mapM_eq_ok_iff] at hrecords
  induction hrecords with
  | nil => exact absurd hq List.not_mem_nil
  | cons hpart _ ih =>
    obtain rfl | hq := List.mem_cons.mp hq
    · exact Part.isOfRow hpart
    · exact ih hq

/-- The file that is written for a part of a row declares the part. -/
theorem declaredPart?_of_fileContent {files : Files} {path : Path} {q : Part} (hq : q.IsOfRow)
    (h : files.content? path = some q.fileContent) : declaredPart? files path = some q := by
  have htext : q.fileContent.text? = some (Yaml.render q.toValue) := Text.decode?_encode _
  rw [declaredPart?, recordAt?, h, Option.bind_some, htext, Option.bind_some]
  exact Part.readRecord?_render hq

/-- After a forced import that ends well every file declares the last part with its place, and all
other files declare what they did. -/
theorem declaredPart?_importParts {p : Project} {options : ImportOptions} {files : Files}
    {bs : List UInt8} {parts : List Part} {progress : ImportProgress}
    (hforce : options.force = true) (hwrite : options.dryRun = false)
    (hparts : partsOfText? bs = some parts)
    (h : importParts p options files bs = (progress, none)) (path : Path) :
    declaredPart? progress.files path = (p.lastAt? path parts).or (declaredPart? files path) := by
  have hcontent := content?_importParts hforce hwrite hparts h path
  cases hlast : p.lastAt? path parts with
  | none =>
    rw [hlast, Option.map_none, Option.none_or] at hcontent
    rw [declaredPart?, recordAt?, hcontent, Option.none_or]
    rfl
  | some q =>
    rw [hlast, Option.map_some, Option.some_or] at hcontent
    have hrow := isOfRow_of_mem_partsOfText? hparts (Project.mem_of_lastAt? hlast).1
    exact declaredPart?_of_fileContent hrow hcontent

/-- After a forced import that ended well a project has a part with an id if and only if the last
part that was written to the file of the id has the id, or a file that was not written declares one.
So every part is there whose file is no other part's. -/
theorem exists_mem_allParts_importParts {p : Project} {options : ImportOptions} {files : Files}
    {bs : List UInt8} {parts : List Part} {progress : ImportProgress}
    (hforce : options.force = true) (hwrite : options.dryRun = false)
    (hparts : partsOfText? bs = some parts)
    (h : importParts p options files bs = (progress, none)) :
    (∀ id, (∃ q ∈ p.allParts progress.files, q.id = id) ↔
      (∃ q, p.lastAt? (p.partPath id) parts = some q ∧ q.id = id) ∨
        ∃ path ∈ files.yamlFiles p.partsDir, p.lastAt? path parts = none ∧
          ∃ q, declaredPart? files path = some q ∧ q.id = id) ∧
    ((parts.map (fileStem ·.id)).Nodup →
      ∀ q ∈ parts, ∃ r ∈ p.allParts progress.files, r.id = q.id) := by
  have hdeclared := declaredPart?_importParts hforce hwrite hparts h
  have hthere : ∀ id, (∃ q ∈ p.allParts progress.files, q.id = id) ↔
      (∃ q, p.lastAt? (p.partPath id) parts = some q ∧ q.id = id) ∨
        ∃ path ∈ files.yamlFiles p.partsDir, p.lastAt? path parts = none ∧
          ∃ q, declaredPart? files path = some q ∧ q.id = id := by
    intro id
    rw [Project.exists_mem_allParts_iff]
    constructor
    · rintro ⟨path, hplace, q, hq, rfl⟩
      rw [hdeclared] at hq
      cases hlast : p.lastAt? path parts with
      | none =>
        rw [hlast, Option.none_or] at hq
        have hpath := (Project.mem_yamlFiles_iff_isPartPlace hq).mpr hplace
        exact Or.inr ⟨path, hpath, hlast, q, hq, rfl⟩
      | some r =>
        rw [hlast, Option.some_or] at hq
        obtain rfl := Option.some.inj hq
        obtain ⟨-, rfl⟩ := Project.mem_of_lastAt? hlast
        exact Or.inl ⟨r, hlast, rfl⟩
    · rintro (⟨q, hlast, rfl⟩ | ⟨path, hpath, hlast, q, hq, rfl⟩)
      · have hrow := isOfRow_of_mem_partsOfText? hparts (Project.mem_of_lastAt? hlast).1
        refine ⟨p.partPath q.id, Project.isPartPlace_partPath hrow.id.1, q, ?_, rfl⟩
        rw [hdeclared, hlast, Option.some_or]
      · refine ⟨path, (Project.mem_yamlFiles_iff_isPartPlace hq).mp hpath, q, ?_, rfl⟩
        rw [hdeclared, hlast, Option.none_or, hq]
  refine ⟨hthere, fun hstems q hq ↦ ?_⟩
  exact (hthere q.id).mpr (Or.inl ⟨q, p.lastAt?_of_nodup hstems hq, rfl⟩)

/-- Two parts whose ids name one file. -/
private def slash : Part := { id := "A/B", family := .pipe }
@[inherit_doc slash] private def colon : Part := { id := "A:B", family := .valve }

private def sharedText : List UInt8 := Text.encode "part_id,family\nA/B,pipe\nA:B,valve\n"

/-- A forced import of both into an empty project leaves the second one only. -/
theorem exists_mem_allParts_importParts_shared :
    ∃ progress, importParts ⟨[]⟩ { force := true } ⟨[]⟩ sharedText = (progress, none) ∧
      (∃ q ∈ (Project.mk []).allParts progress.files, q.id = "A:B") ∧
      ¬ ∃ q ∈ (Project.mk []).allParts progress.files, q.id = "A/B" := by
  have hparts : partsOfText? sharedText = some [slash, colon] := by decide +kernel
  have himport : importParts ⟨[]⟩ { force := true } ⟨[]⟩ sharedText =
      ((importParts ⟨[]⟩ { force := true } ⟨[]⟩ sharedText).1, none) :=
    Prod.ext rfl (show (importParts _ _ _ _).2 = none by decide +kernel)
  have hthere := (exists_mem_allParts_importParts rfl rfl hparts himport).1
  have hplace : (Project.mk []).partPath slash.id = (Project.mk []).partPath colon.id := by
    decide +kernel
  have hlast : (Project.mk []).lastAt? ((Project.mk []).partPath colon.id) [slash, colon] =
      some colon := by
    have hslash := (Project.mk []).lastAt?_cons_self slash [colon]
    rw [hplace, Project.lastAt?_cons_self, Option.getD_some] at hslash
    exact hslash
  refine ⟨_, himport, (hthere "A:B").mpr (Or.inl ⟨colon, hlast, rfl⟩), ?_⟩
  rw [hthere]
  rintro (⟨q, hq, hid⟩ | ⟨path, hpath, -⟩)
  · rw [show "A/B" = slash.id from rfl, hplace, hlast] at hq
    obtain rfl := Option.some.inj hq
    exact absurd hid (by decide)
  · have hnone : FileTree.yamlFiles (⟨[]⟩ : Files) (Project.mk []).partsDir = [] := by decide
    rw [hnone] at hpath
    exact absurd hpath List.not_mem_nil

end PipingAssembly
