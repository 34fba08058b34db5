import PipingAssembly.Proofs.Files.Paths
import PipingAssembly.Proofs.Files.Trees
import PipingAssembly.Store.Basic

/-!
# Records of a project as a function of its record files

Which parts and rules a project has is determined by the paths and the bytes of its record files,
which are what the fingerprint of a catalog is taken of. A change of the tree outside of the
directories of records changes none of them.
-/

namespace PipingAssembly

/-! ### Records of files -/

/-- The record value of the file at a place, if its bytes are a document. -/
def recordAt? (files : Files) (p : Path) : Option Value :=
  ((files.content? p).bind (·.text?)).bind Yaml.readRecord?

theorem loadAll_fst {α : Type} (read : Value → Option α) (files : Files) (place : Path) :
    (loadAll read files place).1 =
      (files.yamlFiles place).filterMap fun p ↦ (recordAt? files p).bind read := by
  simp only [loadAll, List.filterMap_map]
  rfl

theorem mem_loadAll_snd {α : Type} {read : Value → Option α} {files : Files} {place p : Path} :
    p ∈ (loadAll read files place).2 ↔
      p ∈ files.yamlFiles place ∧ (recordAt? files p).bind read = none := by
  simp only [loadAll, List.mem_map, List.mem_filter, Option.isNone_iff_eq_none]
  constructor
  · rintro ⟨_, ⟨⟨q, hq, rfl⟩, hnone⟩, rfl⟩
    exact ⟨hq, hnone⟩
  · rintro ⟨hp, hnone⟩
    exact ⟨_, ⟨⟨p, hp, rfl⟩, hnone⟩, rfl⟩

/-! ### Records of sources -/

/-- The file at a place as a source. -/
def sourceAt (files : Files) (path : Path) : SourceFile :=
  ⟨path.text, ((files.content? path).map (·.toBytes)).getD []⟩

/-- The records that sources hold, in order. -/
def recordsIn {α : Type} (read : Value → Option α) (sources : List SourceFile) : List α :=
  sources.filterMap fun f ↦ ((Text.decode? f.content).bind Yaml.readRecord?).bind read

private theorem decode?_nil : Text.decode? [] = some "" := by with_unfolding_all rfl

private theorem readRecord?_empty : Yaml.readRecord? "" = some (.plain "") := by
  with_unfolding_all rfl

/-- The records below a place are those of its sources, as an empty file is no record. -/
theorem loadAll_eq_recordsIn {α : Type} {read : Value → Option α} (hread : read (.plain "") = none)
    (files : Files) (place : Path) :
    (loadAll read files place).1 =
      recordsIn read ((files.yamlFiles place).map (sourceAt files)) := by
  have hrecord : ∀ path, (((files.content? path).bind (·.text?)).bind Yaml.readRecord?).bind read =
      ((Text.decode? (sourceAt files path).content).bind Yaml.readRecord?).bind read := by
    intro path
    rw [sourceAt]
    cases files.content? path with
    | none =>
      simp only [Option.map_none, Option.getD_none, decode?_nil, Option.bind_some,
        readRecord?_empty, hread, Option.bind_none]
    | some content => rfl
  simp only [loadAll, recordsIn, List.filterMap_map, Function.comp_def, hrecord]

namespace Project

/-- Whether a source is below the directory of parts. -/
def isPartSource (p : Project) (f : SourceFile) : Bool :=
  p.partsDir.text.toList.isPrefixOf f.path.toList

/-- The parts of sources, as a store gives them. -/
def partsOf (p : Project) (sources : List SourceFile) : List Part :=
  sortParts (firstOfEach (·.id) (recordsIn Part.ofValue? (sources.filter p.isPartSource)))

/-- The rules of sources, as a store gives them. -/
def rulesOf (p : Project) (sources : List SourceFile) : List Rule :=
  sortRules (firstOfEach (·.id)
    (recordsIn Rule.ofValue? (sources.filter fun f ↦ !p.isPartSource f)))

/-- The directories of records have the same text but for their last names. -/
private theorem exists_text_recordDirs (p : Project) : ∃ catalog : String,
    p.partsDir.text = catalog ++ "/parts" ∧ p.rulesDir.text = catalog ++ "/rules" := by
  have hdir : p.root ++ ["catalog"] ≠ [] := List.append_ne_nil_of_right_ne_nil _ (by decide)
  refine ⟨(p.root ++ ["catalog"]).text, ?_, ?_⟩
  · rw [partsDir, List.append_cons, Path.text_append hdir (by decide), String.append_assoc]
    rfl
  · rw [rulesDir, List.append_cons, Path.text_append hdir (by decide), String.append_assoc]
    rfl

theorem isPartSource_of_mem_parts {p : Project} {files : Files} {path : Path}
    (h : path ∈ files.yamlFiles p.partsDir) : p.isPartSource (sourceAt files path) = true := by
  obtain ⟨rest, rfl⟩ := FileTree.prefix_of_mem_yamlFiles h
  exact List.isPrefixOf_iff_prefix.mpr (Path.toList_text_prefix _ rest)

theorem isPartSource_of_mem_rules {p : Project} {files : Files} {path : Path}
    (h : path ∈ files.yamlFiles p.rulesDir) : p.isPartSource (sourceAt files path) = false := by
  obtain ⟨rest, rfl⟩ := FileTree.prefix_of_mem_yamlFiles h
  obtain ⟨catalog, hparts, hrules⟩ := p.exists_text_recordDirs
  obtain ⟨more, hmore⟩ := Path.toList_text_prefix p.rulesDir rest
  rw [Bool.eq_false_iff]
  intro hprefix
  have hfalse := List.isPrefixOf_iff_prefix.mp hprefix
  rw [sourceAt, ← hmore, hparts, hrules, String.toList_append, String.toList_append,
    List.append_assoc, List.prefix_append_right_inj] at hfalse
  obtain ⟨_, heq⟩ := hfalse
  exact absurd (List.cons.inj (List.cons.inj heq).2).1 (by decide)

theorem sources_eq (p : Project) (files : Files) :
    p.sources files = (files.yamlFiles p.partsDir).map (sourceAt files) ++
      (files.yamlFiles p.rulesDir).map (sourceAt files) := by
  rw [sources, sourceFiles, List.map_append]
  rfl

/-- The parts of a project are those of its sources. -/
theorem allParts_eq_partsOf (p : Project) (files : Files) :
    p.allParts files = p.partsOf (p.sources files) := by
  have hfilter : (p.sources files).filter p.isPartSource =
      (files.yamlFiles p.partsDir).map (sourceAt files) := by
    rw [sources_eq, List.filter_append, List.filter_eq_self.mpr, List.filter_eq_nil_iff.mpr,
      List.append_nil]
    · intro f hf
      obtain ⟨path, hpath, rfl⟩ := List.mem_map.mp hf
      rw [isPartSource_of_mem_rules hpath]
      exact Bool.false_ne_true
    · intro f hf
      obtain ⟨path, hpath, rfl⟩ := List.mem_map.mp hf
      exact isPartSource_of_mem_parts hpath
  rw [allParts, partsOf, hfilter, loadAll_eq_recordsIn rfl]

/-- The rules of a project are those of its sources. -/
theorem allRules_eq_rulesOf (p : Project) (files : Files) :
    p.allRules files = p.rulesOf (p.sources files) := by
  have hfilter : (p.sources files).filter (fun f ↦ !p.isPartSource f) =
      (files.yamlFiles p.rulesDir).map (sourceAt files) := by
    rw [sources_eq, List.filter_append, List.filter_eq_nil_iff.mpr, List.filter_eq_self.mpr,
      List.nil_append]
    · intro f hf
      obtain ⟨path, hpath, rfl⟩ := List.mem_map.mp hf
      rw [isPartSource_of_mem_rules hpath]
      rfl
    · intro f hf
      obtain ⟨path, hpath, rfl⟩ := List.mem_map.mp hf
      rw [isPartSource_of_mem_parts hpath]
      exact Bool.false_ne_true
  rw [allRules, rulesOf, hfilter, loadAll_eq_recordsIn rfl]

/-! ### Changes outside of the catalog -/

/-- An entry that is put outside of the directories of records leaves the sources as they are. -/
theorem sources_insert (p : Project) (files : Files) {q : Path} (hparts : ¬p.partsDir <+: q)
    (hrules : ¬p.rulesDir <+: q) (e : FileEntry FileContent) :
    p.sources (files.insert q e) = p.sources files := by
  have hsource : ∀ path ∈ files.yamlFiles p.partsDir ++ files.yamlFiles p.rulesDir,
      sourceAt (files.insert q e) path = sourceAt files path := by
    intro path hpath
    have hne : path ≠ q := by
      rintro rfl
      obtain hpath | hpath := List.mem_append.mp hpath
      · exact hparts (FileTree.prefix_of_mem_yamlFiles hpath)
      · exact hrules (FileTree.prefix_of_mem_yamlFiles hpath)
    rw [sourceAt, sourceAt, FileTree.content?, FileTree.content?,
      FileTree.entry?_insert_of_ne files hne]
  rw [sources_eq, sources_eq, FileTree.yamlFiles_insert files hparts,
    FileTree.yamlFiles_insert files hrules, ← List.map_append, ← List.map_append]
  exact List.map_congr_left hsource

private theorem not_recordDir_prefix (p : Project) {name : String} (hname : name ≠ "catalog")
    {place rest : Path} (hplace : place = p.partsDir ∨ place = p.rulesDir) {q : Path}
    (hq : q <+: p.root ++ name :: rest) : ¬place <+: q := by
  intro hprefix
  obtain ⟨last, rfl⟩ : ∃ last, place = p.root ++ ["catalog", last] := by
    obtain rfl | rfl := hplace
    · exact ⟨"parts", rfl⟩
    · exact ⟨"rules", rfl⟩
  have hcatalog := hprefix.trans hq
  rw [List.prefix_append_right_inj] at hcatalog
  obtain ⟨_, heq⟩ := hcatalog
  exact hname (List.cons.inj heq).1.symm

/-- Settings have no part in the sources of a project. -/
theorem sources_insert_settings (p : Project) (files : Files) (rest : Path) {q : Path}
    (hq : q <+: p.root ++ ".tasm" :: rest) (e : FileEntry FileContent) :
    p.sources (files.insert q e) = p.sources files :=
  p.sources_insert files (p.not_recordDir_prefix (by decide) (Or.inl rfl) hq)
    (p.not_recordDir_prefix (by decide) (Or.inr rfl) hq) e

end Project

end PipingAssembly
