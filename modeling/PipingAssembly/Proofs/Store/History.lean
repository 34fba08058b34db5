import PipingAssembly.Proofs.Store.Sources
import PipingAssembly.Proofs.Store.Tables

/-!
# Databases in step with the files of a project

A project lives through edits of its files, openings of its database and syncs, and its database may
be lost or replaced by one of another version. All along, a database that has a fingerprint holds
the records of sources with that fingerprint that it was once synced with. So after a sync its parts
are those of the files, as long as other sources do not have the same fingerprint.
-/

namespace PipingAssembly

/-! ### Opening and syncing -/

namespace Database

/-- Opening a database either keeps it or begins a new one. -/
theorem opened_eq_ok {d opened : Database} (h : d.opened = .ok opened) :
    opened.version = currentVersion ∧ (opened = {} ∨ opened = d) := by
  rw [Database.opened] at h
  split at h
  · cases h
  · split at h
    case isTrue hversion =>
      obtain rfl := Except.ok.inj h
      exact ⟨hversion, Or.inr rfl⟩
    case isFalse =>
      obtain rfl := Except.ok.inj h
      exact ⟨rfl, Or.inl rfl⟩

/-- Whether the tables of a database with a fingerprint hold the records of sources with that
fingerprint, among those that were seen. -/
def Reflects (d : Database) (p : Project) (seen : List (List SourceFile)) : Prop :=
  ∀ fp, d.fingerprint = some fp →
    ∃ s ∈ seen, catalogFingerprint s = fp ∧ d.Mirrors (p.partsOf s) (p.rulesOf s)

theorem reflects_new (p : Project) (seen : List (List SourceFile)) :
    Reflects ({} : Database) p seen :=
  nofun

theorem nodup_partsOf (p : Project) (sources : List SourceFile) :
    (((p.partsOf sources).map PartRow.of).map PartRow.id).Nodup := by
  rw [List.map_map]
  exact ((List.mergeSort_perm _ _).map _).nodup_iff.mpr (nodup_firstOfEach Part.id _)

theorem nodup_rulesOf (p : Project) (sources : List SourceFile) :
    (((p.rulesOf sources).map RuleRow.of).map RuleRow.id).Nodup := by
  rw [List.map_map]
  exact ((List.mergeSort_perm _ _).map _).nodup_iff.mpr (nodup_firstOfEach Rule.id _)

section Sync

variable {d synced : Database} {p : Project} {sources : List SourceFile} {now : String}
  {stats : SyncStats}
  (hsync : d.sync sources (p.partsOf sources) (p.rulesOf sources) now = (synced, stats))
include hsync

/-- A sync with sources keeps a database that has their fingerprint, and rebuilds any other one from
their records. -/
theorem sync_cases :
    (d.fingerprint = some (catalogFingerprint sources) ∧ synced = d ∧
      stats = ⟨false, sources.length, synced.parts.length, synced.rules.length⟩) ∨
    (d.fingerprint ≠ some (catalogFingerprint sources) ∧ synced.version = d.version ∧
      synced.fingerprint = some (catalogFingerprint sources) ∧
      synced.Mirrors (p.partsOf sources) (p.rulesOf sources) ∧
      stats = ⟨true, sources.length, synced.parts.length, synced.rules.length⟩) := by
  by_cases hcurrent : d.fingerprint = some (catalogFingerprint sources)
  · rw [sync, if_pos hcurrent] at hsync
    obtain ⟨rfl, rfl⟩ := Prod.mk.inj hsync
    exact Or.inl ⟨hcurrent, rfl, rfl⟩
  · have hparts := foldl_putRow PartRow.id [] (nodup_partsOf p sources)
    have hrules := foldl_putRow RuleRow.id [] (nodup_rulesOf p sources)
    rw [List.nil_append] at hparts hrules
    rw [sync, if_neg hcurrent, hparts, hrules] at hsync
    obtain ⟨rfl, rfl⟩ := Prod.mk.inj hsync
    refine Or.inr ⟨hcurrent, rfl, rfl, ⟨rfl, rfl⟩, ?_⟩
    rw [List.length_map, List.length_map]

/-- A sync adds its sources to those that a database reflects. -/
theorem Reflects.sync {seen : List (List SourceFile)} (h : d.Reflects p seen) :
    synced.Reflects p (sources :: seen) := by
  intro fp hfp
  obtain ⟨-, rfl, -⟩ | ⟨-, -, hrebuilt, hmirrors, -⟩ := sync_cases hsync
  · obtain ⟨s, hs, heq, hmirrors⟩ := h fp hfp
    exact ⟨s, List.mem_cons_of_mem sources hs, heq, hmirrors⟩
  · exact ⟨sources, List.mem_cons_self, Option.some.inj (hrebuilt.symm.trans hfp), hmirrors⟩

/-- After a sync the tables hold the records of the sources, unless other sources with their
fingerprint were seen. -/
theorem Reflects.mirrors_sync {seen : List (List SourceFile)} (h : d.Reflects p seen)
    (hdistinct : ∀ s ∈ seen, catalogFingerprint s = catalogFingerprint sources → s = sources) :
    synced.Mirrors (p.partsOf sources) (p.rulesOf sources) := by
  obtain ⟨hcurrent, rfl, -⟩ | ⟨-, -, -, hmirrors, -⟩ := sync_cases hsync
  · obtain ⟨s, hs, heq, hmirrors⟩ := h _ hcurrent
    rw [hdistinct s hs heq] at hmirrors
    exact hmirrors
  · exact hmirrors

/-- After a sync that rebuilds the tables, they hold the records of the sources. -/
theorem mirrors_of_rebuilt (h : stats.rebuilt = true) :
    synced.Mirrors (p.partsOf sources) (p.rulesOf sources) := by
  obtain ⟨-, -, rfl⟩ | ⟨-, -, -, hmirrors, -⟩ := sync_cases hsync
  · cases h
  · exact hmirrors

/-- The counts of a sync are those of the tables after it. -/
theorem counts_sync : stats.parts = synced.parts.length ∧ stats.rules = synced.rules.length := by
  obtain ⟨-, -, rfl⟩ | ⟨-, -, -, -, rfl⟩ := sync_cases hsync
  · exact ⟨rfl, rfl⟩
  · exact ⟨rfl, rfl⟩

end Sync

end Database

/-! ### The database among the files -/

namespace Project

/-- The metadata of parts that were read are in key order. -/
theorem keysRise_partsOf (p : Project) (sources : List SourceFile) :
    ∀ q ∈ p.partsOf sources, KeysRise q.metadata := by
  intro q hq
  have hread := mem_of_mem_firstOfEach _ (List.mem_mergeSort.mp hq)
  obtain ⟨f, -, hf⟩ := List.mem_filterMap.mp hread
  obtain ⟨v, -, hv⟩ := Option.bind_eq_some_iff.mp hf
  exact Part.keysRise_of_ofValue? hv

theorem databasePath_ne_nil (p : Project) : p.databasePath ≠ [] :=
  List.append_ne_nil_of_right_ne_nil _ (List.cons_ne_nil _ _)

private theorem databasePath_eq (p : Project) :
    p.databasePath = p.root ++ ".tasm" :: ["catalog.db"] :=
  List.append_assoc ..

/-- The files with a database in its place. -/
private theorem entry?_insert_database (p : Project) (files : Files) (d : Database) :
    FileTree.entry? (files.insert p.databasePath (.file (.database d))) p.databasePath =
        some (.file (.database d)) ∧
      p.sources (files.insert p.databasePath (.file (.database d))) = p.sources files := by
  refine ⟨FileTree.entry?_insert_self files p.databasePath_ne_nil _, ?_⟩
  have hbelow : p.databasePath <+: p.root ++ ".tasm" :: ["catalog.db"] :=
    ⟨[], by rw [databasePath_eq, List.append_nil]⟩
  exact p.sources_insert_settings files _ hbelow _

/-- Making the directory of settings changes neither the sources nor the database. -/
private theorem createDirectories_settings {p : Project} {files made : Files}
    (h : files.createDirectories p.settingsDir = .ok made) :
    p.sources made = p.sources files ∧
      made.entry? p.databasePath = files.entry? p.databasePath := by
  apply FileTree.createFrom_induction (P := fun t ↦ p.sources t = p.sources files ∧
    t.entry? p.databasePath = files.entry? p.databasePath) _ ⟨rfl, rfl⟩ h
  rintro t q hq - ⟨hsources, hentry⟩
  have hne : p.databasePath ≠ q := by
    rintro rfl
    have hlength := hq.length_le
    simp [databasePath, settingsDir] at hlength
  rw [List.nil_append] at hq
  rw [p.sources_insert_settings t [] hq, FileTree.entry?_insert_of_ne t hne]
  exact ⟨hsources, hentry⟩

/-- The stored database is of the current version, and it is new or stands among the files. -/
private theorem storedDatabase_eq_ok {p : Project} {files : Files} {d : Database}
    (h : p.storedDatabase files = .ok d) :
    d.version = Database.currentVersion ∧
      (d = {} ∨ files.entry? p.databasePath = some (.file (.database d))) := by
  rw [storedDatabase] at h
  split at h
  case h_1 =>
    obtain rfl := Except.ok.inj h
    exact ⟨rfl, Or.inl rfl⟩
  case h_2 =>
    obtain rfl := Except.ok.inj h
    exact ⟨rfl, Or.inl rfl⟩
  case h_3 stored hstored =>
    obtain ⟨hversion, rfl | rfl⟩ := Database.opened_eq_ok h
    · exact ⟨hversion, Or.inl rfl⟩
    · exact ⟨hversion, Or.inr hstored⟩
  case h_4 => cases h

/-- An opened database stands among the files, whose sources are the same, and it is new or stood
there before. -/
theorem openDatabase_eq_ok {p : Project} {files files' : Files} {d : Database}
    (h : p.openDatabase files = .ok (d, files')) :
    p.sources files' = p.sources files ∧
      files'.entry? p.databasePath = some (.file (.database d)) ∧
      d.version = Database.currentVersion ∧
      (d = {} ∨ files.entry? p.databasePath = some (.file (.database d))) := by
  rw [openDatabase] at h
  obtain ⟨made, hmade, h⟩ := bind_eq_ok_iff.mp h
  obtain ⟨stored, hstored, h⟩ := bind_eq_ok_iff.mp h
  obtain ⟨rfl, rfl⟩ := Prod.mk.inj (Except.ok.inj h)
  obtain ⟨hsources, hentry⟩ := createDirectories_settings (mapError_eq_ok_iff.mp hmade)
  obtain ⟨hversion, hd⟩ := storedDatabase_eq_ok hstored
  obtain ⟨hself, hsources'⟩ := p.entry?_insert_database made stored
  exact ⟨hsources'.trans hsources, hself, hversion, hentry ▸ hd⟩

/-- What holds of a new database and of one in use holds of the one that is opened. -/
theorem opened_of_stored {p : Project} {files files' : Files} {d : Database} {P : Database → Prop}
    (hnew : P {}) (hstored : ∀ d, files.entry? p.databasePath = some (.file (.database d)) →
      d.version = Database.currentVersion → P d)
    (hopen : p.openDatabase files = .ok (d, files')) : P d := by
  obtain ⟨-, -, hversion, rfl | hd⟩ := openDatabase_eq_ok hopen
  · exact hnew
  · exact hstored d hd hversion

/-- A sync opens the database and brings it up to date with the sources, which stay the same. -/
theorem syncDatabase_eq_ok {p : Project} {files files' : Files} {now : String} {d : Database}
    {stats : SyncStats} (h : p.syncDatabase files now = .ok (d, stats, files')) :
    ∃ stored opened, p.openDatabase files = .ok (stored, opened) ∧
      stored.sync (p.sources files) (p.partsOf (p.sources files))
        (p.rulesOf (p.sources files)) now = (d, stats) ∧
      p.sources files' = p.sources files ∧
      files'.entry? p.databasePath = some (.file (.database d)) := by
  rw [syncDatabase] at h
  obtain ⟨⟨stored, opened⟩, hopen, h⟩ := bind_eq_ok_iff.mp h
  obtain ⟨hsources, -⟩ := openDatabase_eq_ok hopen
  dsimp only at h
  rw [allParts_eq_partsOf, allRules_eq_rulesOf, hsources] at h
  obtain ⟨rfl, hrest⟩ := Prod.mk.inj (Except.ok.inj h)
  obtain ⟨rfl, rfl⟩ := Prod.mk.inj hrest
  obtain ⟨hself, hsources'⟩ := p.entry?_insert_database opened _
  exact ⟨stored, opened, hopen, rfl, hsources'.trans hsources, hself⟩

end Project

/-! ### Histories -/

/-- Whether there is no database of the version in use in a project. -/
def Project.HasNoDatabase (p : Project) (files : Files) : Prop :=
  ∀ d, files.entry? p.databasePath = some (.file (.database d)) →
    d.version ≠ Database.currentVersion

/-- The files of a project after a run of edits, openings and syncs, and the sources it was synced
with, the last ones first. -/
inductive History (p : Project) : List (List SourceFile) → Files → Prop
  /-- at first there is no database, or one of another version -/
  | start {files : Files} (h : p.HasNoDatabase files) : History p [] files
  /-- any change of the files but for the database -/
  | edited {seen : List (List SourceFile)} {files files' : Files} (h : History p seen files)
      (hdatabase : files'.entry? p.databasePath = files.entry? p.databasePath) :
      History p seen files'
  /-- the database is lost, or one of another version takes its place -/
  | replaced {seen : List (List SourceFile)} {files files' : Files} (h : History p seen files)
      (hdatabase : p.HasNoDatabase files') : History p seen files'
  | opened {seen : List (List SourceFile)} {files files' : Files} {d : Database}
      (h : History p seen files) (hopen : p.openDatabase files = .ok (d, files')) :
      History p seen files'
  | synced {seen : List (List SourceFile)} {files files' : Files} {now : String} {d : Database}
      {stats : SyncStats} (h : History p seen files)
      (hsync : p.syncDatabase files now = .ok (d, stats, files')) :
      History p (p.sources files :: seen) files'

namespace History

variable {p : Project} {seen : List (List SourceFile)} {files files' : Files} {d : Database}

/-- Whether a database in use reflects sources that were seen. -/
def Faithful (p : Project) (seen : List (List SourceFile)) (files : Files) : Prop :=
  ∀ d, files.entry? p.databasePath = some (.file (.database d)) →
    d.version = Database.currentVersion → d.Reflects p seen

/-- What holds of new databases and is kept by syncs holds, all along, of a database in use. -/
theorem stored_induction {P : List (List SourceFile) → Database → Prop} (hnew : ∀ seen, P seen {})
    (hkept : ∀ {seen sources now stored d stats}, P seen stored →
      stored.sync sources (p.partsOf sources) (p.rulesOf sources) now = (d, stats) →
      P (sources :: seen) d)
    (h : History p seen files) : ∀ d, files.entry? p.databasePath = some (.file (.database d)) →
      d.version = Database.currentVersion → P seen d := by
  induction h with
  | start hnone => exact fun d hd hversion ↦ absurd hversion (hnone d hd)
  | edited _ hdatabase ih => exact fun d hd ↦ ih d (hdatabase ▸ hd)
  | replaced _ hdatabase _ => exact fun d hd hversion ↦ absurd hversion (hdatabase d hd)
  | opened _ hopen ih =>
    intro d hd _
    have hopened := Project.opened_of_stored (hnew _) ih hopen
    rw [(Project.openDatabase_eq_ok hopen).2.1] at hd
    cases hd
    exact hopened
  | synced _ hsync ih =>
    intro d hd _
    obtain ⟨stored, opened, hopen, hstored, -, hself⟩ := Project.syncDatabase_eq_ok hsync
    rw [hself] at hd
    cases hd
    exact hkept (Project.opened_of_stored (hnew _) ih hopen) hstored

/-- A database reflects what was seen when it is opened. -/
theorem Faithful.reflects_opened (h : Faithful p seen files)
    (hopen : p.openDatabase files = .ok (d, files')) : d.Reflects p seen :=
  Project.opened_of_stored (Database.reflects_new p seen) h hopen

/-- All along, a database in use reflects sources that were seen. -/
theorem faithful (h : History p seen files) : Faithful p seen files := by
  apply stored_induction (P := fun seen d ↦ d.Reflects p seen) (Database.reflects_new p) _ h
  exact fun hreflects hsync ↦ Database.Reflects.sync hsync hreflects

end History

/-- After a sync the database stands among the files and gives the parts of the files for every
selection, and the counts of the sync are those of the database. -/
theorem History.parts_of_syncDatabase {p : Project} {seen : List (List SourceFile)}
    {files files' : Files} {now : String} {d : Database} {stats : SyncStats}
    (h : History p seen files)
    (hdistinct : ∀ s ∈ seen, catalogFingerprint s = catalogFingerprint (p.sources files) →
      s = p.sources files)
    (hsync : p.syncDatabase files now = .ok (d, stats, files')) :
    files'.entry? p.databasePath = some (.file (.database d)) ∧
      (∀ f, (CatalogStore.database d).parts f = (CatalogStore.ofFiles p files').parts f) ∧
      stats.parts = d.parts.length ∧ stats.rules = d.rules.length := by
  obtain ⟨stored, opened, hopen, hstored, hsources, hself⟩ := Project.syncDatabase_eq_ok hsync
  have hmirrors := Database.Reflects.mirrors_sync hstored (h.faithful.reflects_opened hopen)
    hdistinct
  refine ⟨hself, fun f ↦ ?_, Database.counts_sync hstored⟩
  change d.selectParts f = .ok (f.select (p.allParts files'))
  rw [Project.allParts_eq_partsOf, hsources]
  exact hmirrors.selectParts (pairwise_sortParts _) (p.keysRise_partsOf _) f

/-! ### A project with one record file -/

private def plant : Project := ⟨[]⟩

private def plantFiles (path : Path) (content : String) : Files :=
  ⟨[(["catalog"], .directory), (["catalog", "parts"], .directory),
    (["catalog", "rules"], .directory), (path, .file (.text content))]⟩

/-- The files of the project after a sync. -/
private def plantSynced (files : Files) : Files :=
  match plant.syncDatabase files "2024-05-01" with
  | .ok (_, _, files') => files'
  | .error _ => files

private theorem exists_syncDatabase_plant (files : Files)
    (h : (plant.syncDatabase files "2024-05-01").toOption.any (·.2.1.rebuilt) = true) :
    ∃ d stats, plant.syncDatabase files "2024-05-01" = .ok (d, stats, plantSynced files) ∧
      stats.rebuilt = true := by
  obtain ⟨result, hsync, hrebuilt⟩ := exists_ok_of_any h
  rw [plantSynced, hsync]
  exact ⟨_, _, rfl, hrebuilt⟩

/-- The part of a project is edited between two syncs. -/
theorem parts_of_syncDatabase_edited :
    let path : Path := ["catalog", "parts", "P.yaml"]
    let files := (plantSynced (plantFiles path "part_id: P-1")).insert path
      (.file (.text "part_id: P-2"))
    ∃ d stats, plant.syncDatabase files "2024-05-01" = .ok (d, stats, plantSynced files) ∧
      FileTree.entry? (plantSynced files) plant.databasePath = some (.file (.database d)) ∧
      (∀ f, (CatalogStore.database d).parts f =
        (CatalogStore.ofFiles plant (plantSynced files)).parts f) ∧
      stats.parts = d.parts.length ∧ stats.rules = d.rules.length := by
  intro path files
  obtain ⟨d, stats, hfirst, -⟩ :=
    exists_syncDatabase_plant (plantFiles path "part_id: P-1") (by decide +kernel)
  have hhistory : History plant [plant.sources (plantFiles path "part_id: P-1")] files :=
    .edited (.synced (.start nofun) hfirst) (FileTree.entry?_insert_of_ne _ (by decide) _)
  have hdistinct : ∀ s ∈ [plant.sources (plantFiles path "part_id: P-1")],
      catalogFingerprint s = catalogFingerprint (plant.sources files) →
        s = plant.sources files := by
    intro s hs heq
    rw [List.mem_singleton.mp hs] at heq
    exact absurd heq (by decide +kernel)
  obtain ⟨d', stats', hsecond, -⟩ := exists_syncDatabase_plant files (by decide +kernel)
  exact ⟨d', stats', hsecond, hhistory.parts_of_syncDatabase hdistinct hsecond⟩

/-! ### Rules after a rebuild -/

instance (x : Float) : Decidable (ReadsBack x) := inferInstanceAs (Decidable (_ = some x))

/-- After a sync that rebuilds the database, its active rules are those of the files exactly if
every floating-point number of an active rule survives a text. -/
theorem activeRules_of_rebuilt_iff {p : Project} {files files' : Files} {now : String}
    {d : Database} {stats : SyncStats} (hsync : p.syncDatabase files now = .ok (d, stats, files'))
    (hrebuilt : stats.rebuilt = true) :
    (CatalogStore.database d).activeRules = (CatalogStore.ofFiles p files').activeRules ↔
      ∀ r ∈ p.allRules files', r.isActive = true → ∀ x ∈ r.floats, ReadsBack x := by
  obtain ⟨stored, opened, hopen, hstored, hsources, hself⟩ := Project.syncDatabase_eq_ok hsync
  have hmirrors := Database.mirrors_of_rebuilt hstored hrebuilt
  change d.activeRules = .ok ((p.allRules files').filter (·.isActive)) ↔ _
  rw [Project.allRules_eq_rulesOf, hsources]
  exact hmirrors.activeRules_eq_ok_iff (pairwise_sortRules _)

/-- A rule with an infinite number among the files does not come back from the database. -/
theorem activeRules_of_rebuilt_infinite :
    let files := plantFiles ["catalog", "rules", "R.yaml"]
      ("rule_id: R-1\nname: one\ncondition:\n  type: thread_match\naction:\n  type: SCREW\n" ++
        "confidence_boost: .inf\n")
    ∃ d stats, plant.syncDatabase files "2024-05-01" = .ok (d, stats, plantSynced files) ∧
      stats.rebuilt = true ∧
      (CatalogStore.database d).activeRules ≠
        (CatalogStore.ofFiles plant (plantSynced files)).activeRules := by
  intro files
  obtain ⟨d, stats, hsync, hrebuilt⟩ :=
    exists_syncDatabase_plant files (by decide +kernel)
  refine ⟨d, stats, hsync, hrebuilt, fun heq ↦ ?_⟩
  have hinfinite : (plant.allRules (plantSynced files)).any
      (fun r ↦ r.isActive && !Decimal.isFinite r.confidenceBoost) = true := by
    decide +kernel
  obtain ⟨r, hr, hrule⟩ := List.any_eq_true.mp hinfinite
  obtain ⟨hactive, hboost⟩ := Bool.and_eq_true_iff.mp hrule
  have hmem : r.confidenceBoost ∈ r.floats := List.mem_append_right _ List.mem_cons_self
  exact not_readsBack_of_isFinite_eq_false (by simpa using hboost)
    ((activeRules_of_rebuilt_iff hsync hrebuilt).mp heq r hr hactive _ hmem)

-- A text is read by scaling its digits, so a finite number may come back as one of its neighbours.
example : ReadsBack 12.5 ∧ ReadsBack 0.1 ∧ ¬ReadsBack 1.2345678901234567e30 := by decide +kernel

end PipingAssembly
