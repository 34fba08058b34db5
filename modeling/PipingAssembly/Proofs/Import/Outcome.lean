import PipingAssembly.Proofs.Delimited.Prefixes
import PipingAssembly.Proofs.Import.Advance

/-!
# What an import leaves, and what a dry run tells

An import that can write its files counts each row once and each file that comes to be once. Without
force it changes nothing that is there, and one that stops at a row leaves what the rows in front of
it leave. A dry run changes nothing, stops at the same row and counts the same rows; but it judges
all parts by the files that are there before, so it counts a file twice that two parts name.
-/

namespace PipingAssembly

variable {p : Project} {options : ImportOptions} {columns : Columns} {a b : ImportProgress}
  {records : List Delimited.Record} {stop : Option ImportError}

/-! ### Records -/

/-- The parts of records, up to the first record that is no part unless such records are passed
over. -/
def partsReached (skipErrors : Bool) (columns : Columns) : List Delimited.Record → List Part
  | [] => []
  | r :: rs =>
    match partOfRecord columns r with
    | .ok q => q :: partsReached skipErrors columns rs
    | .error _ => if skipErrors then partsReached skipErrors columns rs else []

/-- What an import that can write its files does with the first of some records: it passes over the
record, stops at it, or comes by its part. -/
private theorem importRecords_cons_cases {r : Delimited.Record}
    (h : importRecords p options columns a (r :: records) = (b, stop))
    (hwrites : ∀ fault, stop ≠ some (.file fault)) :
    (∃ fault, partOfRecord columns r = .error fault ∧
      ((options.skipErrors = true ∧ importRecords p options columns
          (a.countRow.reject (r.index + 1) fault) records = (b, stop)) ∨
        (options.skipErrors = false ∧ b = a.countRow.reject (r.index + 1) fault ∧
          stop = some (.row (r.index + 1) fault)))) ∨
      ∃ q next, partOfRecord columns r = .ok q ∧ a.countRow.put p options q = .ok next ∧
        importRecords p options columns next records = (b, stop) := by
  rw [importRecords] at h
  cases hr : partOfRecord columns r with
  | error fault =>
    simp only [hr] at h
    refine Or.inl ⟨fault, rfl, ?_⟩
    split at h
    case isTrue hskip => exact Or.inl ⟨hskip, h⟩
    case isFalse hskip =>
      obtain ⟨hb, hstop⟩ := Prod.mk.inj h
      exact Or.inr ⟨Bool.eq_false_iff.mpr hskip, hb.symm, hstop.symm⟩
  | ok q =>
    simp only [hr] at h
    split at h
    · next next hput => exact Or.inr ⟨q, next, rfl, hput, h⟩
    · next fault _ => exact absurd (Prod.mk.inj h).2.symm (hwrites fault)

/-- An import of records advances by their parts. -/
theorem advances_importRecords (h : importRecords p options columns a records = (b, stop))
    (hwrites : ∀ fault, stop ≠ some (.file fault)) :
    ImportProgress.Advances p options a (partsReached options.skipErrors columns records) b := by
  induction records generalizing a with
  | nil =>
    obtain ⟨rfl, -⟩ := Prod.mk.inj h
    exact .refl _
  | cons r records ih =>
    rw [partsReached]
    obtain ⟨fault, hr, ⟨hskip, h⟩ | ⟨hskip, rfl, -⟩⟩ | ⟨q, next, hr, hput, h⟩ :=
      importRecords_cons_cases h hwrites
    · simp only [hr, hskip, if_true]
      rw [hskip] at ih
      exact .reject _ _ (ih h)
    · simp only [hr, hskip, Bool.false_eq_true, if_false]
      exact .reject _ _ (.refl _)
    · simp only [hr]
      exact .put hput (ih h)

/-- An import of records that stops at one of them leaves the files that the records in front of it
leave. -/
theorem exists_importRecords_before {number : Nat} {fault : RowFault}
    (h : importRecords p options columns a records = (b, some (.row number fault))) :
    options.skipErrors = false ∧ ∃ before r after, records = before ++ r :: after ∧
      r.index + 1 = number ∧
      ∃ c, importRecords p options columns a before = (c, none) ∧ c.files = b.files := by
  induction records generalizing a with
  | nil => cases (Prod.mk.inj h).2
  | cons r records ih =>
    obtain ⟨_, -, ⟨hskip, h⟩ | ⟨hskip, rfl, hstop⟩⟩ | ⟨q, next, hr, hput, h⟩ :=
      importRecords_cons_cases h nofun
    · rw [(ih h).1] at hskip
      cases hskip
    · obtain ⟨rfl, -⟩ := ImportError.row.inj (Option.some.inj hstop)
      exact ⟨hskip, [], r, records, rfl, rfl, a, rfl, rfl⟩
    · obtain ⟨hskip, before, r', after, rfl, hnumber, c, hc, hfiles⟩ := ih h
      refine ⟨hskip, r :: before, r', after, rfl, hnumber, c, ?_, hfiles⟩
      rw [importRecords]
      simp only [hr, hput, hc]

/-- A dry run stops at no file. -/
theorem importRecords_ne_file (hdry : options.dryRun = true) (fault : FileFault) :
    importRecords p options columns a records ≠ (b, some (.file fault)) := by
  intro h
  induction records generalizing a with
  | nil => cases (Prod.mk.inj h).2
  | cons r records ih =>
    rw [importRecords] at h
    dsimp only at h
    split at h
    · split at h
      · exact ih h
      · cases (Prod.mk.inj h).2
    · next q _ =>
      obtain ⟨next, hput⟩ := ImportProgress.exists_put_eq_ok (p := p) hdry a.countRow q
      rw [hput] at h
      exact ih h

/-- Whether two imports have counted the same rows and rejected the same ones. -/
structure ImportProgress.SameRows (a b : ImportProgress) : Prop where
  rows : a.stats.rows = b.stats.rows
  errors : a.stats.errors = b.stats.errors
  rejected : a.rejected = b.rejected

section SameRows

variable {a' b' : ImportProgress} {options' : ImportOptions}

namespace ImportProgress.SameRows

theorem reject (h : a.SameRows a') (number : Nat) (fault : RowFault) :
    (a.countRow.reject number fault).SameRows (a'.countRow.reject number fault) where
  rows := congrArg (· + 1) h.rows
  errors := congrArg (· + 1) h.errors
  rejected := congrArg (· ++ [(number, fault)]) h.rejected

theorem put (h : a.SameRows a') {q : Part} (hput : a.countRow.put p options q = .ok b)
    (hput' : a'.countRow.put p options' q = .ok b') : b.SameRows b' := by
  obtain ⟨hstats, hrejected, -⟩ := row_cases hput
  obtain ⟨hstats', hrejected', -⟩ := row_cases hput'
  constructor
  · rw [hstats, hstats', ImportStats.rows_countPart, ImportStats.rows_countPart]
    exact congrArg (· + 1) h.rows
  · rw [hstats, hstats', ImportStats.errors_countPart, ImportStats.errors_countPart]
    exact h.errors
  · rw [hrejected, hrejected', h.rejected]

end ImportProgress.SameRows

/-- Imports of the same records that pass over errors alike count and reject the same rows, and stop
alike. -/
theorem sameRows_importRecords {stop' : Option ImportError} (ha : a.SameRows a')
    (hskip : options.skipErrors = options'.skipErrors)
    (h : importRecords p options columns a records = (b, stop))
    (h' : importRecords p options' columns a' records = (b', stop'))
    (hwrites : ∀ fault, stop ≠ some (.file fault))
    (hwrites' : ∀ fault, stop' ≠ some (.file fault)) : b.SameRows b' ∧ stop = stop' := by
  induction records generalizing a a' with
  | nil =>
    obtain ⟨rfl, rfl⟩ := Prod.mk.inj h
    obtain ⟨rfl, rfl⟩ := Prod.mk.inj h'
    exact ⟨ha, rfl⟩
  | cons r records ih =>
    obtain ⟨fault, hr, hfault⟩ | ⟨q, next, hr, hput, h⟩ := importRecords_cons_cases h hwrites
    · obtain ⟨fault', hr', hfault'⟩ | ⟨_, _, hr', -⟩ := importRecords_cons_cases h' hwrites'
      · obtain rfl := Except.error.inj (hr.symm.trans hr')
        obtain ⟨hpass, h⟩ | ⟨hpass, rfl, rfl⟩ := hfault <;>
          obtain ⟨hpass', h'⟩ | ⟨hpass', rfl, rfl⟩ := hfault'
        · exact ih (ha.reject _ _) h h'
        · cases hpass.symm.trans (hskip.trans hpass')
        · cases hpass.symm.trans (hskip.trans hpass')
        · exact ⟨ha.reject _ _, rfl⟩
      · cases hr.symm.trans hr'
    · obtain ⟨_, hr', -⟩ | ⟨q', next', hr', hput', h'⟩ := importRecords_cons_cases h' hwrites'
      · cases hr.symm.trans hr'
      · obtain rfl := Except.ok.inj (hr.symm.trans hr')
        exact ih (ha.put hput hput') h h'

end SameRows

/-! ### Texts -/

/-- The columns of a text with some records, or why its parts are not imported. -/
def columnsOf (records : List Delimited.Record) : Except ImportError Columns :=
  match ((records.head?.map (·.header)).getD (.ok []) : Except Delimited.NotText (List String)) with
  | .error e => .error (.headerNotText e)
  | .ok header =>
    let columns := Columns.ofHeader header
    if (columns.lookup "part_id").isNone then .error (.noIdColumn header) else .ok columns

variable {files : Files} {bs : List UInt8}

/-- An import of a text is one of the records behind the header. -/
private theorem importParts_eq (p : Project) (options : ImportOptions) (files : Files)
    (bs : List UInt8) :
    importParts p options files bs =
      match columnsOf (Delimited.read bs) with
      | .error e => ({ files }, some e)
      | .ok columns => importRecords p options columns { files } (Delimited.read bs).tail := by
  rw [importParts, columnsOf]
  cases ((Delimited.read bs).head?.map (·.header)).getD (.ok []) with
  | error e => rfl
  | ok header =>
    dsimp only
    split <;> rfl

private theorem importParts_cases (h : importParts p options files bs = (b, stop)) :
    (∃ e, columnsOf (Delimited.read bs) = .error e ∧ b = { files } ∧ stop = some e) ∨
      ∃ columns, columnsOf (Delimited.read bs) = .ok columns ∧
        importRecords p options columns { files } (Delimited.read bs).tail = (b, stop) := by
  rw [importParts_eq] at h
  split at h
  · next e he =>
    obtain ⟨hb, hstop⟩ := Prod.mk.inj h
    exact Or.inl ⟨e, he, hb.symm, hstop.symm⟩
  · next columns hcolumns => exact Or.inr ⟨columns, hcolumns, h⟩

/-- A text without columns has a header that is no text, or one that names no ids. -/
private theorem columnsOf_eq_error {e : ImportError} (h : columnsOf records = .error e) :
    (∃ notText, e = .headerNotText notText) ∨ ∃ header, e = .noIdColumn header := by
  rw [columnsOf] at h
  split at h
  · exact Or.inl ⟨_, (Except.error.inj h).symm⟩
  · dsimp only at h
    split at h
    · exact Or.inr ⟨_, (Except.error.inj h).symm⟩
    · cases h

/-- Only a text with a header has columns. -/
private theorem exists_cons_of_columnsOf (h : columnsOf records = .ok columns) :
    ∃ header rows, records = header :: rows := by
  cases records with
  | nil => cases h
  | cons header rows => exact ⟨header, rows, rfl⟩

/-- The parts of a text that an import comes to. -/
def partsReachedIn (skipErrors : Bool) (bs : List UInt8) : List Part :=
  match columnsOf (Delimited.read bs) with
  | .error _ => []
  | .ok columns => partsReached skipErrors columns (Delimited.read bs).tail

theorem advances_importParts (h : importParts p options files bs = (b, stop))
    (hwrites : ∀ fault, stop ≠ some (.file fault)) :
    ImportProgress.Advances p options { files } (partsReachedIn options.skipErrors bs) b := by
  rw [partsReachedIn]
  obtain ⟨e, hcolumns, rfl, -⟩ | ⟨columns, hcolumns, h⟩ := importParts_cases h <;> rw [hcolumns]
  · exact .refl _
  · exact advances_importRecords h hwrites

theorem importParts_ne_file (hdry : options.dryRun = true) (fault : FileFault) :
    importParts p options files bs ≠ (b, some (.file fault)) := by
  intro h
  obtain ⟨e, hcolumns, -, hstop⟩ | ⟨columns, -, h⟩ := importParts_cases h
  · obtain ⟨_, rfl⟩ | ⟨_, rfl⟩ := columnsOf_eq_error hcolumns <;> cases hstop
  · exact importRecords_ne_file hdry fault h

theorem sameRows_importParts {b' : ImportProgress} {options' : ImportOptions}
    {stop' : Option ImportError} (hskip : options.skipErrors = options'.skipErrors)
    (h : importParts p options files bs = (b, stop))
    (h' : importParts p options' files bs = (b', stop'))
    (hwrites : ∀ fault, stop ≠ some (.file fault))
    (hwrites' : ∀ fault, stop' ≠ some (.file fault)) : b.SameRows b' ∧ stop = stop' := by
  rw [importParts_eq] at h h'
  cases hcolumns : columnsOf (Delimited.read bs) with
  | error e =>
    rw [hcolumns] at h h'
    obtain ⟨rfl, rfl⟩ := Prod.mk.inj h
    obtain ⟨rfl, rfl⟩ := Prod.mk.inj h'
    exact ⟨⟨rfl, rfl, rfl⟩, rfl⟩
  | ok columns =>
    rw [hcolumns] at h h'
    exact sameRows_importRecords ⟨rfl, rfl, rfl⟩ hskip h h' hwrites hwrites'

/-- An import of a text that stops at a row leaves the files that the text in front of this row
leaves, which has the rows in front of it and no others. -/
theorem exists_importParts_before {number : Nat} {fault : RowFault}
    (h : importParts p options files bs = (b, some (.row number fault))) :
    options.skipErrors = false ∧ ∃ r ∈ Delimited.read bs, r.index + 1 = number ∧
      Delimited.read (bs.take r.byte) = (Delimited.read bs).take r.index ∧
      ∃ c, importParts p options files (bs.take r.byte) = (c, none) ∧ c.files = b.files := by
  obtain ⟨e, hcolumns, -, hstop⟩ | ⟨columns, hcolumns, h⟩ := importParts_cases h
  · obtain rfl := Option.some.inj hstop
    obtain ⟨_, he⟩ | ⟨_, he⟩ := columnsOf_eq_error hcolumns <;> cases he
  · obtain ⟨header, rows, hrecords⟩ := exists_cons_of_columnsOf hcolumns
    rw [hrecords, List.tail_cons] at h
    obtain ⟨hskip, before, r, after, rfl, hnumber, c, hc, hfiles⟩ := exists_importRecords_before h
    have hplace : (Delimited.read bs)[before.length + 1]? = some r := by
      rw [hrecords, List.getElem?_cons_succ, List.getElem?_append_right le_rfl, Nat.sub_self]
      rfl
    have hr : r ∈ Delimited.read bs := List.mem_of_getElem? hplace
    have hcut := Delimited.read_take_byte hr
    refine ⟨hskip, r, hr, hnumber, hcut, c, ?_, hfiles⟩
    have hbefore : Delimited.read (bs.take r.byte) = header :: before := by
      rw [hcut, hrecords, Delimited.index_of_getElem? hplace, List.take_succ_cons, List.take_left']
      rfl
    have hsame : columnsOf (header :: before) = columnsOf (Delimited.read bs) := by
      rw [hrecords]
      rfl
    rw [importParts_eq, hbefore, hsame, hcolumns]
    exact hc

/-! ### Files -/

/-- An import that writes counts each row once, and each file that comes to be. Unless it is forced,
what was there stays as it was, and of the parts whose file was not there the first one with a place
is kept. If it stops at a row, it leaves what the rows in front of this row leave. -/
theorem accounts_importParts {progress : ImportProgress}
    (h : importParts p options files bs = (progress, stop)) (hwet : options.dryRun = false)
    (hwrites : ∀ fault, stop ≠ some (.file fault)) :
    progress.stats.rows = progress.stats.created + progress.stats.updated +
      progress.stats.skipped + progress.stats.errors ∧
    (∃ new : Finset Path, progress.stats.created = new.card ∧ ∀ path, path ∈ new ↔
      files.contains path = false ∧ (progress.files.content? path).isSome = true) ∧
    (options.force = false →
      (∀ path, files.contains path = true → progress.files.entry? path = files.entry? path) ∧
      ∀ path, files.contains path = false → progress.files.content? path =
        (p.firstAt? path (partsReachedIn options.skipErrors bs)).map Part.fileContent) ∧
    ∀ number fault, stop = some (.row number fault) →
      options.skipErrors = false ∧ ∃ r ∈ Delimited.read bs, r.index + 1 = number ∧
        Delimited.read (bs.take r.byte) = (Delimited.read bs).take r.index ∧
        ∃ before, importParts p options files (bs.take r.byte) = (before, none) ∧
          before.files = progress.files := by
  have hadvances := advances_importParts h hwrites
  refine ⟨hadvances.balanced rfl, ?_, fun hforce ↦ ⟨fun path ↦ hadvances.entry?_of_contains hforce,
    fun path ↦ hadvances.content?_of_not_contains hwet hforce⟩, ?_⟩
  · refine ⟨(p.newPlaces files (partsReachedIn options.skipErrors bs)).toFinset, ?_, fun path ↦ ?_⟩
    · rw [hadvances.created_of_not_dryRun hwet]
      exact Nat.zero_add _
    · rw [List.mem_toFinset, Project.mem_newPlaces]
      refine and_congr_right fun hnew ↦ ⟨?_, fun hcontent ↦ ?_⟩
      · rintro ⟨q, hq, rfl⟩
        exact hadvances.isSome_content? hwet hq hnew
      · obtain hkept | ⟨content, ⟨⟨q, hq, hpath, -⟩, -⟩, -⟩ := hadvances.grows.content? path
        · rw [hkept, FileTree.content?_eq_none hnew] at hcontent
          cases hcontent
        · exact ⟨q, hq, hpath⟩
  · rintro number fault rfl
    exact exists_importParts_before h

private def brokenText : List UInt8 :=
  Text.encode "part_id,family\nA,pipe\nA,valve\nB,spring\nC,pipe\n"

/-- An import into an empty project that stops at the fourth row leaves what the rows in front of it
leave, which is one file. -/
theorem accounts_importParts_broken : ∃ progress,
    importParts ⟨[]⟩ {} ⟨[]⟩ brokenText = (progress, some (.row 4 (.unknownFamily "spring"))) ∧
      progress.stats.rows = progress.stats.created + progress.stats.updated +
        progress.stats.skipped + progress.stats.errors ∧
      ∃ before, importParts ⟨[]⟩ {} ⟨[]⟩
          (Text.encode "part_id,family\nA,pipe\nA,valve\n") = (before, none) ∧
        before.files = progress.files := by
  have himport : importParts ⟨[]⟩ {} ⟨[]⟩ brokenText =
      ((importParts ⟨[]⟩ {} ⟨[]⟩ brokenText).1, some (.row 4 (.unknownFamily "spring"))) :=
    Prod.ext rfl (show (importParts _ _ _ _).2 = _ by decide +kernel)
  obtain ⟨hrows, -, -, hstop⟩ := accounts_importParts himport rfl nofun
  obtain ⟨-, r, hr, hnumber, -, before, hbefore, hfiles⟩ := hstop 4 _ rfl
  have hfront : ∀ r ∈ Delimited.read brokenText, r.index + 1 = 4 →
      brokenText.take r.byte = Text.encode "part_id,family\nA,pipe\nA,valve\n" := by
    decide +kernel
  rw [hfront r hr hnumber] at hbefore
  exact ⟨_, himport, hrows, before, hbefore, hfiles⟩

/-! ### Dry runs -/

private theorem length_eq_card_toFinset_iff {α : Type} [DecidableEq α] (l : List α) :
    l.length = l.toFinset.card ↔ l.Nodup := by
  rw [eq_comm, ← Multiset.coe_card, ← Multiset.coe_nodup]
  exact Multiset.toFinset_card_eq_card_iff_nodup

private theorem ImportStats.eq_iff_created {s t : ImportStats} (hrows : s.rows = t.rows)
    (herrors : s.errors = t.errors) (hparts : s.parts = t.parts)
    (h : s.skipped = t.skipped ∨ s.updated = t.updated) : s = t ↔ s.created = t.created := by
  refine ⟨fun hst ↦ hst ▸ rfl, fun hcreated ↦ ?_⟩
  rw [parts, parts] at hparts
  cases s
  cases t
  simp only [mk.injEq] at *
  omega

/-- A dry run changes no file, stops where the import would stop, and counts the same rows, errors
and parts. But it judges a part by the files that are there before the import: where two parts name
a file that is not there it tells that both are created, while the import creates the file once. So
it tells what the import does exactly if no two parts name such a file. -/
theorem dryRun_importParts {dry real : ImportProgress} {dryStop : Option ImportError}
    (hdry : importParts p { options with dryRun := true } files bs = (dry, dryStop))
    (hreal : importParts p { options with dryRun := false } files bs = (real, stop))
    (hwrites : ∀ fault, stop ≠ some (.file fault)) :
    let new := p.newPlaces files (partsReachedIn options.skipErrors bs)
    dry.files = files ∧ dryStop = stop ∧ dry.SameRows real ∧ dry.stats.parts = real.stats.parts ∧
      (options.force = true → dry.stats.skipped = real.stats.skipped) ∧
      (options.force = false → dry.stats.updated = real.stats.updated) ∧
      dry.stats.created = new.length ∧ real.stats.created = new.toFinset.card ∧
      (dry.stats = real.stats ↔ new.Nodup) := by
  intro new
  have hdryWrites : ∀ fault, dryStop ≠ some (.file fault) := fun fault hstop ↦
    importParts_ne_file rfl fault (hstop ▸ hdry)
  have hadvances := advances_importParts hreal hwrites
  have hdryAdvances := advances_importParts hdry hdryWrites
  have hskip : ({ options with dryRun := true } : ImportOptions).skipErrors =
      ({ options with dryRun := false } : ImportOptions).skipErrors := rfl
  obtain ⟨hsame, hstop⟩ := sameRows_importParts hskip hdry hreal hdryWrites hwrites
  have hparts : dry.stats.parts = real.stats.parts :=
    hdryAdvances.parts_stats.trans hadvances.parts_stats.symm
  have hskipped : options.force = true → dry.stats.skipped = real.stats.skipped := fun hforce ↦
    (hdryAdvances.skipped_of_force hforce).trans (hadvances.skipped_of_force hforce).symm
  have hupdated : options.force = false → dry.stats.updated = real.stats.updated := fun hforce ↦
    (hdryAdvances.updated_of_not_force hforce).trans (hadvances.updated_of_not_force hforce).symm
  have hdryCreated : dry.stats.created = new.length :=
    (hdryAdvances.created_of_dryRun rfl).trans (Nat.zero_add _)
  have hcreated : real.stats.created = new.toFinset.card :=
    (hadvances.created_of_not_dryRun rfl).trans (Nat.zero_add _)
  refine ⟨hdryAdvances.files_of_dryRun rfl, hstop, hsame, hparts, hskipped,
    hupdated, hdryCreated, hcreated, ?_⟩
  have hother :
      dry.stats.skipped = real.stats.skipped ∨ dry.stats.updated = real.stats.updated := by
    cases hforce : options.force with
    | true => exact Or.inl (hskipped hforce)
    | false => exact Or.inr (hupdated hforce)
  rw [ImportStats.eq_iff_created hsame.rows hsame.errors hparts hother, hdryCreated, hcreated,
    length_eq_card_toFinset_iff]

private def repeatedText : List UInt8 := Text.encode "part_id,family\nX-1,pipe\nX-1,valve\n"

/-- A dry run tells that two files would be created for one id, of which the import creates one. -/
theorem dryRun_importParts_repeated : ∃ dry real,
    importParts ⟨[]⟩ { dryRun := true } ⟨[]⟩ repeatedText = (dry, none) ∧
      importParts ⟨[]⟩ {} ⟨[]⟩ repeatedText = (real, none) ∧ dry.files = ⟨[]⟩ ∧
      dry.stats ≠ real.stats := by
  have hdry : importParts ⟨[]⟩ { dryRun := true } ⟨[]⟩ repeatedText =
      ((importParts ⟨[]⟩ { dryRun := true } ⟨[]⟩ repeatedText).1, none) :=
    Prod.ext rfl (show (importParts _ _ _ _).2 = _ by decide +kernel)
  have hreal : importParts ⟨[]⟩ {} ⟨[]⟩ repeatedText =
      ((importParts ⟨[]⟩ {} ⟨[]⟩ repeatedText).1, none) :=
    Prod.ext rfl (show (importParts _ _ _ _).2 = _ by decide +kernel)
  obtain ⟨hfiles, -, -, -, -, -, -, -, hstats⟩ :=
    @dryRun_importParts _ {} _ _ _ _ _ _ hdry hreal nofun
  refine ⟨_, _, hdry, hreal, hfiles, mt hstats.mp ?_⟩
  have hplaces : (Project.mk []).newPlaces ⟨[]⟩ (partsReachedIn false repeatedText) =
      [["catalog", "parts", "X-1.yaml"], ["catalog", "parts", "X-1.yaml"]] := by
    decide +kernel
  exact hplaces ▸ by decide

end PipingAssembly
