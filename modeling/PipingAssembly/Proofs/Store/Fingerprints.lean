import PipingAssembly.Proofs.Lists
import PipingAssembly.Proofs.Store.History
import PipingAssembly.Proofs.Text.Encoding
import PipingAssembly.Proofs.Yaml.Readings

/-!
# What a fingerprint tells of a catalog

The fingerprint of a catalog is the digest of its paths and contents, each with a zero byte behind
it. A path has no zero byte, but a content may have some, and the bytes of two files are then those
of one that holds the second behind a zero byte. Catalogs with the same bytes are the same exactly
if each file has as many zero bytes in both. A sync sees every change up to that, and among files
that are documents every change, for a document has no zero byte.
-/

namespace PipingAssembly

/-! ### The bytes of a catalog -/

/-- Whether no path has a zero character. -/
def PlainPaths (sources : List SourceFile) : Prop := ∀ f ∈ sources, '\x00' ∉ f.path.toList

/-- Whether the files of two catalogs have as many zero bytes, one by one, as far as both have
files. -/
def SameZeros (s t : List SourceFile) : Prop :=
  ∀ q ∈ s.zip t, q.1.content.count 0 = q.2.content.count 0

instance (sources : List SourceFile) : Decidable (PlainPaths sources) :=
  inferInstanceAs (Decidable (∀ f ∈ sources, '\x00' ∉ f.path.toList))

instance (s t : List SourceFile) : Decidable (SameZeros s t) :=
  inferInstanceAs (Decidable (∀ q ∈ s.zip t, q.1.content.count 0 = q.2.content.count 0))

theorem sameZeros_cons {f g : SourceFile} {s t : List SourceFile} :
    SameZeros (f :: s) (g :: t) ↔ f.content.count 0 = g.content.count 0 ∧ SameZeros s t :=
  List.forall_mem_cons

theorem sameZeros_self (s : List SourceFile) : SameZeros s s := by
  induction s with
  | nil => exact nofun
  | cons f s ih => exact sameZeros_cons.mpr ⟨rfl, ih⟩

/-- Contents without a zero byte agree on their zero bytes. -/
theorem sameZeros_of_notMem {s t : List SourceFile} (hs : ∀ f ∈ s, 0 ∉ f.content)
    (ht : ∀ f ∈ t, 0 ∉ f.content) : SameZeros s t := by
  rintro ⟨f, g⟩ hfg
  obtain ⟨hf, hg⟩ := List.of_mem_zip hfg
  rw [List.count_eq_zero_of_not_mem (hs f hf), List.count_eq_zero_of_not_mem (ht g hg)]

theorem fingerprintInput_cons (f : SourceFile) (sources : List SourceFile) :
    fingerprintInput (f :: sources) =
      Text.encode f.path ++ 0 :: (f.content ++ 0 :: fingerprintInput sources) := by
  simp only [fingerprintInput, List.flatMap_cons, List.append_assoc, List.cons_append,
    List.nil_append]

theorem fingerprintInput_ne_nil (f : SourceFile) (sources : List SourceFile) :
    fingerprintInput (f :: sources) ≠ [] := by
  rw [fingerprintInput_cons]
  exact List.append_ne_nil_of_right_ne_nil _ (List.cons_ne_nil _ _)

/-- A first file with a path and a number of zero bytes is read off the bytes. -/
theorem fingerprintInput_cons_inj {f g : SourceFile} {s t : List SourceFile}
    (hf : '\x00' ∉ f.path.toList) (hg : '\x00' ∉ g.path.toList)
    (hzeros : f.content.count 0 = g.content.count 0)
    (h : fingerprintInput (f :: s) = fingerprintInput (g :: t)) :
    f = g ∧ fingerprintInput s = fingerprintInput t := by
  -- A path ends at the first zero byte, a content at the one that its number of zero bytes tells.
  rw [fingerprintInput_cons, fingerprintInput_cons] at h
  obtain ⟨hpath, hrest⟩ := eq_of_append_mark (mt Text.zero_mem_of_encode hf)
    (mt Text.zero_mem_of_encode hg) h
  obtain ⟨hcontent, hrest⟩ := eq_of_append_mark_of_count hzeros hrest
  refine ⟨?_, hrest⟩
  calc f = ⟨f.path, f.content⟩ := rfl
    _ = ⟨g.path, g.content⟩ := by rw [Text.encode_injective hpath, hcontent]

/-- Catalogs with the same bytes are the same if their files have as many zero bytes. -/
theorem eq_of_fingerprintInput_eq {s t : List SourceFile} (hs : PlainPaths s) (ht : PlainPaths t)
    (hzeros : SameZeros s t) (h : fingerprintInput s = fingerprintInput t) : s = t := by
  induction s generalizing t with
  | nil =>
    cases t with
    | nil => rfl
    | cons g t => exact absurd h.symm (fingerprintInput_ne_nil g t)
  | cons f s ih =>
    cases t with
    | nil => exact absurd h (fingerprintInput_ne_nil f s)
    | cons g t =>
      obtain ⟨hf, hs'⟩ := List.forall_mem_cons.mp hs
      obtain ⟨hg, ht'⟩ := List.forall_mem_cons.mp ht
      obtain ⟨hfirst, hlater⟩ := sameZeros_cons.mp hzeros
      obtain ⟨rfl, hrest⟩ := fingerprintInput_cons_inj hf hg hfirst h
      rw [ih hs' ht' hlater hrest]

theorem eq_iff_fingerprintInput_eq {s t : List SourceFile} (hs : PlainPaths s)
    (ht : PlainPaths t) : s = t ↔ fingerprintInput s = fingerprintInput t ∧ SameZeros s t := by
  constructor
  · rintro rfl
    exact ⟨rfl, sameZeros_self s⟩
  · rintro ⟨h, hzeros⟩
    exact eq_of_fingerprintInput_eq hs ht hzeros h

/-- One file that holds the path and the content of a second one, each behind a zero byte. -/
def SourceFile.holding (f g : SourceFile) : SourceFile :=
  ⟨f.path, f.content ++ 0 :: (Text.encode g.path ++ 0 :: g.content)⟩

theorem fingerprintInput_holding (f g : SourceFile) (rest : List SourceFile) :
    fingerprintInput (f.holding g :: rest) = fingerprintInput (f :: g :: rest) := by
  simp only [fingerprintInput_cons, SourceFile.holding, List.append_assoc, List.cons_append]

/-- A catalog of two or more files has its bytes in common with another one. -/
theorem exists_ne_of_two_le_length {s : List SourceFile} (hs : PlainPaths s) (h : 2 ≤ s.length) :
    ∃ t, PlainPaths t ∧ t ≠ s ∧ fingerprintInput t = fingerprintInput s := by
  obtain ⟨f, g, rest, rfl⟩ : ∃ f g rest, s = f :: g :: rest := by
    match s, h with
    | f :: g :: rest, _ => exact ⟨f, g, rest, rfl⟩
  obtain ⟨hf, hg⟩ := List.forall_mem_cons.mp hs
  refine ⟨f.holding g :: rest, ?_, ?_, fingerprintInput_holding f g rest⟩
  · exact List.forall_mem_cons.mpr ⟨hf, (List.forall_mem_cons.mp hg).2⟩
  · intro heq
    have hlength := congrArg List.length heq
    simp at hlength

/-! ### Syncs -/

/-- Whether the database that a project opens was never synced. -/
def Project.OpensNew (p : Project) (files : Files) : Prop :=
  ∃ d opened, p.openDatabase files = .ok (d, opened) ∧ d.fingerprint = none

namespace History

variable {p : Project} {s : List SourceFile} {seen : List (List SourceFile)}
  {files files' : Files} {now : String} {d : Database} {stats : SyncStats}

/-- A sync leaves the fingerprint of its sources. -/
theorem fingerprint_sync {stored : Database} {sources : List SourceFile}
    (hsync : stored.sync sources (p.partsOf sources) (p.rulesOf sources) now = (d, stats)) :
    d.fingerprint = some (catalogFingerprint sources) := by
  obtain ⟨hcurrent, rfl, -⟩ | ⟨-, -, hfp, -⟩ := Database.sync_cases hsync
  · exact hcurrent
  · exact hfp

/-- A database that is opened has no fingerprint but that of the last sync. -/
theorem fingerprint_opened (h : History p (s :: seen) files)
    (hopen : p.openDatabase files = .ok (d, files')) {fp : String}
    (hfp : d.fingerprint = some fp) : fp = catalogFingerprint s := by
  -- Edits and openings keep the fingerprint, a lost database leaves none, a sync puts its own.
  have hstored := stored_induction (P := fun seen d ↦ ∀ fp, d.fingerprint = some fp →
    seen.head?.map catalogFingerprint = some fp) (fun _ _ ↦ nofun)
    (fun _ hsync _ hfp ↦ (fingerprint_sync hsync).symm.trans hfp) h
  have hlast := Project.opened_of_stored (fun _ ↦ nofun) hstored hopen fp hfp
  exact (Option.some.inj hlast).symm

/-- A sync rebuilds a database exactly if it is new or the bytes of the sources are not those of the
last sync. -/
theorem rebuilt_iff (h : History p (s :: seen) files)
    (hcollision : catalogFingerprint s = catalogFingerprint (p.sources files) →
      fingerprintInput s = fingerprintInput (p.sources files))
    (hsync : p.syncDatabase files now = .ok (d, stats, files')) :
    stats.rebuilt = true ↔
      p.OpensNew files ∨ fingerprintInput s ≠ fingerprintInput (p.sources files) := by
  obtain ⟨stored, opened, hopen, hstored, -⟩ := Project.syncDatabase_eq_ok hsync
  have hnew : p.OpensNew files ↔ stored.fingerprint = none := by
    constructor
    · rintro ⟨d', opened', hopen', hnone⟩
      rw [hopen] at hopen'
      obtain ⟨rfl, -⟩ := Prod.mk.inj (Except.ok.inj hopen')
      exact hnone
    · exact fun hnone ↦ ⟨stored, opened, hopen, hnone⟩
  rw [hnew]
  obtain ⟨hcurrent, -, rfl⟩ | ⟨hother, -, -, -, rfl⟩ := Database.sync_cases hstored
  · have hsame := hcollision (h.fingerprint_opened hopen hcurrent).symm
    simp [hcurrent, hsame]
  · refine iff_of_true rfl ?_
    cases hfp : stored.fingerprint with
    | none => exact Or.inl rfl
    | some fp =>
      refine Or.inr fun hsame ↦ hother ?_
      rw [hfp, h.fingerprint_opened hopen hfp, catalogFingerprint, hsame, catalogFingerprint]

end History

/-- Catalogs are the same exactly if their bytes are and each file has as many zero bytes in both. A
sync rebuilds a database exactly if it is new or the catalog is not that of the last sync, for
catalogs whose files have as many zero bytes and other bytes another digest. -/
theorem fingerprint_tells_apart (s t : List SourceFile) (hs : PlainPaths s) (ht : PlainPaths t) :
    (s = t ↔ fingerprintInput s = fingerprintInput t ∧ SameZeros s t) ∧
    ∀ {p : Project} {seen : List (List SourceFile)} {files files' : Files} {now : String}
      {d : Database} {stats : SyncStats}, History p (s :: seen) files → p.sources files = t →
      p.syncDatabase files now = .ok (d, stats, files') →
      (catalogFingerprint s = catalogFingerprint t → fingerprintInput s = fingerprintInput t) →
      SameZeros s t → (stats.rebuilt = true ↔ p.OpensNew files ∨ s ≠ t) := by
  have heq := eq_iff_fingerprintInput_eq hs ht
  refine ⟨heq, ?_⟩
  rintro p seen files files' now d stats h rfl hsync hcollision hzeros
  rw [h.rebuilt_iff hcollision hsync, Ne, Ne, heq, and_iff_left hzeros]

/-- The directories of a project at the top of a tree. -/
private def shelf : Files :=
  ⟨[(["catalog"], .directory), (["catalog", "parts"], .directory),
    (["catalog", "rules"], .directory)]⟩

private def top : Project := ⟨[]⟩

/-- The files with texts in the directory of parts. -/
private def withParts (files : Files) (parts : List (String × String)) : Files :=
  parts.foldl
    (fun files (name, content) ↦ files.insert (top.partsDir ++ [name]) (.file (.text content))) files

/-- The files after a sync. -/
private def afterSync (files : Files) : Files :=
  ((top.syncDatabase files "").toOption.map (·.2.2)).getD files

/-- A file with a zero byte is edited beside another one between two syncs. -/
theorem fingerprint_tells_apart_edited :
    let files := withParts shelf [("A.yaml", "part_id: A\x00"), ("B.yaml", "part_id: B")]
    let edited := withParts (afterSync files) [("A.yaml", "part_id: C\x00")]
    let s := top.sources files
    let t := top.sources edited
    PlainPaths s ∧ PlainPaths t ∧ SameZeros s t ∧ s ≠ t ∧
      ∃ d stats files', top.syncDatabase edited "" = .ok (d, stats, files') ∧
        stats.rebuilt = true := by
  intro files edited s t
  have hfirst : (top.syncDatabase files "").toOption.any (fun _ ↦ true) = true := by decide +kernel
  have hagain : (top.syncDatabase edited "").toOption.any (fun _ ↦ true) = true := by
    decide +kernel
  obtain ⟨⟨d, stats, files'⟩, hfirst, -⟩ := exists_ok_of_any hfirst
  obtain ⟨⟨d', stats', files''⟩, hagain, -⟩ := exists_ok_of_any hagain
  have hafter : History top [s] (afterSync files) := by
    rw [afterSync, hfirst]
    exact .synced (.start nofun) hfirst
  have hhistory : History top [s] edited :=
    .edited hafter (FileTree.entry?_insert_of_ne _ (by decide) _)
  have hs : PlainPaths s := by decide +kernel
  have ht : PlainPaths t := by decide +kernel
  have hzeros : SameZeros s t := by decide +kernel
  have hne : s ≠ t := by decide +kernel
  have hcollision : catalogFingerprint s = catalogFingerprint t →
      fingerprintInput s = fingerprintInput t :=
    fun heq ↦ absurd heq (by decide +kernel)
  refine ⟨hs, ht, hzeros, hne, d', stats', files'', hagain, ?_⟩
  exact ((fingerprint_tells_apart s t hs ht).2 hhistory rfl hagain hcollision hzeros).mpr
    (Or.inr hne)

-- A file that held a second one is parted into the two, and the database stays as it was.
example :
    let files := withParts shelf
      [("A.yaml", "part_id: A\x00/catalog/parts/B.yaml\x00part_id: B")]
    let parted := withParts (afterSync files) [("A.yaml", "part_id: A"), ("B.yaml", "part_id: B")]
    top.sources parted ≠ top.sources files ∧
      (top.syncDatabase parted "").toOption.map (·.2.1) = some ⟨false, 2, 0, 0⟩ := by
  decide +kernel

/-! ### Documents -/

/-- Whether a file is a document. -/
def SourceFile.IsDocument (f : SourceFile) : Prop :=
  ((Text.decode? f.content).bind Yaml.readRecord?).isSome

theorem SourceFile.IsDocument.zero_notMem {f : SourceFile} (h : f.IsDocument) :
    0 ∉ f.content := by
  obtain ⟨v, hv⟩ := Option.isSome_iff_exists.mp h
  obtain ⟨s, hs, hread⟩ := Option.bind_eq_some_iff.mp hv
  intro hzero
  cases Yaml.isAllowed_of_readRecord? hread _ (Text.zero_mem_of_decode? hs hzero)

/-- Where all files are documents, a sync rebuilds a database exactly if it is new or the files are
not those of the last sync. -/
theorem History.rebuilt_iff_of_isDocument {p : Project} {s : List SourceFile}
    {seen : List (List SourceFile)} {files files' : Files} {now : String} {d : Database}
    {stats : SyncStats} (h : History p (s :: seen) files)
    (hs : PlainPaths s ∧ ∀ f ∈ s, f.IsDocument)
    (ht : PlainPaths (p.sources files) ∧ ∀ f ∈ p.sources files, f.IsDocument)
    (hcollision : catalogFingerprint s = catalogFingerprint (p.sources files) →
      fingerprintInput s = fingerprintInput (p.sources files))
    (hsync : p.syncDatabase files now = .ok (d, stats, files')) :
    stats.rebuilt = true ↔ p.OpensNew files ∨ s ≠ p.sources files := by
  rw [h.rebuilt_iff hcollision hsync, Ne, Ne, eq_iff_fingerprintInput_eq hs.1 ht.1,
    and_iff_left (sameZeros_of_notMem (fun f hf ↦ (hs.2 f hf).zero_notMem)
      fun f hf ↦ (ht.2 f hf).zero_notMem)]

end PipingAssembly
