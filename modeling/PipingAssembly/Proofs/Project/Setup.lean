import Mathlib.Data.List.Nodup
import PipingAssembly.Project.Basic
import PipingAssembly.Proofs.Files.Growth

/-!
# What setting a project up leaves as it is

A project is set up by making directories and by writing the file of settings and a file for each
record of the first catalog. No other file changes, whether the setup is forced or not, and whether
it ends well or stops half-way. A file of a user that stands where a record of the first catalog
goes is written over, even if nothing is forced: only the directory of settings is looked for.
-/

namespace PipingAssembly.Project

/-! ### Steps -/

/-- The place of the file that a step writes. -/
def SetupStep.place? : SetupStep → Option Path
  | .directory _ => none
  | .file q _ => some q

/-- Whether one of some steps writes a content to a place. -/
def Writes (steps : List SetupStep) (q : Path) (content : FileContent) : Prop :=
  ∃ s, SetupStep.file q s ∈ steps ∧ content = .text s

theorem grows_apply {files after : Files} {step : SetupStep} (h : step.apply files = .ok after) :
    files.Grows after (Writes [step]) := by
  cases step with
  | directory p => exact FileTree.grows_createDirectories h _
  | file p s => exact FileTree.grows_write h ⟨s, List.mem_singleton_self _, rfl⟩

/-- Steps change no file but those that they write, however far they come. -/
theorem grows_setup {files after : Files} {steps : List SetupStep} {stop : Option FileFault}
    (h : setup files steps = (after, stop)) : files.Grows after (Writes steps) := by
  induction steps generalizing files with
  | nil =>
    obtain ⟨rfl, -⟩ := Prod.mk.inj h
    exact .refl _ _
  | cons step steps ih =>
    rw [setup] at h
    split at h
    · next next happly =>
      have hstep := (grows_apply happly).mono fun q content ⟨s, hs, hcontent⟩ ↦
        (⟨s, List.mem_cons.mpr (Or.inl (List.mem_singleton.mp hs)), hcontent⟩ :
          Writes (step :: steps) q content)
      exact hstep.trans <| (ih h).mono fun _ _ ⟨s, hs, hcontent⟩ ↦
        ⟨s, List.mem_cons_of_mem step hs, hcontent⟩
    · obtain ⟨rfl, -⟩ := Prod.mk.inj h
      exact .refl _ _

private theorem mem_places {steps : List SetupStep} {q : Path} {content : FileContent}
    (h : Writes steps q content) : q ∈ steps.filterMap SetupStep.place? := by
  obtain ⟨s, hs, -⟩ := h
  exact List.mem_filterMap.mpr ⟨_, hs, rfl⟩

/-- Steps that end well and write to distinct places leave what they wrote. -/
theorem content?_setup {files after : Files} {steps : List SetupStep}
    (hplaces : (steps.filterMap SetupStep.place?).Nodup) (h : setup files steps = (after, none))
    {q : Path} {content : FileContent} (hwrites : Writes steps q content) :
    after.content? q = some content := by
  obtain ⟨s, hs, rfl⟩ := hwrites
  induction steps generalizing files with
  | nil => exact absurd hs List.not_mem_nil
  | cons step steps ih =>
    rw [setup] at h
    split at h
    case h_2 => cases h
    case h_1 next happly =>
      obtain rfl | hs := List.mem_cons.mp hs
      · have hnew : q ∉ steps.filterMap SetupStep.place? := (List.nodup_cons.mp hplaces).1
        obtain hkept | ⟨content, hwrites, -⟩ := (grows_setup h).content? q
        · exact hkept.trans (FileTree.content?_write_self happly)
        · exact absurd (mem_places hwrites) hnew
      · refine ih (hplaces.sublist ?_) h hs
        exact (List.sublist_cons_self step steps).filterMap _

/-! ### Setups of projects -/

/-- Whether setting a project up writes a content to a place. -/
def SetsUp (p : Project) : Path → FileContent → Prop := Writes p.setupSteps

private theorem places_setupSteps (p : Project) : p.setupSteps.filterMap SetupStep.place? =
    p.configPath :: (seedRules.map (p.rulePath ·.id) ++ seedParts.map (p.partPath ·.id)) := by
  have hrules : (seedRules.map fun r ↦ SetupStep.file (p.rulePath r.id)
      (Yaml.render r.toValue)).filterMap SetupStep.place? = seedRules.map (p.rulePath ·.id) := by
    rw [List.filterMap_map, ← List.filterMap_eq_map]
    rfl
  have hparts : (seedParts.map fun q ↦ SetupStep.file (p.partPath q.id)
      (Yaml.render q.toValue)).filterMap SetupStep.place? = seedParts.map (p.partPath ·.id) := by
    rw [List.filterMap_map, ← List.filterMap_eq_map]
    rfl
  rw [setupSteps, List.filterMap_append, List.filterMap_append, hrules, hparts]
  rfl

/-- The files of a new project have distinct places. -/
theorem nodup_places_setupSteps (p : Project) :
    (p.setupSteps.filterMap SetupStep.place?).Nodup := by
  have hroot : p.setupSteps.filterMap SetupStep.place? =
      ((Project.mk []).setupSteps.filterMap SetupStep.place?).map (p.root ++ ·) := by
    rw [places_setupSteps, places_setupSteps, List.map_cons, List.map_append, List.map_map,
      List.map_map]
    simp [configPath, settingsDir, rulePath, rulesDir, partPath, partsDir,
      Function.comp_def]
  have htop : ((Project.mk []).setupSteps.filterMap SetupStep.place?).Nodup := by
    rw [places_setupSteps]
    decide +kernel
  rw [hroot]
  exact List.Nodup.map (List.append_right_injective p.root) htop

/-- After a setup that ended well all files are as before exactly if those in its places had the
content already that is written there. -/
private theorem contents_iff_of_setup {p : Project} {files made after : Files}
    (hgrows : files.Grows after p.SetsUp) (hsetup : setup made p.setupSteps = (after, none)) :
    (∀ q content, files.content? q = some content → after.content? q = some content) ↔
      ∀ q content written, files.content? q = some content → p.SetsUp q written →
        content = written := by
  constructor
  · intro hkept q content written hcontent hwrites
    have hwritten := content?_setup p.nodup_places_setupSteps hsetup hwrites
    exact Option.some.inj ((hkept q content hcontent).symm.trans hwritten)
  · intro hsame q content hcontent
    obtain hkept | ⟨written, hwrites, hwritten⟩ := hgrows.content? q
    · rw [hkept, hcontent]
    · rw [hwritten, hsame q content written hcontent hwrites]

section Init

variable {files after : Files} {here : Path} {s : String} {force : Bool}
  {result : Except ProjectError Project} (h : init files here s force = (after, result))
include h

/-- A setup changes nothing, as there is no directory or one with settings, or it takes its steps
in the directory that is there or was made. -/
private theorem init_cases :
    (after = files ∧ (∃ fault, result = .error (.file fault)) ∧
      ∀ root, files.locate? here s = some root → files.isDirectory root = false) ∨
    ∃ made p, files.createAt here s = .ok made ∧ made.locate? here s = some p.root ∧
      ((made.contains p.settingsDir = true ∧ force = false ∧ after = files ∧
          result = .error (.alreadyExists p.root)) ∨
        ((made.contains p.settingsDir = true → force = true) ∧ ∃ stop,
          setup made p.setupSteps = (after, stop) ∧
            result = match stop with
              | none => .ok p
              | some fault => .error (.file fault))) := by
  have hthere : ∀ root, files.locate? here s = some root → files.isDirectory root ≠ false →
      files.createAt here s = .ok files := fun root hlocate hroot ↦
    FileTree.createAt_of_locate? hlocate (by simpa using hroot)
  rw [init] at h
  split at h
  case h_1 fault hfault =>
    obtain ⟨rfl, rfl⟩ := Prod.mk.inj h
    refine Or.inl ⟨rfl, ⟨fault, rfl⟩, fun root hlocate ↦ by_contra fun hroot ↦ ?_⟩
    rw [hthere root hlocate hroot] at hfault
    cases hfault
  case h_2 made hmade =>
    split at h
    case h_1 hnone =>
      obtain ⟨rfl, rfl⟩ := Prod.mk.inj h
      refine Or.inl ⟨rfl, ⟨_, rfl⟩, fun root hlocate ↦ by_contra fun hroot ↦ ?_⟩
      rw [hthere root hlocate hroot] at hmade
      obtain rfl := Except.ok.inj hmade
      rw [hlocate] at hnone
      cases hnone
    case h_2 root hroot =>
      refine Or.inr ⟨made, ⟨root⟩, hmade, hroot, ?_⟩
      dsimp only at h
      split at h
      case isTrue hexists =>
        obtain ⟨rfl, rfl⟩ := Prod.mk.inj h
        rw [Bool.and_eq_true, Bool.not_eq_true'] at hexists
        exact Or.inl ⟨hexists.1, hexists.2, rfl, rfl⟩
      case isFalse hexists =>
        refine Or.inr ⟨fun hthere ↦ by simpa [hthere] using hexists, ?_⟩
        split at h
        case h_1 hsetup =>
          obtain ⟨rfl, rfl⟩ := Prod.mk.inj h
          exact ⟨none, hsetup, rfl⟩
        case h_2 fault hsetup =>
          obtain ⟨rfl, rfl⟩ := Prod.mk.inj h
          exact ⟨some fault, hsetup, rfl⟩

/-- Setting a project up without force fails if its directory of settings is there, and nothing
changes. Else, and with force, no file changes but those of the settings and of the records of the
first catalog, nothing is removed, and what is added are these files and directories. So after a
setup that ends well all files are as they were exactly if those at these places had the content
already that is written there. -/
theorem contents_init :
    (∀ p : Project, files.locate? here s = some p.root → files.isDirectory p.root = true →
      files.contains p.settingsDir = true → force = false →
        after = files ∧ result = .error (.alreadyExists p.root)) ∧
    (∃ p : Project, (∀ root, files.locate? here s = some root → files.isDirectory root = true →
        p.root = root) ∧ (∀ q, result = .ok q → q = p) ∧ files.Grows after p.SetsUp) ∧
    ∀ p, result = .ok p →
      ((∀ q content, files.content? q = some content → after.content? q = some content) ↔
        ∀ q content written, files.content? q = some content → p.SetsUp q written →
          content = written) := by
  obtain ⟨rfl, ⟨fault, rfl⟩, hnone⟩ | ⟨made, p, hmade, hlocate, hcases⟩ := init_cases h
  · have habsurd : ∀ root, after.locate? here s = some root → after.isDirectory root ≠ true :=
      fun root hroot ↦ by rw [hnone root hroot]; decide
    exact ⟨fun q hq hroot ↦ absurd hroot (habsurd q.root hq),
      ⟨⟨[]⟩, fun root hroot hdirectory ↦ absurd hdirectory (habsurd root hroot), nofun,
        .refl after _⟩, nofun⟩
  · have hthere : ∀ root, files.locate? here s = some root → files.isDirectory root = true →
        made = files ∧ p.root = root := by
      intro root hroot hdirectory
      rw [FileTree.createAt_of_locate? hroot hdirectory] at hmade
      obtain rfl := Except.ok.inj hmade
      exact ⟨rfl, Option.some.inj (hlocate.symm.trans hroot)⟩
    obtain ⟨hexists, hforce, rfl, rfl⟩ | ⟨hexists, stop, hsetup, rfl⟩ := hcases
    · refine ⟨fun q hq hroot _ _ ↦ ⟨rfl, ?_⟩, ⟨p, fun root hroot hdirectory ↦
        (hthere root hroot hdirectory).2, nofun, .refl after _⟩, nofun⟩
      rw [(hthere q.root hq hroot).2]
    · have hgrows : files.Grows after p.SetsUp :=
        (FileTree.grows_createAt hmade _).trans (grows_setup hsetup)
      refine ⟨fun q hq hroot hsettings hforce ↦ ?_, ⟨p, fun root hroot hdirectory ↦
        (hthere root hroot hdirectory).2, fun q hq ↦ ?_, hgrows⟩, fun q hq ↦ ?_⟩
      · obtain ⟨rfl, hpq⟩ := hthere q.root hq hroot
        rw [settingsDir, ← hpq] at hsettings
        rw [hexists hsettings] at hforce
        cases hforce
      · cases stop with
        | none => exact (Except.ok.inj hq).symm
        | some fault => cases hq
      · cases stop with
        | some fault => cases hq
        | none =>
          obtain rfl := Except.ok.inj hq
          exact contents_iff_of_setup hgrows hsetup

end Init

private def seedBolt : Part :=
  { id := "M16", name := some "Hex bolt M16x60", family := .bolt, metadata := [("thread", "M16")] }

private def ownBolt : FileContent := .text "part_id: M16\nfamily: bolt\n"

private def ownCatalog : Files := ⟨[
  (["catalog"], .directory), (["catalog", "parts"], .directory),
  (["catalog", "parts", "M16.yaml"], .file ownBolt)]⟩

/-- A user's part in the place of one of the first catalog is lost without force. -/
theorem contents_init_bolt : ∃ after, init ownCatalog [] "/" false = (after, .ok ⟨[]⟩) ∧
    ¬∀ q content, ownCatalog.content? q = some content → after.content? q = some content := by
  have hinit : init ownCatalog [] "/" false = ((init ownCatalog [] "/" false).1, .ok ⟨[]⟩) :=
    Prod.ext rfl (show (init _ _ _ _).2 = _ by decide +kernel)
  have hseed : seedBolt ∈ seedParts := by simp [seedParts, seedBolt]
  have hwrites : (Project.mk []).SetsUp ((Project.mk []).partPath "M16")
      (.text (Yaml.render seedBolt.toValue)) :=
    ⟨_, List.mem_append_right _ (List.mem_map_of_mem hseed), rfl⟩
  have hown : ownCatalog.content? ((Project.mk []).partPath "M16") = some ownBolt := by
    decide +kernel
  refine ⟨_, hinit, ?_⟩
  rw [(contents_init hinit).2.2 ⟨[]⟩ rfl]
  intro hsame
  exact absurd (hsame _ _ _ hown hwrites) (by decide +kernel)

end PipingAssembly.Project
