import PipingAssembly.Proofs.Files.Trees

/-!
# Trees that grow

Making directories and writing files removes nothing from a tree: a directory is made where nothing
stands, and a file is written where no directory stands. So all entries stay but the files at the
places that are written.
-/

namespace PipingAssembly.FileTree

variable {α : Type} {t t' t'' : FileTree α} {puts : Path → α → Prop}

theorem content?_eq_none {q : Path} (h : t.contains q = false) : t.content? q = none := by
  rw [FileTree.content?, Option.not_isSome_iff_eq_none.mp (Bool.eq_false_iff.mp h)]
  rfl

/-- Whether a tree comes from another one by making directories where nothing stood, and by putting
given contents at given places, where no directory stood. -/
def Grows (t t' : FileTree α) (puts : Path → α → Prop) : Prop :=
  ∀ q, t'.entry? q = t.entry? q ∨
    (t.entry? q = none ∧ t'.entry? q = some .directory) ∨
    ∃ content, puts q content ∧ t.isDirectory q = false ∧ t'.entry? q = some (.file content)

namespace Grows

theorem refl (t : FileTree α) (puts : Path → α → Prop) : t.Grows t puts := fun _ ↦ Or.inl rfl

theorem trans (h : t.Grows t' puts) (h' : t'.Grows t'' puts) : t.Grows t'' puts := by
  intro q
  obtain heq' | ⟨hnone', hdir'⟩ | ⟨content, hputs, hfile', hentry'⟩ := h' q
  · rw [heq']
    exact h q
  · obtain heq | ⟨-, hdir⟩ | ⟨content, -, -, hentry⟩ := h q
    · exact Or.inr (Or.inl ⟨heq ▸ hnone', hdir'⟩)
    · rw [hdir] at hnone'
      cases hnone'
    · rw [hentry] at hnone'
      cases hnone'
  · refine Or.inr (Or.inr ⟨content, hputs, ?_, hentry'⟩)
    obtain heq | ⟨hnone, -⟩ | ⟨content, -, hfile, -⟩ := h q
    · rw [isDirectory, heq] at hfile'
      exact hfile'
    · rw [isDirectory, hnone]
      rfl
    · exact hfile

theorem mono {more : Path → α → Prop} (h : t.Grows t' puts)
    (hputs : ∀ q content, puts q content → more q content) : t.Grows t' more := by
  intro q
  obtain heq | hdir | ⟨content, hput, hentry⟩ := h q
  · exact Or.inl heq
  · exact Or.inr (Or.inl hdir)
  · exact Or.inr (Or.inr ⟨content, hputs q content hput, hentry⟩)

/-- Nothing is removed. -/
theorem contains (h : t.Grows t' puts) {q : Path} (hq : t.contains q = true) :
    t'.contains q = true := by
  rw [FileTree.contains] at hq ⊢
  obtain heq | ⟨hnone, -⟩ | ⟨content, -, -, hentry⟩ := h q
  · rw [heq]
    exact hq
  · rw [hnone] at hq
    cases hq
  · rw [hentry]
    rfl

/-- A file has the content it had, or one that was put there. -/
theorem content? (h : t.Grows t' puts) (q : Path) :
    t'.content? q = t.content? q ∨ ∃ content, puts q content ∧ t'.content? q = some content := by
  obtain heq | ⟨hnone, hdir⟩ | ⟨content, hputs, -, hentry⟩ := h q
  · rw [FileTree.content?, FileTree.content?, heq]
    exact Or.inl rfl
  · rw [FileTree.content?, FileTree.content?, hnone, hdir]
    exact Or.inl rfl
  · rw [FileTree.content?, hentry]
    exact Or.inr ⟨content, hputs, rfl⟩

end Grows

theorem grows_insert_directory {p : Path} (h : t.entry? p = none) (puts : Path → α → Prop) :
    t.Grows (t.insert p .directory) puts := by
  have hp : p ≠ [] := by
    rintro rfl
    cases h
  intro q
  by_cases hq : q = p
  · subst hq
    exact Or.inr (Or.inl ⟨h, entry?_insert_self t hp _⟩)
  · exact Or.inl (entry?_insert_of_ne t hq _)

theorem grows_enter {p : Path} {name : String} (h : t.enter p name = .ok t')
    (puts : Path → α → Prop) : t.Grows t' puts := by
  rw [enter] at h
  split at h
  · obtain rfl := Except.ok.inj h
    exact .refl t puts
  · cases h
  · next hnone =>
    obtain rfl := Except.ok.inj h
    exact grows_insert_directory hnone puts

theorem grows_createDirectories {p : Path} (h : t.createDirectories p = .ok t')
    (puts : Path → α → Prop) : t.Grows t' puts :=
  createFrom_induction (P := fun made ↦ t.Grows made puts)
    (fun _ _ _ hnone hmade ↦ hmade.trans (grows_insert_directory hnone puts)) (.refl t puts) h

theorem grows_createParts {p : Path} {parts : List String} (h : t.createParts p parts = .ok t')
    (puts : Path → α → Prop) : t.Grows t' puts := by
  induction parts generalizing t p with
  | nil =>
    obtain rfl := Except.ok.inj h
    exact .refl t puts
  | cons part rest ih =>
    rw [createParts] at h
    split at h
    · exact ih h
    · split at h
      · exact ih h
      · obtain ⟨entered, henter, h⟩ := bind_eq_ok_iff.mp h
        exact (grows_enter henter puts).trans (ih h)

theorem grows_createAt {here : Path} {s : String} (h : t.createAt here s = .ok t')
    (puts : Path → α → Prop) : t.Grows t' puts :=
  grows_createParts h puts

section Write

variable {p : Path} {content : α} (h : t.write p content = .ok t')
include h

/-- A file is written where no directory stands. -/
private theorem write_eq_ok :
    p ≠ [] ∧ t.isDirectory p = false ∧ t' = t.insert p (.file content) := by
  rw [write] at h
  split at h
  case isTrue => cases h
  case isFalse hplace =>
    simp only [not_or, Bool.not_eq_true] at hplace
    exact ⟨hplace.1, hplace.2.1, (Except.ok.inj h).symm⟩

theorem grows_write (hputs : puts p content) : t.Grows t' puts := by
  obtain ⟨hp, hdirectory, rfl⟩ := write_eq_ok h
  intro q
  by_cases hq : q = p
  · subst hq
    exact Or.inr (Or.inr ⟨content, hputs, hdirectory, entry?_insert_self t hp _⟩)
  · exact Or.inl (entry?_insert_of_ne t hq _)

theorem content?_write_self : t'.content? p = some content := by
  obtain ⟨hp, -, rfl⟩ := write_eq_ok h
  exact content?_insert_self hp _

end Write

section WriteWithin

variable {p q : Path} {content : α} (h : t.writeWithin p content = .ok t')
include h

theorem grows_writeWithin (hputs : puts p content) : t.Grows t' puts := by
  obtain ⟨made, hmade, hwrite⟩ := bind_eq_ok_iff.mp h
  exact (grows_createDirectories hmade puts).trans (grows_write hwrite hputs)

/-- Writing a file leaves what stands elsewhere, but for the directories on the way. -/
theorem entry?_writeWithin_of_ne (hq : q ≠ p) (hway : ¬q <+: p.dropLast) :
    t'.entry? q = t.entry? q := by
  obtain ⟨made, hmade, hwrite⟩ := bind_eq_ok_iff.mp h
  obtain ⟨-, -, rfl⟩ := write_eq_ok hwrite
  rw [entry?_insert_of_ne made hq]
  refine createFrom_induction (P := fun made ↦ made.entry? q = t.entry? q) ?_ rfl hmade
  intro made r hr _ hmade
  have hqr : q ≠ r := by
    rintro rfl
    exact hway hr
  rw [entry?_insert_of_ne made hqr, hmade]

end WriteWithin

/-! ### Places that are there -/

/-- The way to a directory leads through directories. -/
private theorem isDirectory_of_follow? {p root : Path} {parts : List String}
    (h : t.follow? p parts = some root) (hroot : t.isDirectory root = true) :
    t.isDirectory p = true := by
  cases parts with
  | nil =>
    obtain rfl := Option.some.inj h
    exact hroot
  | cons part rest =>
    rw [follow?] at h
    split at h
    · cases h
    · next hdirectory => simpa using hdirectory

private theorem createParts_of_follow? {p root : Path} {parts : List String}
    (h : t.follow? p parts = some root) (hroot : t.isDirectory root = true) :
    t.createParts p parts = .ok t := by
  induction parts generalizing p with
  | nil => rfl
  | cons part rest ih =>
    have hdirectory := isDirectory_of_follow? h hroot
    rw [follow?, hdirectory] at h
    rw [createParts]
    simp only [Bool.not_true, Bool.false_eq_true, if_false] at h
    split
    · next hhere =>
      rw [if_pos hhere] at h
      exact ih h
    · next hhere =>
      rw [if_neg hhere] at h
      split
      · next hup =>
        rw [if_pos hup] at h
        exact ih h
      · next hup =>
        rw [if_neg hup] at h
        have hentered : t.enter p part = .ok t := by
          obtain ⟨e, he, hentered⟩ := (Option.any_eq_true _ _).mp (isDirectory_of_follow? h hroot)
          rw [enter, he]
          cases e with
          | directory => rfl
          | file content => cases hentered
        rw [hentered]
        exact ih h

/-- A tree that has a directory where a text leads stays as it is when this directory is made. -/
theorem createAt_of_locate? {here root : Path} {s : String} (h : t.locate? here s = some root)
    (hroot : t.isDirectory root = true) : t.createAt here s = .ok t := by
  rw [locate?] at h
  split at h
  · cases h
  · exact createParts_of_follow? h hroot

end PipingAssembly.FileTree
