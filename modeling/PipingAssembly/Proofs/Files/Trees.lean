import PipingAssembly.Files.Tree
import PipingAssembly.Proofs.Results

/-!
# What a change of a file tree leaves as it is

An entry that is put at a place is found there and nowhere else. Below any other directory the YAML
files stay the same. Making directories only puts in directories on the way, and writing a file
changes the content of no other one.
-/

namespace PipingAssembly.FileTree

variable {α : Type}

private theorem lookup_insertEntry_self (p : Path) (e : FileEntry α)
    (entries : List (Path × FileEntry α)) : (insertEntry p e entries).lookup p = some e := by
  induction entries with
  | nil => simp [insertEntry]
  | cons entry rest ih =>
    obtain ⟨q, f⟩ := entry
    rw [insertEntry]
    split
    · exact List.lookup_cons_self
    · split
      · exact List.lookup_cons_self
      · rename_i hne _
        rw [List.lookup_cons, beq_false_of_ne hne]
        exact ih

private theorem lookup_insertEntry_of_ne {p q : Path} (h : q ≠ p) (e : FileEntry α)
    (entries : List (Path × FileEntry α)) :
    (insertEntry p e entries).lookup q = entries.lookup q := by
  induction entries with
  | nil => simp [insertEntry, List.lookup_cons, beq_false_of_ne h]
  | cons entry rest ih =>
    obtain ⟨r, f⟩ := entry
    rw [insertEntry]
    split
    case isTrue heq =>
      subst heq
      rw [List.lookup_cons, List.lookup_cons, beq_false_of_ne h]
    case isFalse =>
      split
      · rw [List.lookup_cons, beq_false_of_ne h]
      · rw [List.lookup_cons, List.lookup_cons, ih]

/-- An entry that is put at a place below the top stands there. -/
theorem entry?_insert_self (t : FileTree α) {p : Path} (h : p ≠ []) (e : FileEntry α) :
    FileTree.entry? (t.insert p e) p = some e := by
  rw [FileTree.entry?, if_neg h]
  exact lookup_insertEntry_self p e t.entries

/-- An entry that is put at a place leaves what stands at other places. -/
theorem entry?_insert_of_ne (t : FileTree α) {p q : Path} (h : q ≠ p) (e : FileEntry α) :
    FileTree.entry? (t.insert p e) q = t.entry? q := by
  rw [FileTree.entry?, FileTree.entry?]
  split
  · rfl
  · exact lookup_insertEntry_of_ne h e t.entries

/-- What is below a directory stays as it is when an entry is put elsewhere. -/
theorem within_insert (t : FileTree α) {place p : Path} (h : ¬place <+: p) (e : FileEntry α) :
    (t.insert p e).within place = t.within place := by
  let inside : Path × FileEntry α → Bool := fun entry ↦ place.isPrefixOf entry.1
  have hdrop : ∀ (f : FileEntry α) (rest : List (Path × FileEntry α)),
      ((p, f) :: rest).filter inside = rest.filter inside := fun f rest ↦
    List.filter_cons_of_neg fun hbelow ↦ h (List.isPrefixOf_iff_prefix.mp hbelow)
  suffices hentries : ∀ entries : List (Path × FileEntry α),
      (insertEntry p e entries).filter inside = entries.filter inside from hentries t.entries
  intro entries
  induction entries with
  | nil => exact hdrop e []
  | cons entry rest ih =>
    obtain ⟨q, f⟩ := entry
    rw [insertEntry]
    split
    case isTrue heq =>
      subst heq
      rw [hdrop, hdrop]
    case isFalse =>
      split
      · rw [hdrop]
      · rw [List.filter_cons, List.filter_cons, ih]

theorem yamlFiles_insert (t : FileTree α) {place p : Path} (h : ¬place <+: p) (e : FileEntry α) :
    (t.insert p e).yamlFiles place = t.yamlFiles place := by
  rw [yamlFiles, yamlFiles, within_insert t h]

theorem mem_yamlFiles {t : FileTree α} {place p : Path} :
    p ∈ t.yamlFiles place ↔ place <+: p ∧ p.getLast?.any isYamlName = true ∧
      ∃ e, (p, e) ∈ t.entries ∧ e.isDirectory = false := by
  simp only [yamlFiles, within, List.mem_filterMap, List.mem_filter, List.isPrefixOf_iff_prefix]
  constructor
  · rintro ⟨⟨q, e⟩, ⟨hmem, hbelow⟩, hq⟩
    obtain ⟨hfile, hq⟩ := Option.ite_none_right_eq_some.mp hq
    obtain rfl := Option.some.inj hq
    rw [Bool.and_eq_true, Bool.not_eq_true'] at hfile
    exact ⟨hbelow, hfile.2, e, hmem, hfile.1⟩
  · rintro ⟨hbelow, hname, e, hmem, hfile⟩
    exact ⟨(p, e), ⟨hmem, hbelow⟩, by simp [hfile, hname]⟩

theorem prefix_of_mem_yamlFiles {t : FileTree α} {place p : Path} (h : p ∈ t.yamlFiles place) :
    place <+: p :=
  (mem_yamlFiles.mp h).1

/-- What holds of a tree holds after directories have been made in it if it is kept by every new
directory on the way, which is put where nothing stood. -/
theorem createFrom_induction {P : FileTree α → Prop} {p names : Path}
    (hstep : ∀ (t : FileTree α) (q : Path), q <+: p ++ names → t.entry? q = none → P t →
      P (t.insert q .directory))
    {t t' : FileTree α} (ht : P t) (h : t.createFrom p names = .ok t') : P t' := by
  induction names generalizing p t with
  | nil =>
    obtain rfl := Except.ok.inj h
    exact ht
  | cons name names ih =>
    have hassoc : p ++ [name] ++ names = p ++ name :: names := List.append_assoc ..
    rw [createFrom] at h
    obtain ⟨entered, henter, h⟩ := bind_eq_ok_iff.mp h
    have hentered : P entered := by
      rw [enter] at henter
      split at henter
      · obtain rfl := Except.ok.inj henter
        exact ht
      · cases henter
      · rename_i hnone
        obtain rfl := Except.ok.inj henter
        exact hstep t _ (hassoc ▸ List.prefix_append _ _) hnone ht
    exact ih (fun t q hq ↦ hstep t q (hassoc ▸ hq)) hentered h

/-! ### Contents of files -/

section Contents

variable {t t' : FileTree α} {p q : Path}

theorem content?_insert_self (hp : p ≠ []) (e : FileEntry α) :
    FileTree.content? (t.insert p e) p = e.content? := by
  rw [FileTree.content?, entry?_insert_self t hp, Option.bind_some]

theorem content?_insert_of_ne (hq : q ≠ p) (e : FileEntry α) :
    FileTree.content? (t.insert p e) q = t.content? q := by
  rw [FileTree.content?, FileTree.content?, entry?_insert_of_ne t hq]

/-- Making directories leaves the contents of all files. -/
theorem content?_createDirectories (h : t.createDirectories p = .ok t') (q : Path) :
    t'.content? q = t.content? q := by
  refine createFrom_induction (P := fun made ↦ made.content? q = t.content? q) ?_ rfl h
  intro made r _ hnone hmade
  have hr : r ≠ [] := by
    rintro rfl
    rw [FileTree.entry?, if_pos rfl] at hnone
    cases hnone
  by_cases hq : q = r
  · subst hq
    rw [content?_insert_self hr, ← hmade, FileTree.content?, hnone]
    rfl
  · rw [content?_insert_of_ne hq, hmade]

private theorem eq_insert_of_write {content : α} (h : t.write p content = .ok t') :
    p ≠ [] ∧ t' = t.insert p (.file content) := by
  rw [write] at h
  split at h
  case isTrue => cases h
  case isFalse hplace => exact ⟨fun hp ↦ hplace (Or.inl hp), (Except.ok.inj h).symm⟩

/-- A file that has been written has its content. -/
theorem content?_writeWithin_self {content : α} (h : t.writeWithin p content = .ok t') :
    t'.content? p = some content := by
  obtain ⟨made, -, hwritten⟩ := bind_eq_ok_iff.mp h
  obtain ⟨hp, rfl⟩ := eq_insert_of_write hwritten
  exact content?_insert_self hp _

/-- Writing a file leaves the contents of all other files. -/
theorem content?_writeWithin_of_ne {content : α} (h : t.writeWithin p content = .ok t')
    (hq : q ≠ p) : t'.content? q = t.content? q := by
  obtain ⟨made, hmade, hwritten⟩ := bind_eq_ok_iff.mp h
  obtain ⟨-, rfl⟩ := eq_insert_of_write hwritten
  rw [content?_insert_of_ne hq, content?_createDirectories hmade]

/-- A place below a directory that holds something under a YAML name is that of a YAML file. -/
theorem mem_yamlFiles_of_content? {place : Path} {content : α} (hbelow : place <+: p)
    (hname : p.getLast?.any isYamlName = true) (h : t.content? p = some content) :
    p ∈ t.yamlFiles place := by
  have hp : p ≠ [] := by
    rintro rfl
    cases hname
  rw [FileTree.content?, FileTree.entry?, if_neg hp] at h
  obtain ⟨e, he, hcontent⟩ := Option.bind_eq_some_iff.mp h
  obtain ⟨l₁, l₂, hentries, -⟩ := List.lookup_eq_some_iff.mp he
  refine mem_yamlFiles.mpr ⟨hbelow, hname, e, by simp [hentries], ?_⟩
  cases e with
  | directory => cases hcontent
  | file content => rfl

end Contents

end PipingAssembly.FileTree
