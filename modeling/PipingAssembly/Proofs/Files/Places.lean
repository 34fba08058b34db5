import Mathlib.Data.List.Infix
import PipingAssembly.Proofs.Files.Trees
import PipingAssembly.Schema.Validation

/-!
# Places that their texts lead to

In a tree as a file system has it, where every entry has a name and stands in a directory, the text
of the place of an entry leads to this place, and the steps of the text go down its names. A tree
stays of this kind when directories are made and files are written.
-/

namespace PipingAssembly

/-! ### Parts of texts -/

namespace Text

variable {p : Char → Bool}

theorem splitWhere_ne_nil (cs : List Char) : splitWhere p cs ≠ [] := by
  cases cs with
  | nil => exact List.cons_ne_nil _ _
  | cons c cs =>
    rw [splitWhere]
    split
    · exact List.cons_ne_nil _ _
    · split <;> exact List.cons_ne_nil _ _

/-- A list without marks is one part. -/
theorem splitWhere_of_forall {cs : List Char} (h : ∀ c ∈ cs, p c = false) :
    splitWhere p cs = [cs] := by
  induction cs with
  | nil => rfl
  | cons c cs ih =>
    obtain ⟨hc, hcs⟩ := List.forall_mem_cons.mp h
    rw [splitWhere, ih hcs]
    exact if_neg (Bool.eq_false_iff.mp hc)

/-- A mark separates the parts in front of it from those behind it. -/
theorem splitWhere_append {m : Char} (hm : p m = true) (cs rest : List Char) :
    splitWhere p (cs ++ m :: rest) = splitWhere p cs ++ splitWhere p rest := by
  induction cs with
  | nil =>
    rw [List.nil_append, splitWhere, splitWhere]
    split
    · rename_i hnil
      exact absurd hnil (splitWhere_ne_nil rest)
    · rename_i hparts
      rw [if_pos hm, hparts]
      rfl
  | cons c cs ih =>
    rw [List.cons_append, splitWhere, splitWhere, ih]
    cases hparts : splitWhere p cs with
    | nil => exact absurd hparts (splitWhere_ne_nil cs)
    | cons part parts => by_cases hc : p c = true <;> simp [hc]

/-- Before the first mark stands the first part. -/
theorem splitWhere_append_cons {cs : List Char} (h : ∀ c ∈ cs, p c = false) {m : Char}
    (hm : p m = true) (rest : List Char) :
    splitWhere p (cs ++ m :: rest) = cs :: splitWhere p rest := by
  rw [splitWhere_append hm, splitWhere_of_forall h, List.singleton_append]

/-- Only nothing has nothing as its one part. -/
theorem eq_nil_of_splitWhere {cs : List Char} (h : splitWhere p cs = [[]]) : cs = [] := by
  cases cs with
  | nil => rfl
  | cons c cs =>
    rw [splitWhere] at h
    split at h
    · cases h
    · split at h <;> cases h

end Text

/-- A name with the extension of YAML files is that of one unless there is nothing in front. -/
theorem isYamlName_append {stem : String} (h : stem ≠ "") :
    isYamlName (stem ++ ".yaml") = true := by
  have hparts : Text.splitWhere (· == '.') (stem ++ ".yaml").toList =
      Text.splitWhere (· == '.') stem.toList ++ ["yaml".toList] := by
    rw [String.toList_append]
    exact Text.splitWhere_append rfl stem.toList "yaml".toList
  rw [isYamlName, hparts, List.reverse_append, List.reverse_singleton, List.singleton_append]
  cases hstem : (Text.splitWhere (· == '.') stem.toList).reverse with
  | nil => exact absurd (List.reverse_eq_nil_iff.mp hstem) (Text.splitWhere_ne_nil _)
  | cons part parts =>
    by_cases hpart : part = []
    · by_cases hparts : parts = []
      · rw [hpart, hparts, List.reverse_eq_iff] at hstem
        exact absurd (String.toList_eq_nil_iff.mp (Text.eq_nil_of_splitWhere hstem)) h
      · simp [hparts]
    · simp [hpart]

namespace PathText

/-- Whether a text is the name of an entry of a directory: no step of another kind and without
slashes. -/
def isName (s : String) : Bool := s != "" && s != "." && s != ".." && !s.toList.contains '/'

private theorem noSlash_of_isName {name : String} (h : isName name = true) :
    ∀ c ∈ name.toList, (c == '/') = false := by
  have hslash : '/' ∉ name.toList := by
    simp only [isName, Bool.and_eq_true, Bool.not_eq_true'] at h
    simpa using h.2
  intro c hc
  rw [beq_eq_false_iff_ne]
  rintro rfl
  exact hslash hc

/-- The parts of names between slashes are the names. -/
theorem parts_intercalate {names : List String} (hne : names ≠ [])
    (h : ∀ name ∈ names, isName name = true) : parts ("/".intercalate names) = names := by
  induction names with
  | nil => exact absurd rfl hne
  | cons name names ih =>
    obtain ⟨hname, hnames⟩ := List.forall_mem_cons.mp h
    have hslash := noSlash_of_isName hname
    cases names with
    | nil =>
      rw [String.intercalate_singleton, parts, Text.splitWhere_of_forall hslash, List.map_singleton,
        String.ofList_toList]
    | cons next names =>
      have hrest := ih (List.cons_ne_nil _ _) hnames
      rw [parts] at hrest ⊢
      rw [String.intercalate_cons_cons, String.toList_append, String.toList_append,
        List.append_assoc, show "/".toList = ['/'] from rfl, List.singleton_append,
        Text.splitWhere_append_cons hslash rfl, List.map_cons, String.ofList_toList, hrest]

theorem isAbsolute_text (p : Path) : isAbsolute p.text = true := by
  rw [isAbsolute, Path.text, String.toList_append]
  rfl

variable {p : Path} (hne : p ≠ []) (h : ∀ name ∈ p, isName name = true)
include hne h

/-- The text of a place begins at the top and goes down the names of the place. -/
theorem parts_text : parts p.text = "" :: p := by
  have hrest := parts_intercalate hne h
  rw [parts] at hrest ⊢
  rw [Path.text, String.toList_append, show "/".toList = [] ++ ['/'] from rfl, List.append_assoc,
    List.singleton_append,
    Text.splitWhere_append_cons (List.forall_mem_nil fun c ↦ (c == '/') = false) rfl,
    List.map_cons, hrest]

theorem names_text : names p.text = "" :: p := by
  have hsteps : p.filterMap (Step.ofPart? false) = p.map Step.down := by
    rw [← List.filterMap_eq_map]
    apply List.filterMap_congr
    intro name hname
    have hname := h name hname
    simp only [isName, Bool.and_eq_true, bne_iff_ne, ne_eq] at hname
    obtain ⟨⟨⟨hempty, hhere⟩, hup⟩, -⟩ := hname
    simp [Step.ofPart?, hempty, hhere, hup]
  rw [names, steps, parts_text hne h]
  simp only [isAbsolute_text, if_true, hsteps, List.singleton_append, List.map_cons, List.map_map]
  rw [List.cons.injEq]
  exact ⟨rfl, List.map_id p⟩

end PathText

/-! ### Trees -/

namespace FileTree

variable {α : Type}

/-- Whether a tree is one that a file system may have: every entry is reached by names, through
directories. -/
def isRooted (t : FileTree α) : Bool :=
  t.entries.all fun e ↦
    e.1.all PathText.isName && e.1.inits.all fun q ↦ q == e.1 || t.isDirectory q

theorem isRooted_iff {t : FileTree α} : t.isRooted = true ↔ ∀ e ∈ t.entries,
    (∀ name ∈ e.1, PathText.isName name = true) ∧
      ∀ q, q <+: e.1 → q ≠ e.1 → t.isDirectory q = true := by
  simp only [isRooted, List.all_eq_true, Bool.and_eq_true, Bool.or_eq_true, beq_iff_eq,
    List.mem_inits, or_iff_not_imp_left]

/-- The way down through directories ends at the place of the names. -/
theorem follow?_of_names (t : FileTree α) {names : List String}
    (hnames : ∀ name ∈ names, PathText.isName name = true) (p : Path)
    (hdirs : ∀ q, q <+: names → q ≠ names → t.isDirectory (p ++ q) = true) :
    t.follow? p names = some (p ++ names) := by
  induction names generalizing p with
  | nil => rw [follow?, List.append_nil]
  | cons name names ih =>
    obtain ⟨hname, hrest⟩ := List.forall_mem_cons.mp hnames
    have hdir := hdirs [] List.nil_prefix (List.cons_ne_nil _ _).symm
    rw [List.append_nil] at hdir
    simp only [PathText.isName, Bool.and_eq_true, bne_iff_ne, ne_eq] at hname
    obtain ⟨⟨⟨hempty, hhere⟩, hup⟩, -⟩ := hname
    rw [follow?, hdir]
    simp only [Bool.not_true, Bool.false_eq_true, if_false, Bool.or_eq_true, beq_iff_eq, hempty,
      hhere, hup, or_self]
    rw [ih hrest, List.append_assoc, List.singleton_append]
    intro q hq hne
    rw [List.append_assoc, List.singleton_append]
    exact hdirs _ (List.cons_prefix_cons.mpr ⟨rfl, hq⟩) fun heq ↦ hne (List.cons.inj heq).2

section YamlFiles

variable {t : FileTree α} (ht : t.isRooted = true) {place p : Path} (hp : p ∈ t.yamlFiles place)
include ht hp

/-- The place of a file has names. -/
theorem isName_of_mem_yamlFiles : p ≠ [] ∧ ∀ name ∈ p, PathText.isName name = true := by
  obtain ⟨-, hname, e, hmem, -⟩ := mem_yamlFiles.mp hp
  refine ⟨?_, (isRooted_iff.mp ht _ hmem).1⟩
  rintro rfl
  cases hname

/-- The text of the place of a file leads to the file. -/
theorem locate?_text (here : Path) : t.locate? here p.text = some p := by
  obtain ⟨hne, hnames⟩ := isName_of_mem_yamlFiles ht hp
  obtain ⟨-, -, e, hmem, -⟩ := mem_yamlFiles.mp hp
  have hdirs := (isRooted_iff.mp ht _ hmem).2
  have hparts := PathText.parts_text hne hnames
  have habsolute : PathText.isAbsolute p.text = true := PathText.isAbsolute_text p
  have htext : p.text ≠ "" := by
    intro hempty
    rw [hempty] at habsolute
    cases habsolute
  have htop : t.isDirectory [] = true := rfl
  rw [locate?, hparts, habsolute, if_neg (by simpa using htext), if_pos rfl, follow?, htop]
  simpa using follow?_of_names t hnames [] (by simpa using hdirs)

end YamlFiles

/-! ### Changes of trees -/

private theorem mem_insertEntry {p : Path} {e : FileEntry α} {entries : List (Path × FileEntry α)}
    {f : Path × FileEntry α} (h : f ∈ insertEntry p e entries) : f = (p, e) ∨ f ∈ entries := by
  induction entries with
  | nil => exact Or.inl (List.mem_singleton.mp h)
  | cons g rest ih =>
    rw [insertEntry] at h
    split at h
    · exact (List.mem_cons.mp h).imp_right (List.mem_cons_of_mem _)
    · split at h
      · exact List.mem_cons.mp h
      · obtain rfl | h := List.mem_cons.mp h
        · exact Or.inr List.mem_cons_self
        · exact (ih h).imp_right (List.mem_cons_of_mem _)

section Changes

variable {t t' : FileTree α} (ht : t.isRooted = true)
include ht

/-- A directory of a rooted tree is reached by names, through directories. -/
private theorem directory_of_isRooted {p : Path} (hp : t.isDirectory p = true) :
    (∀ name ∈ p, PathText.isName name = true) ∧ ∀ q, q <+: p → t.isDirectory q = true := by
  by_cases hne : p = []
  · subst hne
    refine ⟨nofun, fun q hq ↦ ?_⟩
    rw [List.prefix_nil.mp hq]
    rfl
  · obtain ⟨e, he, -⟩ := (Option.any_eq_true _ _).mp hp
    rw [FileTree.entry?, if_neg hne] at he
    obtain ⟨l₁, l₂, hentries, -⟩ := List.lookup_eq_some_iff.mp he
    obtain ⟨hnames, hdirs⟩ := isRooted_iff.mp ht (p, e) (by simp [hentries])
    refine ⟨hnames, fun q hq ↦ ?_⟩
    by_cases heq : q = p
    · exact heq ▸ hp
    · exact hdirs q hq heq

/-- A tree stays rooted when an entry is put under a name into a directory, and a directory is only
replaced by a directory. -/
theorem isRooted_insert {p : Path} (hp : t.isDirectory p = true) {name : String}
    (hname : PathText.isName name = true) {e : FileEntry α}
    (hkeep : t.isDirectory (p ++ [name]) = true → e.isDirectory = true) :
    (t.insert (p ++ [name]) e).isRooted = true := by
  have hne : p ++ [name] ≠ [] := List.append_ne_nil_of_right_ne_nil _ (List.cons_ne_nil _ _)
  have hdir : ∀ q, t.isDirectory q = true → (t.insert (p ++ [name]) e).isDirectory q = true := by
    intro q hq
    by_cases heq : q = p ++ [name]
    · subst heq
      rw [isDirectory, entry?_insert_self t hne]
      exact hkeep hq
    · rw [isDirectory, entry?_insert_of_ne t heq]
      exact hq
  obtain ⟨hnames, hdirs⟩ := directory_of_isRooted ht hp
  rw [isRooted_iff]
  intro f hf
  obtain rfl | hf := mem_insertEntry hf
  · refine ⟨List.forall_mem_append.mpr ⟨hnames, List.forall_mem_singleton.mpr hname⟩, ?_⟩
    intro q hq hother
    obtain heq | hq := List.prefix_concat_iff.mp hq
    · exact absurd heq hother
    · exact hdir q (hdirs q hq)
  · obtain ⟨hnames', hdirs'⟩ := isRooted_iff.mp ht f hf
    exact ⟨hnames', fun q hq hother ↦ hdir q (hdirs' q hq hother)⟩

private theorem isRooted_enter {p : Path} (hp : t.isDirectory p = true) {name : String}
    (hname : PathText.isName name = true) (h : t.enter p name = .ok t') :
    t'.isRooted = true ∧ t'.isDirectory (p ++ [name]) = true := by
  rw [enter] at h
  split at h
  case h_1 hentry =>
    obtain rfl := Except.ok.inj h
    exact ⟨ht, by rw [isDirectory, hentry]; rfl⟩
  case h_2 => cases h
  case h_3 =>
    obtain rfl := Except.ok.inj h
    refine ⟨isRooted_insert ht hp hname fun _ ↦ rfl, ?_⟩
    rw [isDirectory, entry?_insert_self t (by simp)]
    rfl

private theorem isRooted_createFrom {p names : Path} (hp : t.isDirectory p = true)
    (hnames : ∀ name ∈ names, PathText.isName name = true) (h : t.createFrom p names = .ok t') :
    t'.isRooted = true := by
  induction names generalizing t p with
  | nil =>
    obtain rfl := Except.ok.inj h
    exact ht
  | cons name names ih =>
    obtain ⟨hname, hrest⟩ := List.forall_mem_cons.mp hnames
    rw [createFrom] at h
    obtain ⟨entered, henter, h⟩ := bind_eq_ok_iff.mp h
    obtain ⟨hentered, hdir⟩ := isRooted_enter ht hp hname henter
    exact ih hentered hdir hrest h

/-- A tree stays rooted when directories are made at a place of names. -/
theorem isRooted_createDirectories {p : Path} (hp : ∀ name ∈ p, PathText.isName name = true)
    (h : t.createDirectories p = .ok t') : t'.isRooted = true :=
  isRooted_createFrom ht rfl hp h

/-- A tree stays rooted when a file is written at a place of names. -/
theorem isRooted_write {p : Path} (hp : ∀ name ∈ p, PathText.isName name = true) {content : α}
    (h : t.write p content = .ok t') : t'.isRooted = true := by
  rw [write] at h
  split at h
  case isTrue => cases h
  case isFalse hplace =>
    obtain rfl := Except.ok.inj h
    simp only [not_or, Bool.not_eq_true', Bool.not_eq_false] at hplace
    obtain ⟨hne, hfile, hdir⟩ := hplace
    have hlast := List.dropLast_append_getLast hne
    rw [← hlast] at hfile ⊢
    exact isRooted_insert ht hdir (hp _ (List.getLast_mem hne)) fun hdirectory ↦
      absurd hdirectory hfile

/-- A tree stays rooted when a file is written at a place of names, with the directories on the way
there. -/
theorem isRooted_writeWithin {p : Path} (hp : ∀ name ∈ p, PathText.isName name = true) {content : α}
    (h : t.writeWithin p content = .ok t') : t'.isRooted = true := by
  obtain ⟨made, hmade, hwritten⟩ := bind_eq_ok_iff.mp h
  have habove : ∀ name ∈ p.dropLast, PathText.isName name = true :=
    fun _ hname ↦ hp _ (List.mem_of_mem_dropLast hname)
  exact isRooted_write (isRooted_createDirectories ht habove hmade) hp hwritten

end Changes

end FileTree

namespace RecordKind

/-- The top of a tree has no kind. -/
theorem ofPath?_names_text {p : Path} (hne : p ≠ [])
    (h : ∀ name ∈ p, PathText.isName name = true) :
    ofPath? (PathText.names p.text) = ofPath? p := by
  rw [PathText.names_text hne h, ofPath?, ofPath?, List.dropLast_cons_of_ne_nil hne,
    List.reverse_cons, List.findSome?_append]
  simp

end RecordKind

end PipingAssembly
