import PipingAssembly.Proofs.Files.Places

/-!
# Spellings of paths

Texts of paths are sorted by their steps. Texts with the same steps lead to one place, if they lead
anywhere, so a list of texts that lead to different places has one sorted form.
-/

namespace PipingAssembly

/-! ### The order of paths -/

namespace PathText

namespace Step

/-- The name that a step goes down by. -/
def name : Step → String
  | down name => name
  | _ => ""

theorem compare_eq : Step.compare = compareLex (compareOn rank) (compareOn name) := by
  funext s t
  cases s <;> cases t <;> rfl

instance : Std.TransCmp Step.compare := by
  rw [compare_eq]
  infer_instance

instance : Std.LawfulEqCmp Step.compare where
  eq_of_compare {s t} h := by
    have hnames : ∀ a b : String, Step.compare (down a) (down b) = Ord.compare a b := fun _ _ ↦ rfl
    cases s <;> cases t <;> first | rfl | cases h | skip
    rw [hnames] at h
    rw [Std.LawfulEqCmp.eq_of_compare h]

/-- The place that a step leads to from another one. -/
def move (p : Path) : Step → Path
  | top => []
  | here => p
  | up => p.dropLast
  | down name => p ++ [name]

end Step

theorem compareSteps_eq : compareSteps = List.compareLex Step.compare := by
  funext ss ts
  induction ss generalizing ts with
  | nil => cases ts <;> rfl
  | cons s ss ih =>
    cases ts with
    | nil => rfl
    | cons t ts => rw [compareSteps, ih, List.compareLex_cons_cons]

private theorem precedes_iff {s t : String} :
    precedes s t = true ↔ (List.compareLex Step.compare (steps s) (steps t)).isLE = true := by
  rw [precedes, compareSteps_eq]
  cases List.compareLex Step.compare (steps s) (steps t) <;> decide

theorem precedes_trans (s t u : String) (hst : precedes s t = true)
    (htu : precedes t u = true) : precedes s u = true := by
  rw [precedes_iff] at hst htu ⊢
  exact Std.TransCmp.isLE_trans hst htu

theorem precedes_total (s t : String) : (precedes s t || precedes t s) = true := by
  rw [Bool.or_eq_true, precedes_iff, precedes_iff]
  have hswap : List.compareLex Step.compare (steps t) (steps s) =
      (List.compareLex Step.compare (steps s) (steps t)).swap := Std.OrientedCmp.eq_swap
  rw [hswap]
  cases List.compareLex Step.compare (steps s) (steps t) <;> simp

/-- Texts each of which stands before the other one or beside it have the same steps. -/
theorem steps_eq_of_precedes {s t : String} (hst : precedes s t = true)
    (hts : precedes t s = true) : steps s = steps t := by
  rw [precedes_iff] at hst hts
  exact Std.LawfulEqCmp.eq_of_compare (Std.OrientedCmp.isLE_antisymm hst hts)

end PathText

/-! ### Where texts lead -/

namespace PathText

theorem parts_append_slash (s t : String) : parts (s ++ "/" ++ t) = parts s ++ parts t := by
  rw [parts, String.toList_append, String.toList_append, List.append_assoc,
    show "/".toList = ['/'] from rfl, List.singleton_append, Text.splitWhere_append rfl,
    List.map_append]
  rfl

/-- A text that leads from the top begins with an empty part. -/
theorem parts_of_isAbsolute {s : String} (h : isAbsolute s = true) :
    ∃ rest, parts s = "" :: rest := by
  rw [isAbsolute, beq_iff_eq] at h
  obtain ⟨cs, hcs⟩ := List.head?_eq_some_iff.mp h
  refine ⟨(Text.splitWhere (· == '/') cs).map String.ofList, ?_⟩
  rw [parts, hcs, ← List.nil_append ('/' :: cs),
    Text.splitWhere_append_cons (List.forall_mem_nil _) rfl]
  rfl

theorem isAbsolute_append {s : String} (h : s ≠ "") (t : String) :
    isAbsolute (s ++ t) = isAbsolute s := by
  rw [isAbsolute, isAbsolute, String.toList_append,
    List.head?_append_of_ne_nil _ (mt String.toList_eq_nil_iff.mp h)]

end PathText

namespace FileTree

open PathText

variable {α : Type} {t : FileTree α}

/-- Following a part takes the step of the part, and stays where the part is no step. -/
theorem follow?_cons (isFirst : Bool) (p : Path) (part : String) (parts : List String) :
    t.follow? p (part :: parts) =
      if t.isDirectory p then
        t.follow? ((Step.ofPart? isFirst part).elim p (Step.move p)) parts
      else none := by
  rw [follow?, Step.ofPart?]
  by_cases hdir : t.isDirectory p = true
  · by_cases hempty : part = ""
    · simp [hdir, hempty]
    · by_cases hhere : part = "."
      · cases isFirst <;> simp [hdir, hhere, Step.move]
      · by_cases hup : part = ".." <;> simp [hdir, hempty, hhere, hup, Step.move]
  · simp [hdir]

theorem follow?_append (p : Path) (xs ys : List String) :
    t.follow? p (xs ++ ys) = (t.follow? p xs).bind (t.follow? · ys) := by
  induction xs generalizing p with
  | nil => rfl
  | cons x xs ih =>
    rw [List.cons_append, follow?_cons false, follow?_cons false, ih]
    split <;> rfl

private theorem eq_of_follow? {p q : Path} {parts : List String}
    (h : t.follow? p parts = some q) :
    q = (parts.filterMap (Step.ofPart? false)).foldl Step.move p := by
  induction parts generalizing p with
  | nil => exact (Option.some.inj h).symm
  | cons part parts ih =>
    rw [follow?_cons false] at h
    obtain ⟨-, h⟩ := Option.ite_none_right_eq_some.mp h
    rw [ih h, List.filterMap_cons]
    cases Step.ofPart? false part <;> rfl

/-- The place that a text leads to is told by its steps. -/
theorem eq_of_locate? {here q : Path} {s : String} (h : t.locate? here s = some q) :
    q = (steps s).foldl Step.move here := by
  obtain ⟨-, h⟩ := Option.ite_none_left_eq_some.mp h
  cases hparts : parts s with
  | nil => exact absurd hparts (by simp [parts, Text.splitWhere_ne_nil])
  | cons first rest =>
    rw [hparts, follow?_cons true] at h
    obtain ⟨-, h⟩ := Option.ite_none_right_eq_some.mp h
    rw [eq_of_follow? h, steps, hparts]
    by_cases habsolute : isAbsolute s = true
    · obtain ⟨rest', hrest⟩ := parts_of_isAbsolute habsolute
      obtain ⟨rfl, rfl⟩ := List.cons.inj (hparts.symm.trans hrest)
      simp [habsolute, Step.ofPart?, Step.move]
    · cases hstep : Step.ofPart? true first <;> simp [habsolute, hstep]

/-- A text that is joined to one that leads to a directory is followed from the directory. -/
private theorem locate?_join_of_isDirectory {here place : Path} {s u : String}
    (hs : t.locate? here s = some place) (hplace : t.isDirectory place = true)
    (hu : isAbsolute u = false) :
    t.locate? here (join s u) = t.follow? place (parts u) := by
  obtain ⟨hne, hfollow⟩ := Option.ite_none_left_eq_some.mp hs
  rw [beq_iff_eq] at hne
  have hjoined : ∀ b : String, parts s = parts b ∨ parts s = parts b ++ [""] →
      t.follow? (if isAbsolute s then [] else here) (parts (b ++ "/" ++ u)) =
        t.follow? place (parts u) := by
    intro b hb
    rw [parts_append_slash, follow?_append]
    obtain hb | hb := hb
    · rw [← hb, hfollow, Option.bind_some]
    · rw [hb, follow?_append] at hfollow
      obtain ⟨p, hp, hstay⟩ := Option.bind_eq_some_iff.mp hfollow
      rw [follow?_cons false] at hstay
      obtain ⟨-, hstay⟩ := Option.ite_none_right_eq_some.mp hstay
      obtain rfl := Option.some.inj hstay
      rw [hp]
      rfl
  have hlocate : ∀ b : String, s ++ b ≠ "" := fun b hempty ↦
    hne (String.append_eq_empty_iff.mp hempty).1
  rw [join, hu, Bool.false_or, if_neg (by simpa using hne)]
  split
  · rename_i hlast
    rw [beq_iff_eq] at hlast
    obtain ⟨cs, hcs⟩ := List.getLast?_eq_some_iff.mp hlast
    have hslash : s = String.ofList cs ++ "/" := String.toList_inj.mp (by simp [hcs])
    rw [locate?, if_neg (by simpa using hlocate u), isAbsolute_append hne]
    have hparts : parts s = parts (String.ofList cs) ++ [""] := by
      rw [hslash, ← String.append_empty (s := String.ofList cs ++ "/"), parts_append_slash]
      rfl
    rw [← hjoined _ (Or.inr hparts), ← hslash]
  · rw [String.append_assoc, locate?, if_neg (by simp),
      isAbsolute_append hne, ← String.append_assoc, hjoined s (Or.inl rfl)]

/-- The text of a file below a directory, followed from a text that leads to the directory, leads to
the file. -/
theorem locate?_join (hrooted : t.isRooted = true) {here place q : Path} {s : String}
    (hs : t.locate? here s = some place) (hplace : t.isDirectory place = true)
    (hq : q ∈ t.yamlFiles place) :
    t.locate? here (join s ("/".intercalate (q.drop place.length))) = some q := by
  obtain ⟨⟨rest, rfl⟩, -, e, hmem, -⟩ := mem_yamlFiles.mp hq
  obtain ⟨hnames, hdirs⟩ := isRooted_iff.mp hrooted _ hmem
  rw [List.drop_left]
  by_cases hrest : rest = []
  · subst hrest
    rw [locate?_join_of_isDirectory hs hplace rfl, List.append_nil]
    exact if_neg (by simp [hplace])
  · have hname : ∀ name ∈ rest, isName name = true := fun name h ↦
      hnames name (List.mem_append_right place h)
    have hparts := parts_intercalate hrest hname
    have habsolute : isAbsolute ("/".intercalate rest) = false := by
      rw [Bool.eq_false_iff]
      intro habsolute
      obtain ⟨others, hothers⟩ := parts_of_isAbsolute habsolute
      rw [hparts] at hothers
      have hempty := hname "" (by simp [hothers])
      revert hempty
      decide
    rw [locate?_join_of_isDirectory hs hplace habsolute, hparts]
    refine follow?_of_names t hname place fun names hprefix hother ↦ ?_
    refine hdirs _ ((List.prefix_append_right_inj place).mpr hprefix) fun heq ↦ hother ?_
    exact List.append_cancel_left heq

/-- In a tree that holds one entry at a place, a YAML file is there and is no directory. -/
theorem isFile_of_mem_yamlFiles (hrooted : t.isRooted = true)
    (hplaces : (t.entries.map (·.1)).Nodup) {place q : Path} (hq : q ∈ t.yamlFiles place) :
    t.contains q = true ∧ t.isDirectory q = false := by
  obtain ⟨hne, -⟩ := isName_of_mem_yamlFiles hrooted hq
  obtain ⟨-, -, e, hmem, hfile⟩ := mem_yamlFiles.mp hq
  have hlookup : t.entries.lookup q = some e := by
    obtain ⟨before, after, hentries⟩ := List.append_of_mem hmem
    refine List.lookup_eq_some_iff.mpr ⟨before, after, hentries, fun entry hentry ↦ ?_⟩
    rw [hentries, List.map_append, List.map_cons] at hplaces
    have hother := (List.nodup_append.mp hplaces).2.2 entry.1 (List.mem_map_of_mem hentry) q
      List.mem_cons_self
    simpa using hother.symm
  have hentry : t.entry? q = some e := by rw [FileTree.entry?, if_neg hne, hlookup]
  exact ⟨by rw [contains, hentry]; rfl, by rw [isDirectory, hentry]; exact hfile⟩

end FileTree

end PipingAssembly
