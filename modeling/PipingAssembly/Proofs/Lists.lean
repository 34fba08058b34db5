import Mathlib.Data.List.Induction
import Mathlib.Data.List.Nodup
import PipingAssembly.Arithmetic.Power

/-!
# Lists without duplicates, first occurrences, look-ups by keys, counts, and marks in lists
-/

namespace PipingAssembly

/-- A condition that one element of a list meets, and no other, singles it out. -/
theorem filter_eq_singleton {α : Type} {l : List α} {P : α → Bool} {a : α} (hl : l.Nodup)
    (ha : a ∈ l) (hP : ∀ x ∈ l, P x = true ↔ x = a) : l.filter P = [a] := by
  apply List.perm_singleton.mp
  apply (List.perm_ext_iff_of_nodup (hl.filter P) (List.nodup_singleton a)).mpr
  intro x
  rw [List.mem_filter, List.mem_singleton]
  constructor
  · rintro ⟨hx, hPx⟩
    exact (hP x hx).mp hPx
  · rintro rfl
    exact ⟨ha, (hP x ha).mpr rfl⟩

/-- An element of a list without duplicates has one place. -/
theorem idxOf_of_getElem? {α : Type} [DecidableEq α] {l : List α} (hl : l.Nodup) {i : Nat} {a : α}
    (h : l[i]? = some a) : l.idxOf a = i := by
  obtain ⟨hi, rfl⟩ := List.getElem?_eq_some_iff.mp h
  exact hl.idxOf_getElem i hi

section Keys

variable {α β : Type} [BEq β] [LawfulBEq β] {key : α → β} {l : List α} {a : α}

/-- Of elements with distinct keys the key of one singles it out. -/
theorem filter_key_eq_singleton (h : (l.map key).Nodup) (ha : a ∈ l) :
    l.filter (key · == key a) = [a] := by
  apply filter_eq_singleton (List.Nodup.of_map _ h) ha
  intro x hx
  rw [beq_iff_eq]
  constructor
  · exact fun hkey ↦ List.inj_on_of_nodup_map h hx ha hkey
  · rintro rfl
    rfl

theorem find?_key (h : (l.map key).Nodup) (ha : a ∈ l) : l.find? (key · == key a) = some a := by
  rw [← List.head?_filter, filter_key_eq_singleton h ha]
  rfl

/-- The first element with a key is found in front, whatever follows. -/
theorem find?_key_append (h : (l.map key).Nodup) (ha : a ∈ l) (more : List α) :
    (l ++ more).find? (key · == key a) = some a := by
  rw [List.find?_append, find?_key h ha]
  rfl

/-- The last element with a key is found at the end, whatever comes before. -/
theorem getLast?_filter_key_append (h : (l.map key).Nodup) (ha : a ∈ l) (before : List α) :
    ((before ++ l).filter (key · == key a)).getLast? = some a := by
  rw [List.filter_append, filter_key_eq_singleton h ha, List.getLast?_concat]

end Keys

/-! ### First occurrences -/

/-- One more element is kept if it has not come up before. -/
theorem eraseDups_concat {α : Type} [BEq α] [LawfulBEq α] (l : List α) (a : α) :
    (l ++ [a]).eraseDups = if a ∈ l then l.eraseDups else l.eraseDups ++ [a] := by
  rw [List.eraseDups_append]
  by_cases ha : a ∈ l <;> simp [List.removeAll, List.eraseDups_cons, ha]

/-- Of the elements that meet a condition the first occurrences are kept, in their order. -/
theorem pairwise_idxOf_eraseDups_filter {α : Type} [BEq α] [LawfulBEq α] (p : α → Bool)
    (l : List α) : (l.filter p).eraseDups.Pairwise fun a b ↦ l.idxOf a < l.idxOf b := by
  induction l using List.reverseRecOn with
  | nil => exact List.Pairwise.nil
  | append_singleton l a ih =>
    have hmem : ∀ b ∈ (l.filter p).eraseDups, b ∈ l := fun b hb ↦
      List.mem_of_mem_filter (List.mem_eraseDups.mp hb)
    have hbefore : (l.filter p).eraseDups.Pairwise
        fun b c ↦ (l ++ [a]).idxOf b < (l ++ [a]).idxOf c := by
      refine ih.imp_of_mem fun hb hc hlt ↦ ?_
      rwa [List.idxOf_append_of_mem (hmem _ hb), List.idxOf_append_of_mem (hmem _ hc)]
    by_cases hnew : p a = true ∧ a ∉ l
    · obtain ⟨hp, ha⟩ := hnew
      rw [List.filter_append, List.filter_cons_of_pos hp, List.filter_nil, eraseDups_concat,
        if_neg (mt List.mem_of_mem_filter ha)]
      refine List.pairwise_append.mpr ⟨hbefore, List.pairwise_singleton _ _, fun b hb c hc ↦ ?_⟩
      have hlt : l.idxOf b < l.length := List.idxOf_lt_length_of_mem (hmem b hb)
      rw [List.mem_singleton.mp hc, List.idxOf_append_of_mem (hmem b hb),
        List.idxOf_append_of_notMem ha]
      omega
    · have hsame : ((l ++ [a]).filter p).eraseDups = (l.filter p).eraseDups := by
        by_cases hp : p a = true
        · have ha : a ∈ l := by_contra fun ha ↦ hnew ⟨hp, ha⟩
          rw [List.filter_append, List.filter_cons_of_pos hp, List.filter_nil, eraseDups_concat,
            if_pos (List.mem_filter.mpr ⟨ha, hp⟩)]
        · rw [List.filter_append, List.filter_cons_of_neg hp, List.filter_nil, List.append_nil]
      rw [hsame]
      exact hbefore

/-! ### Counting -/

theorem total_cons (n : Nat) (ns : List Nat) : total (n :: ns) = n + total ns := rfl

/-- Elements that meet a condition are different if none of them comes up twice. -/
theorem nodup_filter_iff {α : Type} [DecidableEq α] {p : α → Bool} {l : List α} :
    (l.filter p).Nodup ↔ ∀ a ∈ l, 1 < l.count a → p a = false := by
  rw [List.nodup_iff_count_le_one]
  constructor
  · intro hcount a _ htwice
    by_contra hp
    rw [Bool.not_eq_false] at hp
    have hone := hcount a
    rw [List.count_filter hp] at hone
    omega
  · intro hnone a
    by_cases hmem : a ∈ l.filter p
    · obtain ⟨ha, hp⟩ := List.mem_filter.mp hmem
      rw [List.count_filter hp]
      by_contra htwice
      rw [hnone a ha (by omega)] at hp
      cases hp
    · rw [List.count_eq_zero_of_not_mem hmem]
      omega

/-- What elements are mapped to is different if the elements that are mapped to something are, and
if different elements are mapped to different things. -/
theorem nodup_filterMap_iff {α β : Type} {f : α → Option β} {l : List α} :
    (l.filterMap f).Nodup ↔ (l.filter fun a ↦ (f a).isSome).Nodup ∧
      ∀ a ∈ l, ∀ b ∈ l, ∀ c, f a = some c → f b = some c → a = b := by
  have hmap : (l.filterMap f).map some = (l.filter fun a ↦ (f a).isSome).map f := by
    rw [List.map_filterMap_some_eq_filter_map_isSome, List.filter_map]
    rfl
  have hsome : (l.filterMap f).Nodup ↔ ((l.filter fun a ↦ (f a).isSome).map f).Nodup := by
    rw [← hmap, List.nodup_map_iff fun _ _ ↦ Option.some.inj]
  rw [hsome]
  constructor
  · intro hnodup
    refine ⟨List.Nodup.of_map f hnodup, fun a ha b hb c hac hbc ↦ ?_⟩
    refine List.inj_on_of_nodup_map hnodup ?_ ?_ (hac.trans hbc.symm)
    · exact List.mem_filter.mpr ⟨ha, by rw [hac]; rfl⟩
    · exact List.mem_filter.mpr ⟨hb, by rw [hbc]; rfl⟩
  · rintro ⟨hnodup, hinj⟩
    refine (List.nodup_map_iff_inj_on hnodup).mpr fun a ha b hb hab ↦ ?_
    obtain ⟨ha, hsome⟩ := List.mem_filter.mp ha
    obtain ⟨c, hc⟩ := Option.isSome_iff_exists.mp hsome
    exact hinj a ha b (List.mem_of_mem_filter hb) c hc (hab ▸ hc)

/-- Where a condition holds behind a place and not before it, it counts what is behind. -/
theorem countP_append_of_forall {α : Type} {p : α → Bool} {xs ys : List α}
    (hfront : ∀ x ∈ xs, p x = false) (hback : ∀ y ∈ ys, p y = true) :
    (xs ++ ys).countP p = ys.length := by
  have hnone : xs.countP p = 0 := List.countP_eq_zero.mpr fun x hx ↦ by simp [hfront x hx]
  rw [List.countP_append, hnone, List.countP_eq_length.mpr hback, Nat.zero_add]

/-- A condition that one more element of a list without duplicates meets counts one more. -/
theorem countP_add_one {α : Type} [DecidableEq α] {l : List α} {p q : α → Bool} {a : α}
    (hl : l.Nodup) (ha : a ∈ l) (hp : p a = false) (hq : q a = true)
    (hrest : ∀ x ∈ l, x ≠ a → q x = p x) : l.countP q = l.countP p + 1 := by
  have hothers : (l.erase a).countP q = (l.erase a).countP p := by
    apply List.countP_congr
    intro x hx
    obtain ⟨hne, hmem⟩ := hl.mem_erase_iff.mp hx
    rw [hrest x hmem hne]
  have hsplit := List.perm_cons_erase ha
  rw [hsplit.countP_eq, hsplit.countP_eq, List.countP_cons_of_pos hq,
    List.countP_cons_of_neg (by simp [hp]), hothers]

/-- What is made of two lists side by side is counted by the second one. -/
theorem countP_zipWith {α β γ : Type} {f : α → β → γ} {p : γ → Bool} {q : β → Bool} {xs : List α}
    {ys : List β} (hlength : ys.length ≤ xs.length)
    (h : ∀ x ∈ xs.zip ys, p (f x.1 x.2) = q x.2) :
    (List.zipWith f xs ys).countP p = ys.countP q := by
  have hzip : List.zipWith f xs ys = (xs.zip ys).map fun x ↦ f x.1 x.2 := by
    rw [List.map_zip_eq_zipWith]
    rfl
  calc (List.zipWith f xs ys).countP p
      = (xs.zip ys).countP fun x ↦ p (f x.1 x.2) := by
        rw [hzip, List.countP_map]
        rfl
    _ = (xs.zip ys).countP fun x ↦ q x.2 :=
        List.countP_congr fun x hx ↦ by rw [h x hx]
    _ = ((xs.zip ys).map Prod.snd).countP q := List.countP_map.symm
    _ = ys.countP q := by rw [List.map_snd_zip hlength]

/-! ### Marks -/

/-- Where a mark stands is determined by the number of marks in front of it. -/
theorem eq_of_append_mark_of_count {α : Type} [DecidableEq α] {a : α} {xs xs' ys ys' : List α}
    (hcount : xs.count a = xs'.count a) (heq : xs ++ a :: ys = xs' ++ a :: ys') :
    xs = xs' ∧ ys = ys' := by
  induction xs generalizing xs' with
  | nil =>
    cases xs' with
    | nil => exact ⟨rfl, (List.cons.inj heq).2⟩
    | cons x xs' =>
      rw [← (List.cons.inj heq).1, List.count_nil, List.count_cons_self] at hcount
      exact absurd hcount (Nat.succ_ne_zero _).symm
  | cons x xs ih =>
    cases xs' with
    | nil =>
      rw [(List.cons.inj heq).1, List.count_nil, List.count_cons_self] at hcount
      exact absurd hcount (Nat.succ_ne_zero _)
    | cons x' xs' =>
      obtain ⟨rfl, htail⟩ := List.cons.inj heq
      rw [List.count_cons, List.count_cons, Nat.add_right_cancel_iff] at hcount
      obtain ⟨rfl, hys⟩ := ih hcount htail
      exact ⟨rfl, hys⟩

/-- Where the first mark stands is determined. -/
theorem eq_of_append_mark {α : Type} {a : α} {xs xs' ys ys' : List α} (h : a ∉ xs) (h' : a ∉ xs')
    (heq : xs ++ a :: ys = xs' ++ a :: ys') : xs = xs' ∧ ys = ys' := by
  classical
  refine eq_of_append_mark_of_count ?_ heq
  rw [List.count_eq_zero_of_not_mem h, List.count_eq_zero_of_not_mem h']

/-- Where the last mark stands is determined. -/
theorem eq_of_append_last_mark {α : Type} {a : α} {xs xs' ys ys' : List α} (h : a ∉ ys)
    (h' : a ∉ ys') (heq : xs ++ a :: ys = xs' ++ a :: ys') : xs = xs' ∧ ys = ys' := by
  have hreverse := congrArg List.reverse heq
  simp only [List.reverse_append, List.reverse_cons, List.append_assoc, List.singleton_append]
    at hreverse
  obtain ⟨hys, hxs⟩ := eq_of_append_mark (mt List.mem_reverse.mp h) (mt List.mem_reverse.mp h')
    hreverse
  exact ⟨List.reverse_inj.mp hxs, List.reverse_inj.mp hys⟩

end PipingAssembly
