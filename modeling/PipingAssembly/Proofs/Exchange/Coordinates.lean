import Mathlib.Data.List.Basic
import PipingAssembly.Exchange.Assembly
import PipingAssembly.Proofs.Exchange.Segments

/-!
# Components of points and directions

A vector has the first three numbers of a list for its components. Each number moves up by as many
places as there are parameters of other kinds in front of it. So the components are the numbers at
the first three places exactly if no number stands behind a place of these that holds none.
-/

namespace PipingAssembly.Exchange

/-! ### Places of numbers -/

/-- The number at a place of a list. -/
def numberAt? (items : List Param) (i : Nat) : Option Float := items[i]?.bind Param.number?

/-- The numbers of a list. -/
def numbers (items : List Param) : List Float := items.filterMap Param.number?

/-- Behind a place without a number among the first ones there is no number. -/
def KeepsPlaces (n : Nat) (items : List Param) : Prop :=
  ∀ i < n, numberAt? items i = none → ∀ j, i ≤ j → numberAt? items j = none

variable {items : List Param} {p : Param} {n i j : Nat} {x : Float}

@[simp] theorem numberAt?_cons_zero : numberAt? (p :: items) 0 = p.number? := rfl

@[simp] theorem numberAt?_cons_succ : numberAt? (p :: items) (i + 1) = numberAt? items i := rfl

theorem exists_numberAt?_of_mem (h : x ∈ numbers items) : ∃ i, numberAt? items i = some x := by
  obtain ⟨p, hp, hx⟩ := List.mem_filterMap.mp h
  obtain ⟨i, hi⟩ := List.mem_iff_getElem?.mp hp
  exact ⟨i, by rw [numberAt?, hi]; exact hx⟩

theorem numbers_eq_nil_iff : numbers items = [] ↔ ∀ i, numberAt? items i = none := by
  constructor
  · intro h i
    rw [numberAt?, Option.bind_eq_none_iff]
    exact fun p hp ↦ List.filterMap_eq_nil_iff.mp h p (List.mem_of_getElem? hp)
  · intro h
    refine List.eq_nil_iff_forall_not_mem.mpr fun x hx ↦ ?_
    obtain ⟨i, hi⟩ := exists_numberAt?_of_mem hx
    rw [h i] at hi
    cases hi

/-- A number has as many numbers in front of it as there are in front of its place. -/
theorem getElem?_numbers_length (h : numberAt? items j = some x) :
    (numbers items)[(numbers (items.take j)).length]? = some x := by
  induction items generalizing j with
  | nil => cases h
  | cons p items ih =>
    cases j with
    | zero =>
      rw [numberAt?_cons_zero] at h
      rw [numbers, List.filterMap_cons_some h]
      rfl
    | succ j =>
      have hrest := ih (numberAt?_cons_succ.symm.trans h)
      rw [List.take_succ_cons, numbers, numbers]
      cases hp : p.number? with
      | none =>
        rw [List.filterMap_cons_none hp, List.filterMap_cons_none hp]
        exact hrest
      | some y =>
        rw [List.filterMap_cons_some hp, List.filterMap_cons_some hp]
        exact hrest

/-- Numbers that nothing else stands in front of keep their places. -/
theorem getElem?_numbers_of_keepsPlaces (h : KeepsPlaces n items) (hi : i < n) :
    (numbers items)[i]? = numberAt? items i := by
  induction items generalizing n i with
  | nil => rfl
  | cons p items ih =>
    cases hp : p.number? with
    | none =>
      have hall : ∀ j, numberAt? (p :: items) j = none := fun j ↦
        h 0 (Nat.zero_lt_of_lt hi) hp j (Nat.zero_le j)
      rw [numbers_eq_nil_iff.mpr hall, hall i]
      rfl
    | some y =>
      rw [numbers, List.filterMap_cons_some hp]
      cases i with
      | zero => exact hp.symm
      | succ i =>
        have hrest : KeepsPlaces (n - 1) items := fun k hk hnone j hkj ↦
          h (k + 1) (by omega) hnone (j + 1) (Nat.succ_le_succ hkj)
        exact ih hrest (by omega)

/-- Otherwise a number comes to a place that holds none, from further back. -/
theorem exists_moved_of_not_keepsPlaces (h : ¬KeepsPlaces n items) :
    ∃ i < n, ∃ j x, i < j ∧ numberAt? items i = none ∧ numberAt? items j = some x ∧
      (numbers items)[i]? = some x := by
  induction items generalizing n with
  | nil => exact absurd (fun _ _ _ _ _ ↦ rfl) h
  | cons p items ih =>
    cases n with
    | zero => exact absurd (fun i hi ↦ absurd hi (Nat.not_lt_zero i)) h
    | succ n =>
      cases hp : p.number? with
      | none =>
        cases hnumbers : numbers items with
        | nil =>
          have hrest := numbers_eq_nil_iff.mp hnumbers
          refine absurd (fun i _ _ j _ ↦ ?_) h
          cases j with
          | zero => exact hp
          | succ j => exact hrest j
        | cons x xs =>
          obtain ⟨j, hj⟩ := exists_numberAt?_of_mem (hnumbers ▸ List.mem_cons_self)
          refine ⟨0, Nat.zero_lt_succ n, j + 1, x, Nat.zero_lt_succ j, hp, hj, ?_⟩
          rw [numbers, List.filterMap_cons_none hp, ← numbers, hnumbers]
          rfl
      | some y =>
        have hrest : ¬KeepsPlaces n items := by
          refine fun hkeeps ↦ h fun i hi hnone j hij ↦ ?_
          cases i with
          | zero =>
            rw [numberAt?_cons_zero, hp] at hnone
            cases hnone
          | succ i =>
            obtain ⟨j, rfl⟩ : ∃ k, j = k + 1 := ⟨j - 1, by omega⟩
            exact hkeeps i (by omega) hnone j (by omega)
        obtain ⟨i, hi, j, x, hij, hnone, hsome, hmoved⟩ := ih hrest
        refine ⟨i + 1, by omega, j + 1, x, by omega, hnone, hsome, ?_⟩
        rw [numbers, List.filterMap_cons_some hp]
        exact hmoved

/-! ### Vectors -/

/-- The vector of the numbers at three places; a place without one gives zero. -/
def vectorOf (component? : Nat → Option Float) : Vec3 Float :=
  ⟨(component? 0).getD 0, (component? 1).getD 0, (component? 2).getD 0⟩

theorem getElem?_vectorOf {component? : Nat → Option Float} (h : i < 3) :
    (vectorOf component?).toList[i]? = some ((component? i).getD 0) := by
  match i, h with
  | 0, _ | 1, _ | 2, _ => rfl

theorem vectorOf_congr {f g : Nat → Option Float} (h : ∀ i < 3, f i = g i) :
    vectorOf f = vectorOf g := by
  rw [vectorOf, vectorOf, h 0 (by omega), h 1 (by omega), h 2 (by omega)]

/-- Parameters with a number in their first list have the vector of the numbers of this list. -/
theorem coordinates?_of_firstList? {ps : List Param} (hitems : firstList? ps = some items)
    (hnumbers : numbers items ≠ []) :
    coordinates? ps = some (vectorOf fun i ↦ (numbers items)[i]?) := by
  have hmap : (firstList? ps).map (·.filterMap Param.number?) = some (numbers items) := by
    rw [hitems]
    rfl
  rw [coordinates?, hmap]
  cases hlist : numbers items with
  | nil => exact absurd hlist hnumbers
  | cons x xs => rfl

/-- Among entities in order the vector of an entity is found under its number. -/
theorem Ordered.lookup_vectorsOf {es : List Entity} (h : Ordered es) {e : Entity} (he : e ∈ es)
    {v : Vec3 Float} (hv : coordinates? e.params = some v) :
    (vectorsOf e.kind es).lookup e.id = some v := by
  induction es with
  | nil => cases he
  | cons f es ih =>
    obtain ⟨hf, hes⟩ := List.pairwise_cons.mp h
    obtain rfl | he := List.mem_cons.mp he
    · rw [vectorsOf, List.filterMap_cons_some (by rw [if_pos rfl, hv]; rfl)]
      exact List.lookup_cons_self
    · have hne : (e.id == f.id) = false := beq_false_of_ne (UInt64.ne_of_lt (hf e he)).symm
      cases hread : if f.kind = e.kind then (coordinates? f.params).map (f.id, ·) else none with
      | none =>
        simp only [vectorsOf, List.filterMap_cons, hread]
        exact ih hes he
      | some entry =>
        obtain ⟨-, hentry⟩ := Option.ite_none_right_eq_some.mp hread
        obtain ⟨w, -, rfl⟩ := Option.map_eq_some_iff.mp hentry
        simp only [vectorsOf, List.filterMap_cons, hread, List.lookup_cons, hne]
        exact ih hes he

/-- A point or a direction whose list has a number in it is read as a vector. Each number of the
list that has less than three other ones in front of it is a component, in the place that their
count gives, and components for which no number is left are zero. These are the numbers at the
first three places of the list if behind a place without a number there is none; otherwise a
component whose place holds no number has one from further back. -/
theorem components_eq_numbers {es : List Entity} (h : Ordered es) {e : Entity} (he : e ∈ es)
    {table : List (EntityId × Vec3 Float)}
    (htable : (e.kind = "CARTESIAN_POINT" ∧ table = (Assembly.ofEntities es).points) ∨
      (e.kind = "DIRECTION" ∧ table = (Assembly.ofEntities es).directions))
    {items : List Param} (hitems : firstList? e.params = some items)
    (hnumber : ∃ x, Param.number x ∈ items) :
    ∃ v, table.lookup e.id = some v ∧
      (∀ j x, items[j]? = some (.number x) → (numbers (items.take j)).length < 3 →
        v.toList[(numbers (items.take j)).length]? = some x) ∧
      (∀ i < 3, (numbers items).length ≤ i → v.toList[i]? = some 0) ∧
      (KeepsPlaces 3 items → v = vectorOf (numberAt? items)) ∧
      (¬KeepsPlaces 3 items → ∃ i < 3, ∃ j x, i < j ∧ numberAt? items i = none ∧
        numberAt? items j = some x ∧ v.toList[i]? = some x) := by
  have hnumberAt : ∀ {j x}, items[j]? = some (.number x) → numberAt? items j = some x := by
    intro j x hj
    rw [numberAt?, hj]
    rfl
  obtain ⟨y, hy⟩ := hnumber
  have hnumbers : numbers items ≠ [] :=
    List.ne_nil_of_mem (List.mem_filterMap.mpr ⟨_, hy, rfl⟩)
  have hv := coordinates?_of_firstList? hitems hnumbers
  have hlookup : table.lookup e.id = some (vectorOf fun i ↦ (numbers items)[i]?) := by
    have hentry := h.lookup_vectorsOf he hv
    obtain ⟨hkind, rfl⟩ | ⟨hkind, rfl⟩ := htable
    · rwa [hkind] at hentry
    · rwa [hkind] at hentry
  refine ⟨_, hlookup, fun j x hj hlt ↦ ?_, fun i hi hle ↦ ?_, fun hkeeps ↦ ?_, fun hnot ↦ ?_⟩
  · rw [getElem?_vectorOf hlt, getElem?_numbers_length (hnumberAt hj)]
    rfl
  · rw [getElem?_vectorOf hi, List.getElem?_eq_none hle]
    rfl
  · exact vectorOf_congr fun i hi ↦ getElem?_numbers_of_keepsPlaces hkeeps hi
  · obtain ⟨i, hi, j, x, hij, hnone, hsome, hmoved⟩ := exists_moved_of_not_keepsPlaces hnot
    refine ⟨i, hi, j, x, hij, hnone, hsome, ?_⟩
    rw [getElem?_vectorOf hi, hmoved]
    rfl

/-- A point without a second coordinate. -/
private def gappedPoint : Entity :=
  ⟨1, [("CARTESIAN_POINT", [.text "", .list [.number 1, .omitted, .number 3]])]⟩

/-- Its third coordinate becomes the second one. -/
theorem components_eq_numbers_gapped :
    Ordered [gappedPoint] ∧ gappedPoint.kind = "CARTESIAN_POINT" ∧
      firstList? gappedPoint.params = some [.number 1, .omitted, .number 3] ∧
      ∃ v, (Assembly.ofEntities [gappedPoint]).points.lookup 1 = some v ∧
        v.toList[1]? = some 3 := by
  have hordered : Ordered [gappedPoint] := List.pairwise_singleton _ _
  have hitems : firstList? gappedPoint.params = some [.number 1, .omitted, .number 3] := rfl
  obtain ⟨v, hv, hcomponents, -⟩ := components_eq_numbers hordered List.mem_cons_self
    (Or.inl ⟨rfl, rfl⟩) hitems ⟨1, List.mem_cons_self⟩
  exact ⟨hordered, rfl, hitems, v, hv, hcomponents 2 3 rfl (by decide)⟩

end PipingAssembly.Exchange
