import Mathlib.Data.Sym.Sym2
import PipingAssembly.Fasteners.Basic

/-!
# One constraint for each pair

Among the constraints that join a pair, in either direction, the first that asks for fasteners is
chosen, or the first of all if none asks. The table of choices is entered in one pass and holds
exactly these.
-/

namespace PipingAssembly

/-- The two sides of a constraint as an unordered pair. -/
def Constraint.sides (c : Constraint) : Sym2 String := s(c.entityA, c.entityB)

/-- The constraints among some that join a pair, in their order. -/
def joining (cs : List Constraint) (p : Sym2 String) : List Constraint :=
  cs.filter (·.sides = p)

/-- The first constraint that asks for fasteners, or the first of all if none does. -/
def preferred? (cs : List Constraint) : Option Constraint := (cs.find? (·.asks)).or cs.head?

/-- The choice for a pair, given the one so far, once another of its constraints has come up. -/
def nextChoice (held : Option Constraint) (c : Constraint) : Constraint :=
  match held with
  | none => c
  | some d => if !d.asks && c.asks then c else d

/-- The key of a constraint stands for its two sides without their direction. -/
theorem pair_eq_iff {c d : Constraint} : c.pair = d.pair ↔ c.sides = d.sides := by
  rw [Constraint.sides, Constraint.sides, Sym2.eq_iff, Constraint.pair, Constraint.pair]
  split <;> split <;> rw [Prod.mk.injEq]
  all_goals grind

section Preferred

variable {cs : List Constraint} {c : Constraint}

theorem mem_joining {p : Sym2 String} : c ∈ joining cs p ↔ c ∈ cs ∧ c.sides = p := by
  rw [joining, List.mem_filter, decide_eq_true_eq]

theorem joining_concat (p : Sym2 String) :
    joining (cs ++ [c]) p = if c.sides = p then joining cs p ++ [c] else joining cs p := by
  rw [joining, List.filter_append, List.filter_singleton, ← joining]
  by_cases hc : c.sides = p <;> simp [hc]

/-- A constraint is preferred as soon as there is any. -/
theorem preferred?_isSome : (preferred? cs).isSome ↔ cs ≠ [] := by
  cases cs <;> simp [preferred?]

theorem mem_of_preferred? (h : preferred? cs = some c) : c ∈ cs := by
  rw [preferred?, Option.or_eq_some_iff] at h
  obtain hfind | ⟨-, hhead⟩ := h
  · exact List.mem_of_find?_eq_some hfind
  · exact List.mem_of_mem_head? hhead

/-- One more constraint is preferred only where there was none, or where it is the first to ask. -/
theorem preferred?_concat : preferred? (cs ++ [c]) = some (nextChoice (preferred? cs) c) := by
  rw [preferred?, preferred?, List.find?_append, List.find?_singleton]
  cases hfind : cs.find? (·.asks) with
  | some d =>
    have hd : d.asks = true := List.find?_some hfind
    simp [nextChoice, hd]
  | none =>
    cases cs with
    | nil => by_cases hc : c.asks <;> simp [nextChoice, hc]
    | cons d ds =>
      have hd : d.asks = false := by simpa using List.find?_eq_none.mp hfind d List.mem_cons_self
      by_cases hc : c.asks <;> simp [nextChoice, hd, hc]

end Preferred

section Choices

variable (c d : Constraint) (cs ds : List Constraint)

theorem enterChoice_cons (e : Constraint) :
    enterChoice c (e :: ds) =
      if e.pair = c.pair then nextChoice (some e) c :: ds else e :: enterChoice c ds :=
  rfl

theorem findChoice?_cons (e : Constraint) :
    findChoice? (e :: ds) d = if e.pair = d.pair then some e else findChoice? ds d := by
  by_cases he : e.pair = d.pair <;> simp [findChoice?, he]

/-- The place of a choice in the table goes to a constraint of the same pair. -/
theorem pair_nextChoice {d : Constraint} (h : d.pair = c.pair) :
    (nextChoice (some d) c).pair = c.pair := by
  rw [nextChoice]
  split
  · rfl
  · exact h

/-- Entering a constraint changes what the table holds for its own pair only. -/
theorem findChoice?_enterChoice :
    findChoice? (enterChoice c ds) d =
      if c.sides = d.sides then some (nextChoice (findChoice? ds d) c) else findChoice? ds d := by
  simp only [← pair_eq_iff]
  induction ds with
  | nil => rw [enterChoice, findChoice?_cons]; rfl
  | cons e es ih =>
    rw [enterChoice_cons, findChoice?_cons]
    by_cases he : e.pair = c.pair
    · rw [if_pos he, findChoice?_cons, pair_nextChoice c he, he]
      by_cases hd : c.pair = d.pair
      · rw [if_pos hd, if_pos hd, if_pos hd]
      · rw [if_neg hd, if_neg hd, if_neg hd]
    · rw [if_neg he, findChoice?_cons, ih]
      by_cases hd : e.pair = d.pair
      · have hc : c.pair ≠ d.pair := fun h ↦ he (hd.trans h.symm)
        rw [if_pos hd, if_neg hc, if_pos hd]
      · rw [if_neg hd, if_neg hd]

/-- The table holds for a pair the constraint that is preferred among all that join it. -/
theorem findChoice?_choices : findChoice? (choices cs) d = preferred? (joining cs d.sides) := by
  induction cs using List.reverseRecOn with
  | nil => rfl
  | append_singleton cs c ih =>
    rw [choices, List.foldl_append, List.foldl_cons, List.foldl_nil, ← choices,
      findChoice?_enterChoice, ih, joining_concat]
    by_cases hc : c.sides = d.sides
    · rw [if_pos hc, if_pos hc, preferred?_concat]
    · rw [if_neg hc, if_neg hc]

end Choices

end PipingAssembly
