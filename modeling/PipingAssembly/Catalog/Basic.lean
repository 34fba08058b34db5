import PipingAssembly.Matching.Generation

/-!
# Selections and orders of catalog entries
-/

namespace PipingAssembly

/-- A selection of parts. -/
structure PartFilter where
  /-- only these ids; no ids stand for all -/
  ids : List String := []
  family : Option Family := none
  /-- a text within the id or the name, in any letter case -/
  search : Option String := none
  deriving DecidableEq, Repr, Inhabited

namespace PartFilter

/-- Whether a part belongs to a selection. -/
def accepts (f : PartFilter) (p : Part) : Bool :=
  (f.ids.isEmpty || f.ids.contains p.id) && f.family.all (p.family == ·) &&
    f.search.all fun s ↦
      Text.contains (Text.lower p.id) (Text.lower s) ||
        Text.contains (Text.lower p.displayName) (Text.lower s)

/-- The parts of a selection, in order. -/
def select (f : PartFilter) (parts : List Part) : List Part := parts.filter f.accepts

end PartFilter

/-- Whether one rule stands before another: by falling priority, then by id. -/
def Rule.precedes (r s : Rule) : Bool :=
  s.priority < r.priority || (r.priority == s.priority && r.id ≤ s.id)

/-- Rules in the order in which a store gives them. -/
def sortRules (rules : List Rule) : List Rule := rules.mergeSort Rule.precedes

/-- Parts in the order of ids. -/
def sortParts (parts : List Part) : List Part := parts.mergeSort fun p q ↦ p.id ≤ q.id

/-- The elements whose key no earlier element has. -/
def firstOfEach {α : Type} (key : α → String) : List α → List α
  | [] => []
  | a :: as => a :: (firstOfEach key as).filter (key · != key a)

end PipingAssembly
