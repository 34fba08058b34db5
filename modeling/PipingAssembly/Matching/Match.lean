import PipingAssembly.Policy.Basic
import PipingAssembly.Rule.Basic

/-!
# Matching rules with pairs of parts

The condition of a rule either holds for a pair of parts or it does not. A rule that applies has a
confidence, which depends on its priority and on whether the nominal sizes of the parts agree.
-/

namespace PipingAssembly

/-- Whether a part passes a test of an attribute. -/
def AttributeTest.holds (t : AttributeTest) (p : Part) : Bool :=
  match p.field? t.field with
  | none => false
  | some actual =>
    match t.contains, t.value with
    | some needle, _ => Text.contains (Text.lower actual) (Text.lower needle)
    | none, some expected => Text.equalIgnoringAsciiCase actual expected
    | none, none => false

/-- Whether two parts have the same thread. -/
def Part.sharesThread (a b : Part) : Bool :=
  match a.thread, b.thread with
  | some s, some t => s == t
  | _, _ => false

/-- Whether one family is bolts and the other nuts. -/
def Family.isBoltNutPair : Family → Family → Bool
  | .bolt, .nut => true
  | .nut, .bolt => true
  | _, _ => false

/-- Whether a condition holds for two parts. Spatial conditions need positions and never hold. -/
def Condition.holds (c : Condition) (a b : Part) : Bool :=
  match c with
  | .both test => test.holds a && test.holds b
  | .nameContains value =>
    let needle := Text.lower value
    [a, b].any fun p ↦
      Text.contains (Text.lower p.displayName) needle || Text.contains (Text.lower p.id) needle
  | .threadMatch => a.sharesThread b
  | .boltNutPair => a.family.isBoltNutPair b.family && a.sharesThread b
  | .distanceRange .. => false
  | .mateType _ => false

/-- Whether two optional numbers are given and equal. -/
def agrees (a b : Option UInt32) : Bool := a.isSome && a == b

section Confidence

variable {α : Type} [Add α] [OfScientific α] [OfNat α 0] [OfNat α 1] [LT α] [DecidableLT α]

/-- The number from 0 to 1 that is nearest to a number. -/
def clampUnit (x : α) : α := if x < 0 then 0 else if 1 < x then 1 else x

/-- The confidence that a rule earns by its priority. -/
def Rule.priorityBonus? (r : Rule) : Option α :=
  if 10 ≤ r.priority then some 0.2 else if 9 ≤ r.priority then some 0.1 else none

/-- The confidence of a rule for two parts. -/
def Rule.confidence (r : Rule) (a b : Part) (policy : MatchPolicy α) : α :=
  let add := fun (x : α) (bonus : Option α) ↦ bonus.elim x (x + ·)
  let bonus := fun holds : Bool ↦ if holds then some 0.05 else none
  clampUnit <|
    add (add (add policy.baseConfidence r.priorityBonus?) (bonus (agrees a.dn b.dn)))
      (bonus (agrees a.pn b.pn))

end Confidence

/-- A rule that applies to a pair, with its confidence. -/
structure RuleMatch (α : Type) where
  rule : Rule
  confidence : α

section Matches

variable {α : Type} [Add α] [OfScientific α] [OfNat α 0] [OfNat α 1] [LT α] [DecidableLT α]

/-- The rules that apply to two parts, in the order of the rules. -/
def matchingRules (a b : Part) (rules : List Rule) (policy : MatchPolicy α) : List (RuleMatch α) :=
  (rules.filter (·.condition.holds a b)).map fun r ↦ ⟨r, r.confidence a b policy⟩

/-- The match with the greatest confidence, the first one of several. -/
def bestMatch? [LE α] [DecidableLE α] (ms : List (RuleMatch α)) : Option (RuleMatch α) :=
  ms.foldl
    (fun best m ↦
      match best with
      | some b => if m.confidence ≤ b.confidence then some b else some m
      | none => some m)
    none

end Matches

end PipingAssembly
