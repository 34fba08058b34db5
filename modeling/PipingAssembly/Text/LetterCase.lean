import PipingAssembly.Text.CaseTable

/-!
# Upper and lower case

Case mapping of whole texts. A capital sigma at the end of a word becomes a final sigma.
-/

namespace PipingAssembly.Text

/-- The code points that a table of ranges and expansions gives for a code point. -/
private def caseMap (ranges : List CaseRange) (expansions : List (Nat × List Nat)) (n : Nat) :
    List Nat :=
  match expansions.find? (·.1 == n) with
  | some (_, mapped) => mapped
  | none =>
    match ranges.find? (fun r ↦ r.first ≤ n && n ≤ r.last && (n - r.first) % r.step == 0) with
    | some r => [((n : Int) + r.delta).toNat]
    | none => [n]

/-- The lower case of a character that stands alone. -/
def lowerChar (c : Char) : List Char :=
  if c.toNat < 128 then [c.toLower]
  else (caseMap lowerRanges lowerExpansions c.toNat).map Char.ofNat

/-- The upper case of a character. -/
def upperChar (c : Char) : List Char :=
  if c.toNat < 128 then [c.toUpper]
  else (caseMap upperRanges upperExpansions c.toNat).map Char.ofNat

/-- Whether the first character that is not passed over is a cased letter. -/
private def startsCased (cs : List Char) : Bool :=
  match cs.dropWhile caseIgnorableChars.contains with
  | [] => false
  | c :: _ => casedChars.contains c

/-- Lower case of `cs`, where `before` holds the characters before it, the nearest first. -/
private def lowerFrom (before : List Char) : List Char → List Char
  | [] => []
  | c :: cs =>
    let mapped :=
      if c = 'Σ' then [if startsCased before && !startsCased cs then 'ς' else 'σ'] else lowerChar c
    mapped ++ lowerFrom (c :: before) cs

/-- A text in lower case. -/
def lower (s : String) : String := String.ofList (lowerFrom [] s.toList)

/-- A text in upper case. -/
def upper (s : String) : String := String.ofList (s.toList.flatMap upperChar)

/-- Whether two texts are equal up to the case of ASCII letters. -/
def equalIgnoringAsciiCase (s t : String) : Bool :=
  s.toList.map Char.toLower == t.toList.map Char.toLower

end PipingAssembly.Text
