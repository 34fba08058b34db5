import PipingAssembly.Rule.Basic

/-!
# The catalog of a new project
-/

namespace PipingAssembly

/-- The rules of a new project. -/
def seedRules : List Rule := [
  { id := "R-BOLT-NUT", name := "Bolt and nut thread engagement", priority := 10
    description := some "A bolt and a nut with the same thread size"
    condition := .boltNutPair, action := ⟨.screw, { revolutions := some 8 }⟩ },
  { id := "R-FLANGE-FLANGE", name := "Flange face to face", priority := 9
    condition := .both { field := "family", value := some "flange" }
    action := ⟨.concentric, { distance := some 20, fasteners := some { boltCount := some 4 } }⟩ },
  { id := "R-THREAD", name := "Compatible threads", priority := 9
    condition := .threadMatch, action := ⟨.screw, { revolutions := some 5 }⟩ },
  { id := "R-VALVE", name := "Valve inline", priority := 8
    condition := .nameContains "valve", action := ⟨.concentric, { distance := some 150 }⟩ },
  { id := "R-PIPE", name := "Pipe run", priority := 5
    condition := .nameContains "pipe", action := ⟨.concentric, {}⟩ },
  { id := "R-ADJACENT", name := "Adjacent parts", priority := 1
    description := some "Neighbouring instances of an exchange file"
    condition := .distanceRange 0 500, action := ⟨.coincident, {}⟩ }]

/-- The parts of a new project. -/
def seedParts : List Part := [
  { id := "FL-DN50-PN16", name := some "Weld neck flange DN50 PN16", family := .flange
    dn := some 50, pn := some 16 },
  { id := "VALVE-DN50", name := some "Gate valve DN50", family := .valve, dn := some 50
    pn := some 16 },
  { id := "PIPE-DN50", name := some "Pipe DN50", family := .pipe, dn := some 50 },
  { id := "M16", name := some "Hex bolt M16x60", family := .bolt
    metadata := [("thread", "M16")] },
  { id := "NUT-M16", name := some "Hex nut M16", family := .nut
    metadata := [("thread", "M16")] }]

end PipingAssembly
