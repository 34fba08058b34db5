import PipingAssembly.Schema.Validation

/-!
# Violations as users see them
-/

namespace PipingAssembly

/-- The number of the line of a text that holds a byte, counted from one. -/
private def lineNumber (offset : Nat) : Nat → List String → Nat
  | number, [] => number
  | number, line :: lines =>
    if offset ≤ line.utf8ByteSize then number
    else lineNumber (offset - line.utf8ByteSize - 1) (number + 1) lines

/-- The line that shows a message at a span. -/
private def messageLine (content : String) (span : Span) (message : String) : String :=
  let line := Decimal.natText (lineNumber span.offset 1 (Text.lines content))
  "    line " ++ line ++ ": " ++ message

/-- The lines that show a violation. -/
private def violationLines (content : String) (span : Span) (v : Violation) : List String :=
  messageLine content span (v.message ++ " (" ++ v.hint ++ ")") ::
    (v.help?.map fun help ↦ "      help: " ++ help).toList

/-- The text that shows why a document is refused. -/
def Refusal.display (content : String) (r : Refusal) : String :=
  let details :=
    match r with
    | .notYaml span => span.toList.map (messageLine content · "the document is not YAML")
    | .noJsonForm => ["    a key of the document is no text"]
    | r => (r.located content).flatMap fun (span, v) ↦ violationLines content span v
  String.join ((("  × " ++ r.summary) :: details).map (· ++ "\n")) ++ "\n"

end PipingAssembly
