import PipingAssembly.Command.Solving
import PipingAssembly.Command.Upkeep

/-!
# Calls of the program

A call either is a task for a workspace, or asks for help or the version, or is misuse.
-/

namespace PipingAssembly.Command

open Effect

/-- How a call ends. -/
inductive Ending where
  | done
  | failed (e : Failure)
  | misused
  deriving DecidableEq, Repr

/-- The number that tells others how a call ended. -/
def Ending.exitCode : Ending → Nat
  | done => 0
  | failed e => if e.isAbort then 101 else 1
  | misused => 2

/-- What is left of a call: the workspace, what was written, and how it ended. -/
structure Outcome where
  workspace : Workspace
  output : List Output := []
  notes : List String := []
  ending : Ending := .done
  deriving Inhabited

/-- The words of all commands that may follow the name of the program. -/
private def commandWords : List String := grammar.commands.map (·.name)

/-- The text of help. -/
def helpText : String :=
  "Rule-based mechanical assembly reconstruction\n\nUsage: tasm [OPTIONS] <COMMAND>\n\n" ++
    "Commands:\n" ++
    String.join (commandWords.map fun word ↦ "  " ++ word ++ "\n") ++
    "\nOptions:\n  -f, --format <FORMAT>\n  -q, --quiet\n  -v, --verbose\n" ++
    "      --project <PROJECT>\n  -h, --help\n  -V, --version\n"

/-- The completions of command words for a shell. -/
def completionScript (shell : Shell) : String :=
  let words := " ".intercalate commandWords
  let quoted := " ".intercalate (commandWords.map fun word ↦ "'" ++ word ++ "'")
  match shell with
  | .bash => "complete -W \"" ++ words ++ "\" tasm\n"
  | .zsh => "compctl -k \"(" ++ words ++ ")\" tasm\n"
  | .fish => "complete -c tasm -f -a \"" ++ words ++ "\"\n"
  | .elvish => "set edit:completion:arg-completer[tasm] = \x7b |@words| put " ++ words ++ " \x7d\n"
  | .powershell =>
    "Register-ArgumentCompleter -Native -CommandName tasm -ScriptBlock \x7b " ++ quoted ++ " \x7d\n"

/-- Does what a task asks for. -/
def Task.perform (o : CommonOptions) : Task → Effect Unit
  | .setUp path force => Command.setUp path force
  | .parse file => parseFile o file
  | .matchPair a b all => Command.matchPair o a b all
  | .solve options => solveParts o options
  | .listParts filter => Command.listParts o filter
  | .importParts file options => importFile o file options
  | .listRules all => Command.listRules o all
  | .syncStore => Command.syncStore o
  | .showStore => Command.showStore o
  | .check options => checkCatalog o options
  | .completions shell => print (completionScript shell)

/-- The options with the format that the configuration prefers where the call leaves it open. -/
def CommonOptions.completed (o : CommonOptions) (w : Workspace) : CommonOptions :=
  if o.format != .auto then o
  else
    let preferred := (Project.configuration w (o.discover w).toOption).defaultFormat
    { o with format := (preferred.bind OutputFormat.ofName?).getD .auto }

/-- Runs the program with arguments on a workspace. -/
def run (w : Workspace) (arguments : List String) : Outcome :=
  match readTask arguments with
  | .error .help => { workspace := w, output := [.text helpText] }
  | .error (.version commands) =>
    { workspace := w, output := [.text ("-".intercalate commands ++ " 0.1.0\n")] }
  | .error .misuse => { workspace := w, ending := .misused }
  | .ok (o, task) =>
    let (result, session) := (task.perform (o.completed w)).run.run { workspace := w }
    { workspace := session.workspace, output := session.output, notes := session.notes
      ending := match result with
        | .ok () => .done
        | .error e => .failed e }

end PipingAssembly.Command
