/-!
# Grammars of command lines

A command takes options, and either texts by position or a further command. An option has a long
name and perhaps a letter; its value follows in the same argument or in the next one. Options after
a double dash are texts.
-/

namespace PipingAssembly.Command

/-- An option of a command. -/
structure OptionSpec where
  name : String
  letter : Option Char := none
  /-- what a value has to satisfy; an option without a value is a flag -/
  value : Option (String → Bool) := none
  /-- whether the option may be given more than once -/
  repeats : Bool := false

/-- The texts that a command takes by position. -/
structure PositionalSpec where
  least : Nat := 0
  most : Option Nat := none
  /-- what each text has to satisfy -/
  accepts : String → Bool := fun _ ↦ true

/-- A command: its name, its options, its texts and the commands that may follow it. -/
inductive Grammar where
  | node (name : String) (options : List OptionSpec) (positional : PositionalSpec)
      (commands : List Grammar)

namespace Grammar

/-- The name of a command. -/
def name : Grammar → String
  | node name .. => name

/-- The options of a command. -/
def options : Grammar → List OptionSpec
  | node _ options .. => options

/-- The texts that a command takes. -/
def positional : Grammar → PositionalSpec
  | node _ _ positional _ => positional

/-- The commands that may follow a command. -/
def commands : Grammar → List Grammar
  | node _ _ _ commands => commands

/-- The command with a name that may follow a command. -/
def command? (g : Grammar) (name : String) : Option Grammar := g.commands.find? (·.name == name)

/-- Whether words lead from a command to one that has a help text. -/
def hasHelpFor (g : Grammar) : List String → Bool
  | [] => true
  | word :: rest =>
    match g.command? word with
    | some next => next.hasHelpFor rest
    | none => word == "help" && !g.commands.isEmpty && rest.isEmpty

end Grammar

/-- Why arguments are no call of a command. -/
inductive Stop where
  /-- they ask for help -/
  | help
  /-- they ask for the version of the commands named -/
  | version (commands : List String)
  | misuse
  deriving DecidableEq, Repr

/-- The arguments of a call: the commands, the options and the texts. Options of later commands come
first. -/
structure Call where
  commands : List String := []
  options : List (String × String) := []
  texts : List String := []
  deriving DecidableEq, Repr, Inhabited

/-- How far the arguments of one command have been read. -/
structure Progress where
  /-- the names of the commands so far, this one included -/
  commands : List String
  options : List (String × String) := []
  texts : List String := []
  /-- whether a double dash has been read -/
  onlyTexts : Bool := false
  /-- whether the option read last may stand as it is -/
  isSound : Bool := true

namespace Progress

/-- Adds an option; it is looked at when the next argument of the command is read. -/
private def addOption (p : Progress) (o : OptionSpec) (value : String) : Progress :=
  let isNew := o.repeats || !p.options.any (·.1 == o.name)
  { p with
    options := p.options ++ [(o.name, value)]
    isSound := isNew && o.value.all (· value) }

/-- The call that is complete with this command. -/
private def finish (p : Progress) (g : Grammar) : Except Stop Call :=
  if p.isSound && g.commands.isEmpty && g.positional.least ≤ p.texts.length then
    .ok ⟨p.commands, p.options, p.texts⟩
  else .error .misuse

/-- Adds a text. -/
private def addText (p : Progress) (g : Grammar) (s : String) : Except Stop Progress :=
  if g.positional.most.all (p.texts.length < ·) && g.positional.accepts s then
    .ok { p with texts := p.texts ++ [s] }
  else .error .misuse

end Progress

/-- What an argument with options asks for: flags and options with their values, and an option whose
value is the next argument. -/
private structure OptionArgument where
  complete : List (OptionSpec × String) := []
  waiting : Option OptionSpec := none
  stop : Option Stop := none

/-- Reads the letters of an argument. -/
private def readLetters (g : Grammar) (commands : List String) : List Char → OptionArgument
  | [] => {}
  | 'h' :: _ => { stop := some .help }
  | 'V' :: _ => { stop := some (.version commands) }
  | c :: cs =>
    match g.options.find? (·.letter == some c) with
    | none => { stop := some .misuse }
    | some o =>
      if o.value.isNone then
        let later := readLetters g commands cs
        { later with complete := (o, "") :: later.complete }
      else
        match cs with
        | [] => { waiting := some o }
        | '=' :: cs => { complete := [(o, String.ofList cs)] }
        | cs => { complete := [(o, String.ofList cs)] }

/-- Reads an argument with the long name of an option. -/
private def readName (g : Grammar) (commands : List String) (cs : List Char) : OptionArgument :=
  let name := String.ofList (cs.takeWhile (· != '='))
  let attached :=
    match cs.dropWhile (· != '=') with
    | '=' :: value => some (String.ofList value)
    | _ => none
  match name, attached with
  | "help", none => { stop := some .help }
  | "version", none => { stop := some (.version commands) }
  | name, attached =>
    match g.options.find? (·.name == name) with
    | none => { stop := some .misuse }
    | some o =>
      match o.value, attached with
      | none, none => { complete := [(o, "")] }
      | none, some _ => { stop := some .misuse }
      | some _, some value => { complete := [(o, value)] }
      | some _, none => { waiting := some o }

/-- Whether an argument is an option or a double dash. -/
private def isOptionLike (s : String) : Bool := s.toList.head? == some '-' && s != "-"

/-- Adds the options of an argument, none of which may follow one that does not stand. -/
private def addOptions (p : Progress) : List (OptionSpec × String) → Except Stop Progress
  | [] => .ok p
  | (o, value) :: rest =>
    if !p.isSound then .error .misuse
    else
      let p := p.addOption o value
      if o.value.isNone && !p.isSound then .error .misuse else addOptions p rest

mutual

/-- Reads the arguments of a command and of those that follow it. -/
private def readArguments (g : Grammar) (p : Progress) : List String → Except Stop Call
  | [] => p.finish g
  | arg :: rest =>
    if p.onlyTexts then do readArguments g (← p.addText g arg) rest
    else if arg == "--" then readArguments g { p with onlyTexts := true } rest
    else if isOptionLike arg then
      let options :=
        match arg.toList with
        | '-' :: '-' :: cs => readName g p.commands cs
        | _ :: cs => readLetters g p.commands cs
        | [] => {}
      match addOptions p options.complete with
      | .error stop => .error stop
      | .ok p =>
        match options.stop, options.waiting with
        | some stop, _ => .error (if p.isSound then stop else .misuse)
        | none, none => readArguments g p rest
        | none, some o => if p.isSound then readValue g p o rest else .error .misuse
    else
      match g.command? arg with
      | some next =>
        match readArguments next { commands := p.commands ++ [arg] } rest with
        | .error stop => .error stop
        | .ok call =>
          if p.isSound then .ok { call with options := call.options ++ p.options }
          else .error .misuse
      | none =>
        if !g.commands.isEmpty then
          if arg == "help" && g.hasHelpFor rest then .error .help else .error .misuse
        else do readArguments g (← p.addText g arg) rest

/-- Reads the value of an option from the next argument. -/
private def readValue (g : Grammar) (p : Progress) (o : OptionSpec) :
    List String → Except Stop Call
  | [] => .error .misuse
  | arg :: rest =>
    if isOptionLike arg then .error .misuse else readArguments g (p.addOption o arg) rest

end

/-- Reads the arguments of a call. -/
def Grammar.read (g : Grammar) (arguments : List String) : Except Stop Call :=
  readArguments g { commands := [g.name] } arguments

end PipingAssembly.Command
