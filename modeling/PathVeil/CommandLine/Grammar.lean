/-!
# PathVeil.CommandLine.Grammar

Command lines in general. A command has options, long ones with two dashes and
short ones of one letter, which may be written together; it may take plain
words, and it may have subcommands, each of which begins a command line of its
own. Behind two dashes there are only plain words.

An option that takes a value gets it behind an equals sign, behind its letter, or
as the next argument, unless that looks like an option itself.
-/

namespace PathVeil.CommandLine

/-- Why a command line is not carried out. -/
inductive Refusal where
  | displayHelp
  | displayVersion
  /-- Nothing was asked for, so the help is shown. -/
  | displayHelpOnMissing
  | missingSubcommand
  | invalidSubcommand
  | unknownArgument
  | invalidValue
  | tooManyValues
  | argumentConflict
  | missingRequired
  deriving DecidableEq, Repr

namespace Refusal

/-- The name of the refusal. -/
def name : Refusal → String
  | .displayHelp => "DisplayHelp"
  | .displayVersion => "DisplayVersion"
  | .displayHelpOnMissing => "DisplayHelpOnMissingArgumentOrSubcommand"
  | .missingSubcommand => "MissingSubcommand"
  | .invalidSubcommand => "InvalidSubcommand"
  | .unknownArgument => "UnknownArgument"
  | .invalidValue => "InvalidValue"
  | .tooManyValues => "TooManyValues"
  | .argumentConflict => "ArgumentConflict"
  | .missingRequired => "MissingRequiredArgument"

/-- The exit code of the program: it is no failure to be asked for help. -/
def exitCode : Refusal → Nat
  | .displayHelp | .displayVersion => 0
  | _ => 2

end Refusal

/-- What an option does. -/
inductive Action where
  /-- Is on once it is there. -/
  | flag
  | showHelp
  | showVersion
  /-- Takes one value, which may have to be non-empty. -/
  | single (nonEmpty : Bool)
  /-- Takes one value each time it is there. -/
  | repeated
  deriving DecidableEq, Repr

/-- Whether the option takes a value. -/
def Action.takesValue : Action → Bool
  | .single _ | .repeated => true
  | _ => false

/-- An option. -/
structure OptionSpec where
  long : String
  short : Option Char := none
  action : Action := .flag
  deriving DecidableEq, Repr

/-- What a command understands. -/
structure Grammar where
  options : List OptionSpec
  /-- Whether the command takes plain words. -/
  words : Bool := false
  /-- The subcommands, each with its own subcommands. -/
  subcommands : List (String × List String) := []
  deriving Repr

/-- The word that asks for help about a subcommand. -/
def helpWord : String := "help"

namespace Grammar

/-- The names of the subcommands, with the one for help. -/
def subcommandNames (grammar : Grammar) : List String :=
  if grammar.subcommands.isEmpty then [] else grammar.subcommands.map (·.1) ++ [helpWord]

/-- The refusal to a request for help about a subcommand. -/
def help (grammar : Grammar) (words : List String) : Refusal :=
  match words with
  | [] => .displayHelp
  | word :: others =>
    if word = helpWord then if others.isEmpty then .displayHelp else .invalidSubcommand
    else
      match grammar.subcommands.find? (·.1 == word), others with
      | none, _ => .invalidSubcommand
      | some _, [] => .displayHelp
      | some (_, below), [last] => if below.contains last then .displayHelp else .invalidSubcommand
      | some _, _ => .invalidSubcommand

end Grammar

/-! ### Arguments of one command -/

/-- What has been understood of the arguments of one command. -/
structure Arguments where
  flags : List String := []
  /-- The values, in order, each with the long name of its option. -/
  values : List (String × String) := []
  words : List String := []
  /-- The last option that takes a value, and the value once it is there. -/
  pending : Option (OptionSpec × Option String) := none
  /-- Whether two dashes have come by. -/
  onlyWords : Bool := false
  deriving Repr

namespace Arguments

/-- Whether a flag is on. -/
def has (arguments : Arguments) (flag : String) : Bool := arguments.flags.contains flag

/-- The values of an option. -/
def all (arguments : Arguments) (option : String) : List String :=
  (arguments.values.filter (·.1 == option)).map (·.2)

/-- The value of an option. -/
def value? (arguments : Arguments) (option : String) : Option String :=
  (arguments.all option).head?

/-- Whether there is anything at all. -/
def isEmpty (arguments : Arguments) : Bool :=
  arguments.flags.isEmpty && arguments.values.isEmpty && arguments.words.isEmpty

/-- Whether the last option still waits for its value. -/
def awaitsValue (arguments : Arguments) : Bool := arguments.pending.any (·.2.isNone)

/-- Takes in a value of an option. -/
def record (arguments : Arguments) (spec : OptionSpec) (value : String) :
    Except Refusal Arguments :=
  let next := { arguments with values := arguments.values ++ [(spec.long, value)] }
  match spec.action with
  | .single nonEmpty =>
    if (arguments.value? spec.long).isSome then .error .argumentConflict
    else if nonEmpty && value.isEmpty then .error .invalidValue
    else .ok next
  | _ => .ok next

/-- Is done with the last option. -/
def settle (arguments : Arguments) : Except Refusal Arguments :=
  match arguments.pending with
  | none => .ok arguments
  | some (_, none) => .error .invalidValue
  | some (spec, some value) => { arguments with pending := none }.record spec value

/-- Takes in an option without a value. -/
def act (arguments : Arguments) (spec : OptionSpec) : Except Refusal Arguments := do
  let arguments ← arguments.settle
  match spec.action with
  | .showHelp => throw .displayHelp
  | .showVersion => throw .displayVersion
  | _ =>
    if arguments.has spec.long then throw .argumentConflict
    else return { arguments with flags := arguments.flags ++ [spec.long] }

/-- Takes in an option with a value, which may be still to come. -/
def begin (arguments : Arguments) (spec : OptionSpec) (value : Option String) :
    Except Refusal Arguments := do
  let arguments ← arguments.settle
  match value with
  | some value => arguments.record spec value
  | none => return { arguments with pending := some (spec, none) }

/-- Takes in a long option. -/
def long (grammar : Grammar) (arguments : Arguments) (text : String) : Except Refusal Arguments :=
  let (name, value) := match text.splitOn "=" with
    | [] => (text, none)
    | [name] => (name, none)
    | name :: rest => (name, some ("=".intercalate rest))
  match grammar.options.find? (·.long == name) with
  | none => .error .unknownArgument
  | some spec =>
    if spec.action.takesValue then arguments.begin spec value
    else if value.isSome then .error .tooManyValues
    else arguments.act spec

/-- Takes in short options written together. -/
def short (grammar : Grammar) (arguments : Arguments) : List Char → Except Refusal Arguments
  | [] => .ok arguments
  | c :: rest =>
    match grammar.options.find? (·.short == some c) with
    | none => .error .unknownArgument
    | some spec =>
      if spec.action.takesValue then
        match rest with
        | [] => arguments.begin spec none
        | '=' :: value => arguments.begin spec (some (String.ofList value))
        | value => arguments.begin spec (some (String.ofList value))
      else
        match arguments.act spec with
        | .error refusal => .error refusal
        | .ok arguments => short grammar arguments rest

/-- Takes in a plain word. -/
def word (grammar : Grammar) (arguments : Arguments) (text : String) : Except Refusal Arguments :=
  if grammar.words then do
    let arguments ← arguments.settle
    return { arguments with words := arguments.words ++ [text] }
  else if grammar.subcommands.isEmpty
      || arguments.onlyWords && grammar.subcommandNames.contains text then
    .error .unknownArgument
  else .error .invalidSubcommand

/-- Takes in one argument that is not a subcommand. -/
def argument (grammar : Grammar) (arguments : Arguments) (text : String) :
    Except Refusal Arguments :=
  if arguments.onlyWords then arguments.word grammar text
  else
    match text.toList with
    | ['-', '-'] => .ok { arguments with onlyWords := true }
    | '-' :: '-' :: rest => arguments.long grammar (String.ofList rest)
    | '-' :: c :: rest => arguments.short grammar (c :: rest)
    | _ =>
      match arguments.pending with
      | some (spec, none) => .ok { arguments with pending := some (spec, some text) }
      | _ => arguments.word grammar text

/-- Whether an argument is a subcommand. -/
def isSubcommand (grammar : Grammar) (arguments : Arguments) (text : String) : Bool :=
  !arguments.onlyWords && !arguments.awaitsValue && grammar.subcommandNames.contains text

/-- Understands the arguments of a command up to a subcommand. Gives the
subcommand and what follows it, if there is one. -/
def read (grammar : Grammar) (arguments : Arguments) :
    List String → Except Refusal (Arguments × Option (String × List String))
  | [] => return (← arguments.settle, none)
  | text :: rest =>
    if arguments.isSubcommand grammar text then
      if text = helpWord then .error (grammar.help rest) else .ok (arguments, some (text, rest))
    else
      match arguments.argument grammar text with
      | .error refusal => .error refusal
      | .ok arguments => read grammar arguments rest

end Arguments

end PathVeil.CommandLine
