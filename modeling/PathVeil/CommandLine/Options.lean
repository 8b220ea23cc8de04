import PathVeil.CommandLine.Grammar
import PathVeil.Configuration

/-!
# PathVeil.CommandLine.Options

The command line of the program: what can be asked for, and how it is written.
-/

namespace PathVeil

/-- What is asked of the `filter` command. -/
structure FilterOptions where
  /-- The file with the paths; the standard input without one. -/
  inputFile : Option String := none
  /-- The file for the filtered paths; the standard output without one. -/
  output : Option String := none
  rules : RuleSource := {}
  noSummary : Bool := false
  /-- The file for the report. -/
  jsonFile : Option String := none
  deriving DecidableEq, Repr

/-- What is asked of the program. -/
inductive Command where
  | filter (options : FilterOptions)
  /-- Shows the active rules. -/
  | list (rules : RuleSource)
  /-- Shows what a pattern does to some paths. -/
  | check (pattern replacement : String) (paths : List String)
  deriving DecidableEq, Repr

/-- A command line. -/
structure Options where
  quiet : Bool
  debug : Bool
  command : Command
  deriving DecidableEq, Repr

namespace CommandLine

/-! ### What is understood -/

/-- The options that every command has. -/
def commonOptions : List OptionSpec := [
  ⟨"quiet", some 'q', .flag⟩,
  ⟨"debug", some 'd', .flag⟩,
  ⟨"help", some 'h', .showHelp⟩]

/-- The options that say where the rules come from. -/
def sourceOptions : List OptionSpec := [
  ⟨"config", none, .single true⟩,
  ⟨"no-defaults", none, .flag⟩,
  ⟨"pattern", some 'p', .repeated⟩,
  ⟨"replacement", some 'r', .single false⟩,
  ⟨"enable", some 'e', .repeated⟩,
  ⟨"disable", some 'x', .repeated⟩]

/-- The subcommands of `rules`. -/
def rulesSubcommands : List (String × List String) := [("list", []), ("check", [])]

/-- The program itself. -/
def programGrammar : Grammar where
  options := commonOptions ++ [⟨"version", some 'V', .showVersion⟩]
  subcommands := [("filter", []), ("rules", rulesSubcommands.map (·.1) ++ [helpWord])]

/-- The command `filter`. -/
def filterGrammar : Grammar where
  options := commonOptions ++ sourceOptions ++ [
    ⟨"input-file", some 'i', .single true⟩,
    ⟨"output", some 'o', .single true⟩,
    ⟨"no-summary", none, .flag⟩,
    ⟨"json-file", none, .single true⟩]

/-- The command `rules`. -/
def rulesGrammar : Grammar where
  options := commonOptions
  subcommands := rulesSubcommands

/-- The command `rules list`. -/
def listGrammar : Grammar where
  options := commonOptions ++ sourceOptions

/-- The command `rules check`. -/
def checkGrammar : Grammar where
  options := commonOptions ++ [
    ⟨"pattern", some 'p', .single false⟩,
    ⟨"replacement", some 'r', .single false⟩]
  words := true

/-! ### What is asked for -/

/-- Refuses what excludes each other. -/
def checkConflicts (arguments : Arguments) : Except Refusal Unit :=
  if arguments.has "quiet" && arguments.has "debug" then .error .argumentConflict else .ok ()

/-- Refuses a command that lacks its subcommand. -/
def refuseMissing {α : Type} (arguments : Arguments) : Except Refusal α :=
  .error (if arguments.isEmpty then .displayHelpOnMissing else .missingSubcommand)

/-- Names between commas. -/
def names (texts : List String) : List String := texts.flatMap (·.splitOn ",")

/-- Where the rules come from. Without an option for it, the rule file may be given
by the environment. -/
def ruleSource (arguments : Arguments) (environment : Option String) :
    Except Refusal RuleSource := do
  let config := arguments.value? "config"
  if config.isNone && environment = some "" then throw .invalidValue
  return {
    config := config <|> environment
    noDefaults := arguments.has "no-defaults"
    patterns := arguments.all "pattern"
    replacement := (arguments.value? "replacement").getD defaultReplacement
    enable := names (arguments.all "enable")
    disable := names (arguments.all "disable") }

/-- Reads the arguments of a command without subcommands. -/
def readLast (grammar : Grammar) (texts : List String) : Except Refusal Arguments := do
  return (← Arguments.read grammar {} texts).1

/-- Reads the arguments of `filter`. -/
def readFilter (environment : Option String) (texts : List String) :
    Except Refusal (Arguments × Command) := do
  let arguments ← readLast filterGrammar texts
  let rules ← ruleSource arguments environment
  checkConflicts arguments
  return (arguments, .filter {
    inputFile := arguments.value? "input-file"
    output := arguments.value? "output"
    rules
    noSummary := arguments.has "no-summary"
    jsonFile := arguments.value? "json-file" })

/-- Reads the arguments of `rules list`. -/
def readList (environment : Option String) (texts : List String) :
    Except Refusal (Arguments × Command) := do
  let arguments ← readLast listGrammar texts
  let rules ← ruleSource arguments environment
  checkConflicts arguments
  return (arguments, .list rules)

/-- Reads the arguments of `rules check`. -/
def readCheck (texts : List String) : Except Refusal (Arguments × Command) := do
  let arguments ← readLast checkGrammar texts
  checkConflicts arguments
  match arguments.value? "pattern", arguments.words with
  | some pattern, word :: words =>
    let replacement := (arguments.value? "replacement").getD defaultReplacement
    return (arguments, .check pattern replacement (word :: words))
  | _, _ => throw .missingRequired

/-- Reads the arguments of `rules`. -/
def readRules (environment : Option String) (texts : List String) :
    Except Refusal (List Arguments × Command) := do
  let (arguments, next) ← Arguments.read rulesGrammar {} texts
  let (last, command) ← match next with
    | some ("list", rest) => readList environment rest
    | some (_, rest) => readCheck rest
    | none => refuseMissing arguments
  checkConflicts arguments
  return ([arguments, last], command)

/-- Reads a command line, without the name of the program. `environment` is the
rule file that the environment gives. -/
def read (environment : Option String) (texts : List String) : Except Refusal Options := do
  let (arguments, next) ← Arguments.read programGrammar {} texts
  let (others, command) ← match next with
    | some ("filter", rest) =>
      let (last, command) ← readFilter environment rest
      pure ([last], command)
    | some (_, rest) => readRules environment rest
    | none => refuseMissing arguments
  checkConflicts arguments
  let levels := arguments :: others
  return {
    quiet := levels.any (·.has "quiet")
    debug := levels.any (·.has "debug")
    command }

end CommandLine

end PathVeil
