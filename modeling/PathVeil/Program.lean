import PathVeil.Command

/-!
# PathVeil.Program

The program as a function from its arguments and its surroundings to what it
writes and how it ends.
-/

namespace PathVeil.Program

/-- The version of the program. -/
def version : String := "0.1.0"

/-- What `--version` prints. -/
def versionLine : String := s!"pathscrub {version}\n"

/-- What shows of the log: nothing in a quiet run, more in a debugging one, and
otherwise what the environment says, or warnings. -/
def logFilter (environment : Environment) (options : Options) : Log.Filter :=
  let base := Log.Filter.ofText (environment.logFilter.getD "warn")
  if options.quiet then base.withThreshold none
  else if options.debug then base.withThreshold (some .debug)
  else base

/-- How a program ends. -/
structure Ending where
  exitCode : Nat
  stderr : String
  world : World
  deriving Repr

/-- The short text for a command line that is not carried out. -/
def refusalText (refusal : CommandLine.Refusal) : String :=
  s!"error: {refusal.name}\n\nFor more information, try '--help'.\n"

/-- What is printed for a request for help. -/
def helpText : String :=
  "Scrub sensitive segments out of request paths\n\n" ++
  "Usage: pathscrub [OPTIONS] <COMMAND>\n\n" ++
  "Commands:\n" ++
  "  filter  Filter paths read one per line from a file or stdin\n" ++
  "  rules   Inspect rule sets and try out patterns\n" ++
  "  help    Print this message or the help of the given subcommand(s)\n\n" ++
  "Options:\n" ++
  "  -q, --quiet    Suppress all informational and debug messages\n" ++
  "  -d, --debug    Enable debug logging\n" ++
  "  -h, --help     Print help\n" ++
  "  -V, --version  Print version\n"

/-- The end of a program whose command line is not carried out. -/
def refuse (world : World) (refusal : CommandLine.Refusal) : Ending :=
  let print (text : String) : World := { world with stdout := Utf8.encode text.toList }
  match refusal with
  | .displayHelp => ⟨refusal.exitCode, "", print helpText⟩
  | .displayVersion => ⟨refusal.exitCode, "", print versionLine⟩
  | .displayHelpOnMissing => ⟨refusal.exitCode, helpText, world⟩
  | refusal => ⟨refusal.exitCode, refusalText refusal, world⟩

/-- The program from its command line to its end. -/
def run (environment : Environment) (arguments : List String) (world : World) : Ending :=
  match CommandLine.read environment.ruleFile arguments with
  | .error refusal => refuse world refusal
  | .ok options =>
    let filter := logFilter environment options
    let work : Run Unit := do
      Run.log [⟨.info, "pathscrub", s!"pathscrub started. Version: {version}"⟩]
      Command.run environment options.quiet options.command
    let (result, world) := work.run.run world
    let (exitCode, report) := match result with
      | .ok () => (0, "")
      | .error failure => (1, failure.report)
    ⟨exitCode, filter.complaints ++ world.stderr filter ++ report, world⟩

end PathVeil.Program
