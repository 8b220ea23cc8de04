import PathVeil.CommandLine.Options
import PathVeil.Json.Forms
import PathVeil.Report
import PathVeil.World

/-!
# PathVeil.Command

The commands of the program, as runs.

* `chosenRules`, `buildConfig` — the rules of a run;
* `runFilter` — filters paths from a file or the standard input;
* `Command.run` — any command.
-/

namespace PathVeil

namespace Command

/-- The part of the program that filters. -/
def speaker : String := "pathscrub::commands::filter"

/-- An informative record of the part of the program that filters. -/
def inform (message : String) : Run Unit := Run.log [⟨.info, speaker, message⟩]

/-! ### Rules -/

/-- The rules of a file. -/
def loadRules (file : String) : Run (List Rule) := do
  Run.log [RuleFile.startRecord file]
  let world ← get
  let content ← Run.attempt (.readingConfig file) (world.files.load world.directory file)
  Run.log (RuleFile.loadLog file content)
  Run.ofExcept (RuleFile.load file content)

/-- The rules of the first of the files that is there. -/
def loadFirst : List String → Run (Option (List Rule))
  | [] => return none
  | file :: files => do
    let world ← get
    if world.files.isFile world.directory file then
      return some (← loadRules file)
    else
      Run.log [Configuration.record .debug s!"No user rules at {file}"]
      loadFirst files

/-- The user's own rules, if there are any. -/
def loadUserRules (environment : Environment) : Run (Option (List Rule)) :=
  loadFirst (Configuration.userFiles environment.homeDirectory? environment.configHome)

/-- The rules of the file that the source names, or else the user's own. -/
def chosenRules (environment : Environment) (source : RuleSource) : Run (Option (List Rule)) :=
  match source.config with
  | some file => some <$> loadRules file
  | none => loadUserRules environment

/-- The active rules of a run. -/
def buildConfig (environment : Environment) (source : RuleSource) : Run (List Rule) := do
  Run.log (Configuration.builtInLog source)
  let user ← chosenRules environment source
  Run.log (Configuration.assembleLog source user)
  return Configuration.assemble source user

/-- The engine of a run. -/
def buildEngine (config : List Rule) : Run Engine := do
  Run.log (Engine.setupLog config)
  Run.ofExcept (Engine.ofRules config)

/-! ### Filtering -/

/-- Where paths come from. -/
inductive Input where
  | stdin
  | file (name : String) (place : Place)
  deriving DecidableEq, Repr

/-- What reports call the input. -/
def Input.sourceId : Input → String
  | .stdin => "stdin"
  | .file name _ => name

/-- Finds the input. -/
def openInput : Option String → Run Input
  | none => do
    inform "Reading paths from stdin..."
    return .stdin
  | some name => do
    inform s!"Reading paths from {name}"
    let world ← get
    return .file name (← Run.attempt (.openingInput name)
      (world.files.openNode world.directory name))

/-- Makes a file empty, whether it was there or not. -/
def create (task : Task) (name : String) : Run Place := do
  let world ← get
  let place ← Run.attempt task (world.files.writable world.directory name)
  Run.setContent place []
  return place

/-- Finds the output: a new file, or none for the standard output. -/
def openOutput : Option String → Run (Option Place)
  | none => return none
  | some name => do
    inform s!"Writing filtered paths to file: {name}"
    return some (← create (.creatingOutput name) name)

/-- Reads all of the input. -/
def readInput : Input → Run (List UInt8)
  | .stdin => return (← get).stdin
  | .file _ place => do Run.attempt .readingLine ((← get).files.contentAt place)

/-- Filters the input into the output. -/
def filterInto (engine : Engine) (reveal : Bool) (input : Input) (output : Option Place) :
    Run Report := do
  let bytes ← readInput input
  let filtered := Stream.filter engine reveal input.sourceId bytes
  Run.log filtered.log
  match output with
  | none => Run.writeOutput filtered.output
  | some place => Run.setContent place filtered.output
  return filtered.report

/-- Writes a report to a file. -/
def writeReport (report : Report) (name : String) : Run Unit := do
  let place ← create (.writingSummary name) name
  Run.setContent place (Utf8.encode (report.toJson.pretty 0).toList)
  inform s!"Redaction summary written to {name}"

/-- The command `filter`. -/
def runFilter (environment : Environment) (options : FilterOptions) (quiet : Bool) : Run Unit := do
  let engine ← buildEngine (← buildConfig environment options.rules)
  inform s!"Filtering with {engine.rules.length} active rules."
  let input ← openInput options.inputFile
  let output ← openOutput options.output
  let report ← filterInto engine environment.reveals input output
  if let some name := options.jsonFile then writeReport report name
  if !options.noSummary && !quiet then Run.writeError report.text
  inform "Filter operation completed."

/-! ### All commands -/

/-- Writes a text to the standard output. -/
def print (text : List Char) : Run Unit := Run.writeOutput (Utf8.encode text)

/-- Any command. -/
def run (environment : Environment) (quiet : Bool) : Command → Run Unit
  | .filter options => runFilter environment options quiet
  | .list source => do print (Rule.table (← buildConfig environment source)).toList
  | .check pattern replacement paths =>
    print ((Pattern.compile replacement.toList pattern.toList).previews (paths.map String.toList))

end Command

end PathVeil
