import PathVeil.FileTree
import PathVeil.Log

/-!
# PathVeil.World

What a run can see and change: files, the standard streams, and the log. A run
either ends with a result or fails; what it did before it failed stays done.
-/

namespace PathVeil

/-- What the surroundings say. -/
structure Environment where
  /-- The user's home directory. -/
  home : Option String := none
  /-- The directory for configuration files. -/
  configHome : Option String := none
  /-- The rule file to use. -/
  ruleFile : Option String := none
  /-- Whether the log may show paths as they were. -/
  revealPaths : Option String := none
  /-- What to show of the log. -/
  logFilter : Option String := none
  deriving Repr

namespace Environment

/-- Whether the log shows paths as they were. -/
def reveals (environment : Environment) : Bool :=
  environment.revealPaths.any fun text =>
    text.toList.map Char.toLower == "true".toList

/-- The home directory, if it has a name. -/
def homeDirectory? (environment : Environment) : Option String :=
  environment.home.filter (!·.isEmpty)

end Environment

/-- Something written to the standard error stream. -/
inductive Emission where
  | record (record : Log.Record)
  | text (text : String)
  deriving DecidableEq, Repr

/-- The state of the world. -/
structure World where
  files : FileTree := {}
  /-- The working directory. -/
  directory : Place := []
  stdin : List UInt8 := []
  stdout : List UInt8 := []
  /-- What has been written to the standard error stream, in order. -/
  emissions : List Emission := []
  deriving Repr

namespace World

/-- The texts of the standard error stream that a log filter lets through. -/
def stderr (filter : Log.Filter) (world : World) : String :=
  String.join (world.emissions.map fun
    | .record record => if filter.admits record then record.line ++ "\n" else ""
    | .text text => text)

/-- The log records so far, whether they are shown or not. -/
def records (world : World) : List Log.Record :=
  world.emissions.filterMap fun
    | .record record => some record
    | .text _ => none

end World

/-- A run. -/
abbrev Run (α : Type) := ExceptT Failure (StateM World) α

namespace Run

/-- Fails. -/
def fail {α : Type} (task : Option Task) (cause : Cause) : Run α := throw ⟨cause, task⟩

/-- The result of something that may fail with a failure of its own. -/
def ofExcept {α : Type} : Except Failure α → Run α
  | .ok a => pure a
  | .error failure => throw failure

/-- The result of something with files that may be refused. -/
def attempt {α : Type} (task : Task) : Except FileError α → Run α
  | .ok a => pure a
  | .error e => fail (some task) (.file e)

/-- Writes records to the log. -/
def log (records : List Log.Record) : Run Unit :=
  modify fun world => { world with emissions := world.emissions ++ records.map .record }

/-- Writes a text to the standard error stream. -/
def writeError (text : String) : Run Unit :=
  modify fun world => { world with emissions := world.emissions ++ [.text text] }

/-- Writes bytes to the standard output. -/
def writeOutput (bytes : List UInt8) : Run Unit :=
  modify fun world => { world with stdout := world.stdout ++ bytes }

/-- Gives the file at a place a content. -/
def setContent (place : Place) (content : List UInt8) : Run Unit :=
  modify fun world => { world with files := world.files.put place (.file content) }

end Run

end PathVeil
