import PathVeil.Rule.Validation
import PathVeil.Yaml.Error

/-!
# PathVeil.Failure

Why a piece of work failed: a cause, and what was being done when it turned up.
-/

namespace PathVeil

/-- A refusal by the file system. -/
inductive FileError where
  | notFound
  | notDirectory
  | isDirectory
  | nameTooLong
  | permissionDenied
  deriving DecidableEq, Repr

/-- The text of the refusal. -/
def FileError.message : FileError → String
  | .notFound => "No such file or directory (os error 2)"
  | .notDirectory => "Not a directory (os error 20)"
  | .isDirectory => "Is a directory (os error 21)"
  | .nameTooLong => "File name too long (os error 36)"
  | .permissionDenied => "Permission denied (os error 13)"

/-- What went wrong. -/
inductive Cause where
  /-- Something wrong with the rules. -/
  | fault (fault : Fault)
  /-- A list of rules that was not accepted. -/
  | notAccepted (faults : List Fault)
  /-- A rule file that could not be understood. -/
  | yaml (error : Yaml.Error)
  /-- A file that could not be opened, read or written. -/
  | file (error : FileError)
  /-- A file that should be text and is not. -/
  | notText
  deriving DecidableEq, Repr

/-- The text of the cause. -/
def Cause.message : Cause → String
  | .fault found => found.message
  | .notAccepted faults => Rule.validationMessage faults
  | .yaml error => error.message
  | .file error => error.message
  | .notText => "stream did not contain valid UTF-8"

/-- What was being done. -/
inductive Task where
  | compiling
  | readingConfig (file : String)
  | parsingConfig (file : String)
  | openingInput (file : String)
  | creatingOutput (file : String)
  | readingLine
  | writingSummary (file : String)
  deriving DecidableEq, Repr

/-- The text of the task, as a failed one. -/
def Task.message : Task → String
  | .compiling => "Failed to compile path rules for RuleEngine"
  | .readingConfig file => s!"Failed to read config file {file}"
  | .parsingConfig file => s!"Failed to parse config file {file}"
  | .openingInput file => s!"Failed to open input file: {file}"
  | .creatingOutput file => s!"Failed to create output file: {file}"
  | .readingLine => "Failed to read input line"
  | .writingSummary file => s!"Failed to write JSON summary: {file}"

/-- A failure: the cause, and the task it spoilt if that has a name. -/
structure Failure where
  cause : Cause
  task : Option Task := none
  deriving DecidableEq, Repr

namespace Failure

/-- The texts of the failure, the outermost first. -/
def chain (failure : Failure) : List String :=
  (failure.task.map Task.message).toList ++ [failure.cause.message]

/-- The whole failure on one line. -/
def message (failure : Failure) : String := ": ".intercalate failure.chain

/-- The outermost text alone. -/
def headline (failure : Failure) : String := failure.chain.headD ""

/-- The failure as the program reports it at its end: the outermost text, and
the cause behind it set off by four spaces. -/
def report (failure : Failure) : String :=
  match failure.chain with
  | [] => ""
  | head :: causes =>
    let indent (text : String) := "\n".intercalate ((text.splitOn "\n").map ("    " ++ ·))
    let tail := if causes.isEmpty then "" else
      "\n\nCaused by:\n" ++ "\n".intercalate (causes.map indent)
    s!"Error: {head}{tail}\n"

end Failure

end PathVeil
