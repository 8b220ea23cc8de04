/-!
# PathVeil.Log

Log records, and the level filter that decides which of them are shown.

A filter is a list of directives, each a target and the least urgent level it
lets through. The directive with the longest target that a record's target
starts with decides; a record no directive speaks about is not shown.
-/

namespace PathVeil.Log

/-! ### Levels and records -/

/-- How urgent a record is, the most urgent first. -/
inductive Level where
  | error
  | warn
  | info
  | debug
  | trace
  deriving DecidableEq, Repr

namespace Level

/-- The rank of the level: the more urgent, the lower. -/
def rank : Level → Nat
  | .error => 1
  | .warn => 2
  | .info => 3
  | .debug => 4
  | .trace => 5

/-- The level's name in log lines. -/
def name : Level → String
  | .error => "ERROR"
  | .warn => "WARN"
  | .info => "INFO"
  | .debug => "DEBUG"
  | .trace => "TRACE"

end Level

/-- One message for the log. -/
structure Record where
  level : Level
  /-- The part of the program that speaks. -/
  target : String
  message : String
  deriving DecidableEq, Repr

/-- The record as a line. -/
def Record.line (record : Record) : String :=
  s!"[{record.level.name} {record.target}] {record.message}"

/-! ### Filters -/

/-- The least urgent level that is shown, or nothing at all. -/
abbrev Threshold := Option Level

namespace Threshold

/-- Whether a record of this level is shown. -/
def admits (threshold : Threshold) (level : Level) : Bool :=
  match threshold with
  | none => false
  | some least => level.rank ≤ least.rank

/-- Reads the name of a threshold, in any case. -/
def ofName? (text : String) : Option Threshold :=
  let lower := String.ofList (text.toList.map Char.toLower)
  match lower with
  | "off" => some none
  | "error" => some (some .error)
  | "warn" => some (some .warn)
  | "info" => some (some .info)
  | "debug" => some (some .debug)
  | "trace" => some (some .trace)
  | _ => none

end Threshold

/-- The threshold for the targets that start with a text; without a text, for
all targets. -/
structure Directive where
  target : Option String
  threshold : Threshold
  deriving DecidableEq, Repr

namespace Directive

/-- The length by which directives are compared. -/
def reach (directive : Directive) : Nat := (directive.target.map String.length).getD 0

/-- Whether the directive speaks about a target. -/
def covers (directive : Directive) (target : String) : Bool :=
  match directive.target with
  | none => true
  | some start => start.toList.isPrefixOf target.toList

/-- Reads one directive: a level, a target, or a target with a level. An empty
level lets everything through. What cannot be read is given back. -/
def ofText (text : String) : Except String Directive :=
  match text.splitOn "=" with
  | [one] =>
    match Threshold.ofName? one with
    | some threshold => .ok ⟨none, threshold⟩
    | none => .ok ⟨some one, some .trace⟩
  | [target, level] =>
    let level := level.trimAscii.toString
    if level.isEmpty then .ok ⟨some target, some .trace⟩
    else
      match Threshold.ofName? level with
      | some threshold => .ok ⟨some target, threshold⟩
      | none => .error level
  | _ => .error text

end Directive

/-- A log filter. -/
structure Filter where
  directives : List Directive := []
  /-- A text that every message has to contain. -/
  needle : Option String := none
  /-- What could not be read, in order. -/
  rejected : List String := []
  deriving DecidableEq, Repr

namespace Filter

/-- Puts a directive in the place of the one with the same target. -/
def insert (directives : List Directive) (directive : Directive) : List Directive :=
  if directives.any (·.target == directive.target) then
    directives.map fun other => if other.target == directive.target then directive else other
  else
    directives ++ [directive]

/-- Takes in one part of a list of directives. -/
def addPart (filter : Filter) (part : String) : Filter :=
  match Directive.ofText part with
  | .ok directive => { filter with directives := insert filter.directives directive }
  | .error rejected => { filter with rejected := filter.rejected ++ [s!"'{rejected}'"] }

/-- Reads a comma-separated list of directives, and behind a slash the text that
messages have to contain. With two slashes nothing of the list is used. -/
def ofText (text : String) : Filter :=
  let parts (spec : String) : List String :=
    ((spec.splitOn ",").map fun part => part.trimAscii.toString).filter (!·.isEmpty)
  match text.splitOn "/" with
  | [spec] => (parts spec).foldl addPart {}
  | [spec, needle] => { (parts spec).foldl addPart {} with needle := some needle }
  | _ => { rejected := [s!"'{text}' (too many '/'s)"] }

/-- The complaints about what could not be read, one line each. -/
def complaints (filter : Filter) : String :=
  String.join (filter.rejected.map fun text =>
    s!"warning: invalid logging spec {text}, ignoring it\n")

/-- Replaces the threshold for all targets. -/
def withThreshold (filter : Filter) (threshold : Threshold) : Filter :=
  { filter with directives := insert filter.directives ⟨none, threshold⟩ }

/-- The directives in force: without any, errors are shown. -/
def effective (filter : Filter) : List Directive :=
  if filter.directives.isEmpty then [⟨none, some .error⟩] else filter.directives

/-- The directive that decides about a target: of those that speak about it,
the last of the longest. -/
def decisive? (directives : List Directive) (target : String) : Option Directive :=
  (directives.filter (·.covers target)).foldl (fun best directive =>
    match best with
    | none => some directive
    | some other => if other.reach ≤ directive.reach then some directive else best) none

/-- Whether a text contains another one. -/
def contains (needle : List Char) : List Char → Bool
  | [] => needle.isEmpty
  | c :: text => needle.isPrefixOf (c :: text) || contains needle text

/-- Whether the filter shows a record. -/
def admits (filter : Filter) (record : Record) : Bool :=
  match decisive? filter.effective record.target with
  | none => false
  | some directive =>
    directive.threshold.admits record.level
      && filter.needle.all fun needle => contains needle.toList record.message.toList

end Filter

end PathVeil.Log
