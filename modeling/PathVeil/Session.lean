import PathVeil.Engine
import PathVeil.Rule.Activation
import PathVeil.Rule.Overlay
import PathVeil.RuleFile

/-!
# PathVeil.Session

A configuration that is worked on step by step. A step that fails leaves the
configuration as it was.
-/

namespace PathVeil.Session

/-- One step. -/
inductive Step where
  /-- Starts again from the built-in rules. -/
  | loadDefaults
  /-- Starts again from the content of a rule file. -/
  | loadFile (content : List UInt8)
  /-- Adds a rule at the end. -/
  | push (rule : Rule)
  /-- Lays the user's rules over the configuration. -/
  | merge (rules : List Rule)
  | setActive (enable disable : List String)
  | find (name : String)
  | validate
  | compile
  | filter (path : Path)
  | sanitize (path : Path) (sourceId : String)
  | stats (paths : List Path)
  deriving Repr

/-- The answer to a step. -/
inductive Answer where
  | done
  | warnings (texts : List String)
  | rule (rule : Rule)
  /-- The outcome of a validation. -/
  | validation (faults : List Fault) (remarks : List Rule.Remark)
  | compiled (rules : List CompiledRule)
  | path (path : Path)
  | sanitized (path : Path) (redactions : List Redaction) (log : List Log.Record)
  | stats (items : List SummaryItem)
  deriving Repr

/-- What a step answers, and the configuration it leaves. -/
def perform (rules : List Rule) : Step → Except Failure (Answer × List Rule)
  | .loadDefaults => .ok (.done, RuleFile.defaults)
  | .loadFile content =>
    (RuleFile.load rulesFileName content).map fun loaded =>
      (.warnings ((Rule.remarks loaded).map (·.message)), loaded)
  | .push rule => .ok (.done, rules ++ [rule])
  | .merge user => .ok (.done, Rule.overlay rules user)
  | .setActive enable disable =>
    .ok (.warnings (Rule.activationWarnings enable disable rules),
      Rule.activate enable disable rules)
  | .find name =>
    match Rule.lookup rules name with
    | .ok rule => .ok (.rule rule, rules)
    | .error fault => .error ⟨.fault fault, none⟩
  | .validate => .ok (.validation (Rule.faults rules) (Rule.remarks rules), rules)
  | .compile =>
    match Rule.compile rules with
    | .ok compiled => .ok (.compiled compiled, rules)
    | .error fault => .error ⟨.fault fault, none⟩
  | .filter path => (filterPath rules path).map fun path => (.path path, rules)
  | .sanitize path sourceId =>
    (Engine.ofRules rules).map fun engine =>
      let (final, redactions) := engine.sanitize path sourceId
      (.sanitized final redactions (engine.sanitizeLog false path), rules)
  | .stats paths =>
    (Engine.ofRules rules).map fun engine => (.stats (engine.stats paths), rules)

/-- Performs steps one after another. Each result comes with the configuration
after the step. -/
def run (rules : List Rule) : List Step → List (Except Failure Answer × List Rule)
  | [] => []
  | step :: steps =>
    match perform rules step with
    | .ok (answer, next) => (.ok answer, next) :: run next steps
    | .error failure => (.error failure, rules) :: run rules steps

end PathVeil.Session
