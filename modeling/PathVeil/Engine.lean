import PathVeil.Failure
import PathVeil.Rule.Compilation
import PathVeil.Summary

/-!
# PathVeil.Engine

Compiled rules at work. Each rule is applied to what the one before it has
left. A match that changes nothing does not count: it leaves no record.

* `Engine.apply` — the rules on a path, under an observer of the changes;
* `Engine.filter` — the path after all rules;
* `Engine.sanitize` — that path and the redactions;
* `Engine.stats` — the statistics of many paths.
-/

namespace PathVeil

/-- One change of a path by a rule. -/
structure Change where
  ruleName : String
  extent : Extent
  before : Path
  after : Path
  deriving DecidableEq, Repr

namespace Change

/-- The record of the change. -/
def redaction (change : Change) (sourceId : String) : Redaction :=
  .ofChange change.ruleName change.extent change.before change.after sourceId

/-- What the log says about the change. -/
def logRecord (reveal : Bool) (change : Change) : Log.Record :=
  Redaction.logRecord reveal "pathscrub_core::engines::rule_engine" change.ruleName
    change.before change.after

end Change

/-- What a rule makes of the path in hand, if it matches. A text that was built
is given up with this step, so nothing of it is lent on. -/
def CompiledRule.rewrite? (rule : CompiledRule) (current : Rendered) : Option (Extent × Rendered) :=
  let outcome := rule.pattern.find current.path
  outcome.extent?.map fun extent =>
    match current with
    | .lent path => (extent, rule.pattern.rendered path outcome)
    | .built path => (extent, .built (rule.pattern.rendered path outcome).path)

/-- The rules of a configuration, compiled. -/
structure Engine where
  /-- The rules in force, in the order in which they are applied. -/
  rules : List CompiledRule
  /-- The configuration they come from. -/
  config : List Rule
  deriving DecidableEq, Repr

namespace Engine

/-- The engine of a configuration. -/
def ofRules (config : List Rule) : Except Failure Engine :=
  match Rule.compile config with
  | .ok rules => .ok ⟨rules, config⟩
  | .error fault => .error ⟨.fault fault, some .compiling⟩

/-- What the log says while an engine is made. -/
def setupLog (config : List Rule) : List Log.Record :=
  Rule.compileLog config ++ match Rule.compile config with
    | .ok rules =>
      [⟨.debug, "pathscrub_core::engines::rule_engine",
        s!"RuleEngine initialised with {rules.length} compiled rules."⟩]
    | .error _ => []

/-- Runs rules on the path in hand, each on what the one before it has left. An
observer with a state of its own sees every change as it happens. -/
def applyRules {σ : Type} (observe : σ → Change → σ) (state : σ) (current : Rendered) :
    List CompiledRule → σ × Rendered
  | [] => (state, current)
  | rule :: rules =>
    match rule.rewrite? current with
    | none => applyRules observe state current rules
    | some (extent, next) =>
      if next.path = current.path then applyRules observe state current rules
      else
        let change := ⟨rule.name, extent, current.path, next.path⟩
        applyRules observe (observe state change) next rules

/-- Runs all rules on a path under an observer. -/
def apply {σ : Type} (engine : Engine) (observe : σ → Change → σ) (state : σ) (path : Path) :
    σ × Rendered :=
  applyRules observe state (.lent path) engine.rules

/-- What is handed back after all rules. -/
def rendered (engine : Engine) (path : Path) : Rendered :=
  (engine.apply (fun state _ => state) () path).2

/-- The path after all rules. -/
def filter (engine : Engine) (path : Path) : Path := (engine.rendered path).path

/-- The path after all rules, and a record of every change. -/
def sanitize (engine : Engine) (path : Path) (sourceId : String) : Path × List Redaction :=
  let observe := fun redactions change => redactions ++ [Change.redaction change sourceId]
  let (redactions, final) := engine.apply observe [] path
  (final.path, redactions)

/-- What the log says while a path is sanitized. -/
def sanitizeLog (engine : Engine) (reveal : Bool) (path : Path) : List Log.Record :=
  (engine.apply (fun log change => log ++ [Change.logRecord reveal change]) [] path).1

/-- The statistics of a list of paths. -/
def stats (engine : Engine) (paths : List Path) : List SummaryItem :=
  (paths.foldl (fun (collector : Collector) path =>
    collector.recordAll (engine.sanitize path "").2) {}).items

end Engine

/-! ### One-shot filtering -/

/-- Filters one path with the rules of a configuration. -/
def filterPath (config : List Rule) (path : Path) : Except Failure Path :=
  (Engine.ofRules config).map (·.filter path)

/-- Filters a list of paths with the rules of a configuration. -/
def filterPaths (config : List Rule) (paths : List Path) : Except Failure (List Path) :=
  (Engine.ofRules config).map fun engine => paths.map engine.filter

end PathVeil
