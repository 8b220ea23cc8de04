import PathVeil.Log
import PathVeil.Pattern.Basic
import PathVeil.Rule.Fault

/-!
# PathVeil.Rule.Compilation

Rules ready to run. One pass over the rules compiles them, collects what is wrong
with them, and keeps the log. Rules that are switched off or have no pattern are
left out; a pattern larger than allowed makes the whole compilation fail, and the
failure names every such rule.

* `Compilation.takeRule` — one round of the pass;
* `Rule.compile` — what comes of all rules;
* `Rule.compileLog` — what the log says meanwhile.
-/

namespace PathVeil

/-- A rule that is ready to run. -/
structure CompiledRule where
  name : String
  pattern : Pattern
  deriving DecidableEq, Repr

/-- A compilation on its way through the rules. -/
structure Compilation where
  /-- What has been compiled, in order. -/
  compiled : List CompiledRule := []
  /-- What has been found wrong, in order. -/
  faults : List Fault := []
  /-- What the log has said, in order. -/
  logged : List Log.Record := []
  deriving DecidableEq, Repr

namespace Compilation

/-- The part of the program that compiles. -/
def speaker : String := "pathscrub_core::sanitizers::compiler"

/-- The text about a rule that would run but has no pattern. -/
def missingPatternWarning (name : String) : String :=
  s!"Skipping rule '{name}' because its pattern is missing."

/-- Says something in the log. -/
def say (progress : Compilation) (record : Log.Record) : Compilation :=
  { progress with logged := progress.logged ++ [record] }

/-- Adds to what has been found wrong. -/
def reject (progress : Compilation) (fault : Fault) : Compilation :=
  { progress with faults := progress.faults ++ [fault] }

/-- Adds to what has been compiled, and tells how many tokens it has. -/
def add (progress : Compilation) (rule : CompiledRule) : Compilation :=
  { progress with
    compiled := progress.compiled ++ [rule]
    logged := progress.logged ++ [⟨.debug, "pathscrub_core::sanitizer",
      s!"Rule '{rule.name}' compiled into {rule.pattern.tokens.length} tokens."⟩] }

/-- Takes in one more rule. -/
def takeRule (progress : Compilation) (rule : Rule) : Compilation :=
  if !rule.isEnabled then
    progress.say ⟨.debug, speaker, s!"Skipping disabled rule '{rule.name}'."⟩
  else
    match rule.pattern with
    | none => progress.say ⟨.warn, speaker, missingPatternWarning rule.name⟩
    | some pattern =>
      if Rule.isOverlong pattern then progress.reject (.overlong rule pattern)
      else progress.add ⟨rule.name, Pattern.compile rule.replaceWith.toList pattern.toList⟩

/-- The failure of a compilation in which these faults turned up. -/
def failure (faults : List Fault) : Fault :=
  .fatal s!"Failed to compile {faults.length} rule(s):\n{Fault.lines faults}"

/-- What has come of the rules at the end of the pass. -/
def result (progress : Compilation) : Except Fault (List CompiledRule) :=
  if progress.faults.isEmpty then .ok progress.compiled else .error (failure progress.faults)

end Compilation

namespace Rule

/-- The pass over a list of rules. -/
def compilation (rules : List Rule) : Compilation := rules.foldl .takeRule {}

/-- The compiled rules, in order. -/
def compile (rules : List Rule) : Except Fault (List CompiledRule) := (compilation rules).result

/-- The records of a compilation. -/
def compileLog (rules : List Rule) : List Log.Record :=
  ⟨.debug, Compilation.speaker, s!"Starting compilation of {rules.length} rules."⟩
    :: (compilation rules).logged
    ++ match compile rules with
      | .ok compiled =>
        [⟨.debug, Compilation.speaker,
          s!"Finished compiling rules. Total compiled: {compiled.length}."⟩]
      | .error _ => []

/-- The warnings of a compilation, in order. -/
def compileWarnings (rules : List Rule) : List String :=
  ((compileLog rules).filter (·.level = .warn)).map Log.Record.message

end Rule

end PathVeil
