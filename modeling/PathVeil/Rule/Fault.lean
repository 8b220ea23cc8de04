import PathVeil.Rule.Basic

/-!
# PathVeil.Rule.Fault

What can be wrong with rules, and how it is said.
-/

namespace PathVeil

/-- Something wrong with rules or with the work on them. -/
inductive Fault where
  /-- A rule that cannot be accepted. -/
  | invalidRule (name reason : String)
  /-- A pattern larger than allowed. -/
  | patternTooLong (name : String) (length limit : Nat)
  /-- A look-up by a name that no rule has. -/
  | ruleNotFound (name : String)
  /-- A failure of input or output. -/
  | io (detail : String)
  /-- A failure from elsewhere. -/
  | wrapped (detail : String)
  /-- A failure that leaves nothing to go on with. -/
  | fatal (detail : String)
  deriving DecidableEq, Repr

namespace Fault

/-- The text of the fault. -/
def message : Fault → String
  | .invalidRule name reason => s!"Invalid path rule '{name}': {reason}"
  | .patternTooLong name length limit =>
    s!"Rule '{name}': pattern length ({length}) exceeds maximum allowed ({limit})"
  | .ruleNotFound name => s!"Path rule '{name}' not found."
  | .io detail => s!"An unexpected I/O error occurred: {detail}"
  | .wrapped detail => s!"A critical system error occurred: {detail}"
  | .fatal detail => s!"A fatal error occurred: {detail}"

/-- One line for each fault. -/
def lines (faults : List Fault) : String := "\n".intercalate (faults.map message)

/-- The fault of a rule whose pattern is larger than allowed. -/
def overlong (rule : Rule) (pattern : String) : Fault :=
  .patternTooLong rule.name pattern.utf8ByteSize maxPatternLength

end Fault

/-- The rule of that name, or the fault that there is none. -/
def Rule.lookup (rules : List Rule) (name : String) : Except Fault Rule :=
  match Rule.find? rules name with
  | some rule => .ok rule
  | none => .error (.ruleNotFound name)

end PathVeil
