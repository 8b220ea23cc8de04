import PathVeil.Segment

/-!
# PathVeil.Rule.Basic

Redaction rules as they are configured: a name, a pattern, what to put in place
of its placeholders, and the switches that decide whether the rule runs.
-/

namespace PathVeil

/-- The largest size of a pattern, in bytes. -/
def maxPatternLength : Nat := 1024

/-- What takes the place of a placeholder unless a rule says otherwise. -/
def defaultReplacement : String := "XXX"

/-- The name of the user's rule file. -/
def rulesFileName : String := "rules.yaml"

/-- A redaction rule. Rules are applied one after another, each to what the one
before it has left. -/
structure Rule where
  /-- The name by which the rule is switched, overridden and reported. -/
  name : String := ""
  description : Option String := none
  /-- The expression to look for. A rule without one never redacts. -/
  pattern : Option String := none
  /-- The text for the placeholders. -/
  replaceWith : String := defaultReplacement
  /-- An explicit switch. Only an explicit `false` turns the rule off. -/
  enabled : Option Bool := none
  /-- Whether the rule runs only on request. -/
  optIn : Bool := false
  tags : Option (List String) := none
  deriving DecidableEq, Repr, Inhabited

namespace Rule

/-- A rule with a pattern, and every switch at its default. -/
def ofPattern (name pattern replaceWith : String) : Rule :=
  { name, pattern := some pattern, replaceWith }

/-- Whether the rule is not switched off. -/
def isEnabled (rule : Rule) : Bool := rule.enabled != some false

/-- Whether a pattern is larger than allowed. -/
def isOverlong (pattern : String) : Bool := maxPatternLength < pattern.utf8ByteSize

/-- The first rule of that name. -/
def find? (rules : List Rule) (name : String) : Option Rule := rules.find? (·.name == name)

end Rule

end PathVeil
