import PathVeil.Rule.Basic

/-!
# PathVeil.Rule.Activation

Choosing the rules that run. A rule runs unless it is disabled by name, or is
opt-in without being enabled by name.
-/

namespace PathVeil.Rule

/-- Whether a rule runs under these lists of names. -/
def isActive (enable disable : List String) (rule : Rule) : Bool :=
  !disable.contains rule.name && (!rule.optIn || enable.contains rule.name)

/-- The rules that run, in their order. -/
def activate (enable disable : List String) (rules : List Rule) : List Rule :=
  rules.filter (isActive enable disable)

theorem mem_activate {enable disable : List String} {rules : List Rule} {rule : Rule} :
    rule ∈ activate enable disable rules
      ↔ rule ∈ rules ∧ rule.name ∉ disable ∧ (rule.optIn → rule.name ∈ enable) := by
  cases h : rule.optIn <;> simp [activate, isActive, h]

/-- The names, each once, that no rule has. -/
def unknownNames (names : List String) (rules : List Rule) : List String :=
  names.eraseDups.filter fun name => !(rules.map Rule.name).contains name

/-- What to say about the names that no rule has: those to enable, then those
to disable. -/
def activationWarnings (enable disable : List String) (rules : List Rule) : List String :=
  (unknownNames enable rules).map (fun name =>
      s!"Rule '{name}' in `enable_rules` list does not exist.")
    ++ (unknownNames disable rules).map fun name =>
      s!"Rule '{name}' in `disable_rules` list does not exist."

end PathVeil.Rule
