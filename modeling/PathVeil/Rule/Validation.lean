import PathVeil.Rule.Fault

/-!
# PathVeil.Rule.Validation

The check that rule files go through. It collects every fault of every rule
before it fails, and beside the faults it has remarks: patterns that are legal
but will not do what their author hoped.

* `Rule.faults` — what is wrong with a list of rules;
* `Rule.validate` — succeeds exactly when there are no faults;
* `Rule.remarks` — what is odd about a list of rules.
-/

namespace PathVeil.Rule

/-! ### Faults -/

/-- What is wrong with the name of a rule, after rules with the names `seen`. -/
def nameFault? (seen : List String) (rule : Rule) : Option Fault :=
  if rule.name.isEmpty then some (.invalidRule "" "empty `name` field")
  else if seen.contains rule.name then some (.invalidRule rule.name "duplicate rule name")
  else none

/-- What is wrong with the pattern of a rule. -/
def patternFault? (rule : Rule) : Option Fault :=
  match rule.pattern with
  | none => none
  | some pattern => if isOverlong pattern then some (.overlong rule pattern) else none

/-- The faults of the rules, after rules with the names `seen`. -/
def faultsFrom (seen : List String) : List Rule → List Fault
  | [] => []
  | rule :: rules =>
    (nameFault? seen rule).toList ++ (patternFault? rule).toList
      ++ faultsFrom (rule.name :: seen) rules

/-- Everything that is wrong with a list of rules, rule by rule. -/
def faults (rules : List Rule) : List Fault := faultsFrom [] rules

/-- Accepts a list of rules that has no faults. -/
def validate (rules : List Rule) : Except (List Fault) Unit :=
  let found := faults rules
  if found.isEmpty then .ok () else .error found

theorem validate_eq_ok_iff {rules : List Rule} : validate rules = .ok () ↔ faults rules = [] := by
  unfold validate
  cases faults rules <;> simp

/-- The text of a failed validation. -/
def validationMessage (faults : List Fault) : String :=
  s!"Rule validation failed:\n{Fault.lines faults}"

/-! ### Remarks -/

/-- Something odd about an acceptable rule. -/
inductive Remark where
  /-- The rule has no pattern, or an empty one. -/
  | noPattern (rule : String)
  /-- A segment has braces without being a placeholder. -/
  | strayBrace (rule segment : String)
  /-- The pattern has no placeholder. -/
  | noPlaceholder (rule : String)
  deriving DecidableEq, Repr

/-- The text of the remark. -/
def Remark.message : Remark → String
  | .noPattern rule => s!"Rule '{rule}' has no pattern and will never redact anything."
  | .strayBrace rule segment =>
    s!"Rule '{rule}': segment '{segment}' is not a placeholder and will be matched literally."
  | .noPlaceholder rule =>
    s!"Rule '{rule}' has no placeholders; it can only ever pass paths through."

/-- The remarks on the segments of a pattern. -/
def segmentRemarks (rule : String) (segments : List (List Char)) : List Remark :=
  let stray := segments.filter fun segment =>
    !Segment.isPlaceholder segment && Segment.hasBrace segment
  stray.map (fun segment => .strayBrace rule (String.ofList segment))
    ++ if segments.any Segment.isPlaceholder then [] else [.noPlaceholder rule]

/-- The remarks on one rule. A pattern that is too large is not looked into. -/
def ownRemarks (rule : Rule) : List Remark :=
  match rule.pattern with
  | none => [.noPattern rule.name]
  | some pattern =>
    if pattern.isEmpty then [.noPattern rule.name]
    else if isOverlong pattern then []
    else segmentRemarks rule.name (Segment.split pattern.toList)

/-- The remarks on a list of rules, rule by rule. -/
def remarks (rules : List Rule) : List Remark := rules.flatMap ownRemarks

end PathVeil.Rule
