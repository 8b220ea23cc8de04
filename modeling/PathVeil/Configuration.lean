import PathVeil.Log
import PathVeil.Rule.Activation
import PathVeil.Rule.Overlay
import PathVeil.RuleFile

/-!
# PathVeil.Configuration

Putting the rules of a run together: the built-in rules, the user's rules over
them, and the patterns given on the command line, of which the switches then
leave the active ones.
-/

namespace PathVeil

/-- Where the rules of a run come from. -/
structure RuleSource where
  /-- A rule file, in place of the user's own. -/
  config : Option String := none
  /-- Leaves out the built-in rules. -/
  noDefaults : Bool := false
  /-- Further patterns. -/
  patterns : List String := []
  /-- The replacement for the further patterns. -/
  replacement : String := defaultReplacement
  enable : List String := []
  disable : List String := []
  deriving DecidableEq, Repr

namespace Configuration

/-- The name of the rule for the pattern with an index. -/
def patternName (index : Nat) : String := s!"cli_pattern_{index + 1}"

/-- A rule for each pattern. -/
def patternRules (patterns : List String) (replacement : String) : List Rule :=
  patterns.mapIdx fun index pattern => Rule.ofPattern (patternName index) pattern replacement

/-- The built-in rules that a run uses. -/
def builtIn (source : RuleSource) : List Rule :=
  if source.noDefaults then [] else RuleFile.defaults

/-- All rules of a run, active or not. -/
def candidates (source : RuleSource) (user : Option (List Rule)) : List Rule :=
  Rule.merge (builtIn source) user ++ patternRules source.patterns source.replacement

/-- The active rules of a run. -/
def assemble (source : RuleSource) (user : Option (List Rule)) : List Rule :=
  Rule.activate source.enable source.disable (candidates source user)

/-! ### Where user rules are looked for -/

/-- A name below a directory. -/
def below (directory name : String) : String :=
  if directory.endsWith "/" then directory ++ name else directory ++ "/" ++ name

/-- The directory for configuration files: the one that is set, if it is an
absolute name, or the usual one below the home directory. -/
def configDirectory? (home configHome : Option String) : Option String :=
  configHome.filter (·.startsWith "/") <|> home.map (below · ".config")

/-- The files that may hold the user's rules, the first choice first. -/
def userFiles (home configHome : Option String) : List String :=
  (home.map fun directory => below (below directory ".pathscrub") rulesFileName).toList
    ++ ((configDirectory? home configHome).map fun directory =>
      below (below directory "pathscrub") rulesFileName).toList

/-! ### In the log -/

/-- A record of the part of the program that handles rules. -/
def record (level : Log.Level) (message : String) : Log.Record := ⟨level, RuleFile.speaker, message⟩

/-- What the log says about the built-in rules. -/
def builtInLog (source : RuleSource) : List Log.Record :=
  if source.noDefaults then [⟨.debug, "pathscrub::commands::filter", "Default rules disabled."⟩]
  else [
    record .debug "Loading default rules from embedded string...",
    record .debug s!"Loaded {RuleFile.defaults.length} default rules."]

/-- What the log says while rules are merged. -/
def mergeLog (defaults : List Rule) (user : Option (List Rule)) : List Log.Record :=
  let overlaid := match user with
    | none => []
    | some rules =>
      let overridden := rules.filter fun rule => (Rule.lastIndex? rule.name defaults).isSome
      record .debug s!"User config provided. Merging {rules.length} user rules."
        :: overridden.map fun rule => record .debug s!"Overriding default rule '{rule.name}'."
  record .debug s!"merge_rules called. Initial default rules count: {defaults.length}" :: overlaid
    ++ [record .debug s!"Final total rules after merge: {(Rule.merge defaults user).length}"]

/-- What the log says while the active rules are chosen. -/
def activationLog (enable disable : List String) (rules : List Rule) : List Log.Record :=
  record .debug s!"Initial rules count before filtering: {rules.length}"
    :: (Rule.activationWarnings enable disable rules).map (record .warn)
    ++ [record .debug
      s!"Final active rules count after filtering: {(Rule.activate enable disable rules).length}"]

/-- What the log says while rules are put together. -/
def assembleLog (source : RuleSource) (user : Option (List Rule)) : List Log.Record :=
  mergeLog (builtIn source) user
    ++ activationLog source.enable source.disable (candidates source user)

end Configuration

end PathVeil
