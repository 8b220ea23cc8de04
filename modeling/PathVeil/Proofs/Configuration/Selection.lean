import PathVeil.Proofs.Command.Stages
import PathVeil.Proofs.Configuration.Names
import PathVeil.Proofs.Rule.Selection

/-!
# PathVeil.Proofs.Configuration.Selection

Which rules a run applies, and in which order, as the sources and the switches
say it: the built-in rules where they are, each as the rule file has it if it has
one of that name; then the other rules of the file; then the further patterns; and
of all these the ones that survive. What a rule is judged by is the rule that
stands there in the end, never one that it has replaced.

## Proof shape

`Rule.merge_eq_layers` says what the sources come to, and
`Rule.compile_activate_eq_ok_iff` what is left of it in an engine. A run puts the
same together, with rules from a file (`rel_of_buildConfig`), which have no name
twice because they have been validated.
-/

namespace PathVeil

namespace Configuration

/-- The rules in force, in the order in which they are applied. -/
def inForce (enable disable : List String) (defaults : List Rule) (user : Option (List Rule))
    (further : List Rule) : List Rule :=
  (Rule.layers defaults (user.getD []) ++ further).filter (Rule.Survives enable disable)

/-- The engine of what is put together: there is one exactly if the rules in force
are small enough, and it has these rules, in order. -/
theorem ofRules_activate_eq_ok_iff {defaults further : List Rule} {user : Option (List Rule)}
    (enable disable : List String) (hdefaults : (defaults.map Rule.name).Nodup)
    (huser : ((user.getD []).map Rule.name).Nodup) {engine : Engine} :
    Engine.ofRules (Rule.activate enable disable (Rule.merge defaults user ++ further)) =
        .ok engine ↔
      (∀ rule ∈ inForce enable disable defaults user further, rule.Small) ∧
        engine.config = Rule.activate enable disable (Rule.merge defaults user ++ further) ∧
        List.Forall₂ Rule.CompilesTo (inForce enable disable defaults user further)
          engine.rules := by
  rw [Engine.ofRules_eq_ok_iff, Rule.compile_activate_eq_ok_iff, inForce,
    ← Rule.merge_eq_layers hdefaults huser, and_assoc]
  exact and_congr_right fun _ => and_comm

end Configuration

namespace Command

open PathVeil.Configuration (inForce patternRules builtIn)

variable {environment : Environment} {source : RuleSource} {world after : World}
  {engine : Engine}

/-- The engine of a run, from the rule file that it finds. -/
theorem forall₂_of_buildEngine
    (h : Run.Returns (buildConfig environment source >>= buildEngine) world engine after) :
    ∃ user, Option.Rel (Holds world) (rulesFile? environment source world) user ∧
      List.Forall₂ Rule.CompilesTo
        (inForce source.enable source.disable (builtIn source) user
          (patternRules source.patterns source.replacement)) engine.rules := by
  obtain ⟨config, between, hconfig, hengine⟩ := Run.returns_bind_iff.mp h
  obtain ⟨user, hrel, rfl⟩ := rel_of_buildConfig hconfig
  have huser : ((user.getD []).map Rule.name).Nodup := by
    cases user with
    | none => exact List.nodup_nil
    | some rules => exact (accepted_of_rel hrel rules rfl).nodup
  have hrules := (Configuration.ofRules_activate_eq_ok_iff source.enable source.disable
    (Configuration.accepted_builtIn source).nodup huser).mp (ofRules_of_buildEngine hengine)
  exact ⟨user, hrel, hrules.2.2⟩

/-! ### The main result -/

end Command

end PathVeil
