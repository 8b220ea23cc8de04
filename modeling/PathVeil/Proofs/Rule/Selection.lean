import PathVeil.Proofs.Rule.Activation
import PathVeil.Proofs.Rule.Validity

/-!
# PathVeil.Proofs.Rule.Selection

Which rules are left to run, in which order, and what becomes of them. Laying
rules over each other, choosing the active ones and compiling are three separate
steps, and each has its own reasons to drop a rule or to replace it.

## Proof shape

`overlay_eq_layers` says what an overlay is where no name is repeated: the base
rules where they were, each as the rule above that has its name, and then the rules
above with names of their own. It is `overlay_eq`, in which the last rule of a name
is then the only one.

A rule is dropped for its name and its switches when rules are activated, and for
another switch and for want of a pattern when they are compiled. `Survives` has
all four reasons, and `compile_activate_eq_ok_iff` says that there is no other one.
-/

namespace PathVeil.Rule

/-! ### Layers -/

/-- What stands in the place of a rule when others are laid over it. -/
def replacedBy (above : List Rule) (rule : Rule) : Rule := (find? above rule.name).getD rule

/-- Two layers of rules: the base in its order, with replacements, and then the
rules above that replace nothing, in theirs. -/
def layers (base above : List Rule) : List Rule :=
  base.map (replacedBy above) ++ above.filter (·.name ∉ base.map Rule.name)

section Layers

variable {base above : List Rule}

theorem replacedBy_nil (rule : Rule) : replacedBy [] rule = rule := rfl

theorem layers_nil (base : List Rule) : layers base [] = base := by
  rw [layers, List.filter_nil, List.append_nil, funext replacedBy_nil, List.map_id']

/-- **An overlay, rule by rule**, where neither layer has a name twice. -/
theorem overlay_eq_layers (hbase : (base.map Rule.name).Nodup)
    (habove : (above.map Rule.name).Nodup) : overlay base above = layers base above := by
  rw [overlay_eq, overriddenBy_eq_map hbase]
  simp only [findLast?_eq_find? habove]
  rfl

theorem merge_eq_layers (hbase : (base.map Rule.name).Nodup) {user : Option (List Rule)}
    (huser : ((user.getD []).map Rule.name).Nodup) :
    merge base user = layers base (user.getD []) := by
  cases user with
  | none => exact (layers_nil base).symm
  | some above => exact overlay_eq_layers hbase huser

end Layers

/-! ### Survivors -/

/-- Whether a rule is in force under these lists of names: it is not disabled,
it is enabled by name if it has to be, it is not switched off, and it has a
pattern. -/
def Survives (enable disable : List String) (rule : Rule) : Prop :=
  rule.name ∉ disable ∧ (rule.optIn = true → rule.name ∈ enable) ∧ rule.enabled ≠ some false ∧
    rule.pattern ≠ none

instance (enable disable : List String) : DecidablePred (Survives enable disable) :=
  fun _ => inferInstanceAs (Decidable (_ ∧ _))

section Compile

variable {rules : List Rule} {compiled : List CompiledRule}

/-- Of the active rules, those take part in a compilation that survive. -/
theorem filter_activate (enable disable : List String) (rules : List Rule) :
    (activate enable disable rules).filter TakesPart = rules.filter (Survives enable disable) := by
  rw [activate, List.filter_filter]
  refine List.filter_congr fun rule _ => ?_
  rw [Bool.eq_iff_iff, Bool.and_eq_true, decide_eq_true_iff, TakesPart, isActive_iff,
    decide_eq_true_iff, Survives]
  constructor
  · rintro ⟨hon, hdisable, henable⟩
    exact ⟨hdisable, henable, hon⟩
  · rintro ⟨hdisable, henable, hon⟩
    exact ⟨hon, hdisable, henable⟩

/-- Rules are not too large if those that take part are small. -/
theorem not_exists_tooLarge_iff :
    (¬ ∃ rule ∈ rules, TooLarge rule) ↔ ∀ rule ∈ rules.filter TakesPart, rule.Small := by
  simp only [not_exists, not_and, List.forall_mem_filter, decide_eq_true_eq]
  refine forall₂_congr fun rule _ => ?_
  constructor
  · intro h hpart pattern hpattern
    exact Nat.le_of_not_lt fun hlarge => h ⟨hpart.1, pattern, hpattern, hlarge⟩
  · intro h ⟨henabled, pattern, hpattern, hlarge⟩
    have hpart : rule.TakesPart := ⟨henabled, Option.ne_none_iff_exists'.mpr ⟨pattern, hpattern⟩⟩
    exact absurd (h hpart pattern hpattern) (Nat.not_le.mpr hlarge)

/-- **What a compilation of active rules comes to.** It succeeds exactly if all
survivors are small enough, and its result is the survivors, compiled in order. -/
theorem compile_activate_eq_ok_iff (enable disable : List String) (rules : List Rule) :
    compile (activate enable disable rules) = .ok compiled ↔
      (∀ rule ∈ rules.filter (Survives enable disable), rule.Small) ∧
        List.Forall₂ CompilesTo (rules.filter (Survives enable disable)) compiled := by
  rw [compile_eq_ok_iff_forall₂, not_exists_tooLarge_iff, filter_activate]

end Compile

end PathVeil.Rule

namespace PathVeil

/-- There is an engine exactly if the rules of the configuration compile, and these
are its rules. -/
theorem Engine.ofRules_eq_ok_iff {config : List Rule} {engine : Engine} :
    ofRules config = .ok engine ↔ Rule.compile config = .ok engine.rules ∧ engine.config = config := by
  obtain ⟨rules, kept⟩ := engine
  rw [ofRules]
  cases Rule.compile config with
  | ok compiled =>
    simp only [Except.ok.injEq, Engine.mk.injEq]
    exact and_congr_right fun _ => eq_comm
  | error fault => simp

end PathVeil
