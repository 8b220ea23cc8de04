import PathVeil.Proofs.Rule.Selection

/-!
# PathVeil.Proofs.Rule.SwitchingOff

Three ways to be rid of a rule: to lay one over it that does nothing, to disable
its name, and to leave it out from the start. They work at different stages, when
rules are merged, chosen and compiled, and come to the same: the same compiled
rules, or the same failure.

## Proof shape

Compilation looks only at the rules that survive (`compile_activate`). A rule that
is switched off or has no pattern does not survive, whatever the lists of names say
(`not_survives_of_off`), so it is all the same whether it stands in the place of
another or that place is empty (`filter_overlay_singleton`). Disabling a name is
leaving it out by `activate_append_disable`. An engine does with paths what its
compiled rules say (`Engine.map_ofRules_congr`).
-/

namespace PathVeil

namespace Rule

variable {rules base : List Rule} {rule upper : Rule}

/-- Only rules that take part count in a compilation. -/
theorem compile_filter_takesPart (rules : List Rule) :
    compile (rules.filter TakesPart) = compile rules := by
  have hskip {α : Type} {f : Rule → Option α} (hf : ∀ rule, rule.source? = none → f rule = none) :
      (rules.filter TakesPart).filterMap f = rules.filterMap f := by
    rw [List.filterMap_filter]
    refine List.filterMap_congr fun rule _ => ?_
    simp only [decide_eq_true_eq]
    by_cases hpart : rule.TakesPart
    · rw [if_pos hpart]
    · rw [if_neg hpart, hf rule]
      rwa [← source?_isSome_iff, Bool.not_eq_true, Option.isSome_eq_false_iff,
        Option.isNone_iff_eq_none] at hpart
  rw [compile_eq, compile_eq, hskip fun _ => compileFault?_of_source?_eq_none,
    hskip fun _ => compiled?_of_source?_eq_none]

/-- What the active rules compile to is what the survivors compile to. -/
theorem compile_activate (enable disable : List String) (rules : List Rule) :
    compile (activate enable disable rules) = compile (rules.filter (Survives enable disable)) := by
  rw [← compile_filter_takesPart, filter_activate]

theorem not_survives_of_off (h : rule.enabled = some false ∨ rule.pattern = none)
    (enable disable : List String) : ¬ Survives enable disable rule := by
  rintro ⟨-, -, henabled, hpattern⟩
  exact h.elim henabled hpattern

/-- A rule that is not kept leaves the same behind in the place of another as if
there were nothing in that place. -/
theorem filter_overlay_singleton {keep : Rule → Bool} (hbase : (base.map Rule.name).Nodup)
    (hmem : upper.name ∈ base.map Rule.name) (hkeep : keep upper = false) :
    (overlay base [upper]).filter keep = (base.filter (·.name ≠ upper.name)).filter keep := by
  rw [overlay_eq, overriddenBy_eq_map hbase, newOver_cons_of_mem hmem, newOver_nil, List.append_nil]
  clear hbase hmem
  induction base with
  | nil => rfl
  | cons rule base ih =>
    rw [List.map_cons, findLast?_singleton]
    by_cases hname : upper.name = rule.name
    · rw [if_pos hname, Option.getD_some, List.filter_cons_of_neg (by simp [hkeep]), ih,
        List.filter_cons_of_neg (by simp [hname])]
    · rw [if_neg hname, Option.getD_none, List.filter_cons, ih,
        List.filter_cons_of_pos (by simpa using Ne.symm hname), List.filter_cons]

theorem compile_overlay_off (hbase : (base.map Rule.name).Nodup)
    (hmem : upper.name ∈ base.map Rule.name)
    (hoff : upper.enabled = some false ∨ upper.pattern = none) (enable disable : List String) :
    compile (activate enable disable (overlay base [upper])) =
      compile (activate enable disable (base.filter (·.name ≠ upper.name))) := by
  rw [compile_activate, compile_activate, filter_overlay_singleton hbase hmem]
  exact decide_eq_false (not_survives_of_off hoff enable disable)

end Rule

/-- What engines of rules that compile alike are asked has the same answer, unless
it is about the configuration itself. -/
theorem Engine.map_ofRules_congr {α : Type} {first second : List Rule}
    (h : Rule.compile first = Rule.compile second) {answer : Engine → α}
    (hanswer : ∀ rules config other, answer ⟨rules, config⟩ = answer ⟨rules, other⟩) :
    (ofRules first).map answer = (ofRules second).map answer := by
  unfold ofRules
  rw [h]
  cases Rule.compile second with
  | ok rules => exact congrArg Except.ok (hanswer rules first second)
  | error fault => rfl

namespace Rule

/-! ### The main result -/

/-- **A rule can be switched off in three ways that are the same.** Let no name of
the base rules be repeated. Then laying a rule over one of them that is switched off
or has no pattern, disabling the name too, and leaving the rule of that name out
give the same compiled rules or the same failure, whatever else is enabled and
disabled. The engines, if there are any, filter all paths alike, with the same
redactions and the same statistics. -/
theorem switched_off_alike (base : List Rule) (upper : Rule) (enable disable : List String)
    (hbase : (base.map Rule.name).Nodup) (hmem : upper.name ∈ base.map Rule.name)
    (hoff : upper.enabled = some false ∨ upper.pattern = none) :
    let overridden := activate enable disable (merge base (some [upper]))
    let disabled := activate enable (disable ++ [upper.name]) base
    let without := activate enable disable (base.filter (·.name ≠ upper.name))
    ∀ config ∈ [overridden, disabled],
      compile config = compile without ∧
        (∀ path, filterPath config path = filterPath without path) ∧
        (∀ path sourceId, (Engine.ofRules config).map (·.sanitize path sourceId) =
          (Engine.ofRules without).map (·.sanitize path sourceId)) ∧
        ∀ paths, (Engine.ofRules config).map (·.stats paths) =
          (Engine.ofRules without).map (·.stats paths) := by
  intro overridden disabled without config hconfig
  have hcompile : compile config = compile without := by
    simp only [List.mem_cons, List.not_mem_nil, or_false] at hconfig
    rcases hconfig with rfl | rfl
    · exact compile_overlay_off hbase hmem hoff enable disable
    · exact congrArg compile (activate_append_disable base enable disable upper.name)
  exact ⟨hcompile, fun _ => Engine.map_ofRules_congr hcompile fun _ _ _ => rfl,
    fun _ _ => Engine.map_ofRules_congr hcompile fun _ _ _ => rfl,
    fun _ => Engine.map_ofRules_congr hcompile fun _ _ _ => rfl⟩

/-- A rule under an opt-in rule that is enabled by name but switched off, and under one
without a pattern. -/
theorem switched_off_alike_opt_in :
    let base := [Rule.ofPattern "token" "/t/\x7bx\x7d" "XXX",
      Rule.ofPattern "code" "/c/\x7bx\x7d" "XXX",
      { name := "own", pattern := some "/own/\x7bx\x7d", optIn := true }]
    let off : Rule := { name := "code", pattern := some "/c", enabled := some false, optIn := true }
    let bare : Rule := { name := "code" }
    let without := activate ["own", "code"] ["token"] (base.filter (·.name ≠ "code"))
    (base.map Rule.name).Nodup ∧ "code" ∈ base.map Rule.name ∧ off.enabled = some false ∧
      bare.pattern = none ∧
      compile (activate ["own", "code"] ["token"] (merge base (some [off]))) = compile without ∧
      compile (activate ["own", "code"] ["token"] (merge base (some [bare]))) = compile without ∧
      compile (activate ["own", "code"] ["token", "code"] base) = compile without ∧
      (compile without).map (·.map CompiledRule.name) = .ok ["own"] := by
  intro base off bare without
  have hbase : (base.map Rule.name).Nodup := by decide
  have hmem : "code" ∈ base.map Rule.name := by decide
  have hoff := switched_off_alike base off ["own", "code"] ["token"] hbase hmem (Or.inl rfl)
  have hbare := switched_off_alike base bare ["own", "code"] ["token"] hbase hmem (Or.inr rfl)
  exact ⟨hbase, hmem, rfl, rfl, (hoff _ List.mem_cons_self).1, (hbare _ List.mem_cons_self).1,
    (hoff _ (List.mem_cons_of_mem _ List.mem_cons_self)).1, by decide⟩

end Rule

end PathVeil
