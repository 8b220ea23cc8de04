import PathVeil.Command
import PathVeil.Proofs.Rule.Validity
import PathVeil.Proofs.World.Returns

/-!
# PathVeil.Proofs.Configuration.Names

Whether the names of a run's rules tell them apart. The rules come from three
sources: the built-in ones, a rule file, and the further patterns, for which names
are made up. Only the rule file is validated, and only by itself.

## Proof shape

The built-in rules and those of the file have different names once they are merged
(`Rule.Accepted.merge`), and so have the rules for further patterns
(`nodup_map_name_patternRules`). No built-in rule has a made-up name
(`ne_patternName_of_mem_builtIn`). What is left is a rule of the file that has one,
and nothing keeps a file from it.
-/

namespace PathVeil

namespace Configuration

/-! ### Made-up names -/

theorem toList_patternName (index : Nat) :
    (patternName index).toList = "cli_pattern_".toList ++ Nat.toDigits 10 (index + 1) := by
  rw [patternName, String.toList_append, Nat.toString_eq_repr, Nat.repr_eq_ofList_toDigits,
    String.toList_ofList]
  rfl

theorem eq_of_patternName_eq {first second : Nat} (h : patternName first = patternName second) :
    first = second := by
  have hdigits := congrArg String.toList h
  rw [toList_patternName, toList_patternName, List.append_right_inj] at hdigits
  have hnumber : first + 1 = second + 1 := by
    rw [← Nat.ofDigitChars_ten_toDigits (n := first + 1), hdigits, Nat.ofDigitChars_ten_toDigits]
  omega

theorem patternName_ne_empty (index : Nat) : patternName index ≠ "" := by
  intro h
  have hlist := congrArg String.toList h
  rw [toList_patternName] at hlist
  cases hlist

theorem map_name_patternRules (patterns : List String) (replacement : String) :
    (patternRules patterns replacement).map Rule.name =
      (List.range patterns.length).map patternName := by
  refine List.ext_getElem? fun index => ?_
  rw [List.getElem?_map, patternRules, List.getElem?_mapIdx, List.getElem?_map]
  by_cases h : index < patterns.length
  · rw [List.getElem?_eq_getElem h, List.getElem?_range h]
    rfl
  · rw [List.getElem?_eq_none (by omega), List.getElem?_eq_none (by rw [List.length_range]; omega)]
    rfl

theorem nodup_map_name_patternRules (patterns : List String) (replacement : String) :
    ((patternRules patterns replacement).map Rule.name).Nodup := by
  rw [map_name_patternRules, List.Nodup, List.pairwise_map]
  exact List.nodup_range.imp fun hne heq => hne (eq_of_patternName_eq heq)

/-! ### Built-in rules -/

theorem accepted_builtIn (source : RuleSource) : Rule.Accepted (builtIn source) := by
  rw [builtIn]
  split
  · exact ⟨nofun, List.nodup_nil, nofun⟩
  · exact Rule.validate_eq_ok_iff_accepted.mp rfl

theorem ne_patternName_of_mem_builtIn {source : RuleSource} {rule : Rule}
    (h : rule ∈ builtIn source) (index : Nat) : rule.name ≠ patternName index := by
  have hdefaults : ∀ rule ∈ RuleFile.defaults, rule.name.toList.head? ≠ some 'c' := by decide
  have hrule : rule ∈ RuleFile.defaults := by
    rw [builtIn] at h
    split at h
    · cases h
    · exact h
  intro hname
  refine hdefaults rule hrule ?_
  rw [hname, toList_patternName]
  rfl

/-! ### All rules of a run -/

section

variable {source : RuleSource} {user : Option (List Rule)}

/-- The rules that may have been named by hand. -/
def named (source : RuleSource) (user : Option (List Rule)) : List Rule :=
  Rule.activate source.enable source.disable (Rule.merge (builtIn source) user)

/-- The rules whose names are made up. -/
def generated (source : RuleSource) : List Rule :=
  Rule.activate source.enable source.disable (patternRules source.patterns source.replacement)

theorem assemble_eq : assemble source user = named source user ++ generated source :=
  List.filter_append _ _

theorem accepted_named (h : ∀ rules, user = some rules → Rule.Accepted rules) :
    Rule.Accepted (named source user) :=
  ((accepted_builtIn source).merge h).activate source.enable source.disable

theorem nodup_map_name_generated (source : RuleSource) :
    ((generated source).map Rule.name).Nodup :=
  (nodup_map_name_patternRules source.patterns source.replacement).sublist
    (List.filter_sublist.map Rule.name)

theorem mem_map_name_generated_iff {name : String} :
    name ∈ (generated source).map Rule.name ↔
      name ∉ source.disable ∧ ∃ index < source.patterns.length, name = patternName index := by
  simp only [generated, List.mem_map, Rule.mem_activate, patternRules, List.mem_mapIdx]
  constructor
  · rintro ⟨rule, ⟨⟨index, hindex, rfl⟩, hdisable, -⟩, rfl⟩
    exact ⟨hdisable, index, hindex, rfl⟩
  · rintro ⟨hdisable, index, hindex, rfl⟩
    exact ⟨_, ⟨⟨index, hindex, rfl⟩, hdisable, nofun⟩, rfl⟩

theorem name_ne_of_mem_assemble (h : ∀ rules, user = some rules → Rule.Accepted rules)
    {rule : Rule} (hrule : rule ∈ assemble source user) : rule.name ≠ "" := by
  rw [assemble_eq, List.mem_append] at hrule
  rcases hrule with hnamed | hgenerated
  · exact (accepted_named h).name_ne rule hnamed
  · obtain ⟨-, index, -, hname⟩ := mem_map_name_generated_iff.mp (List.mem_map_of_mem hgenerated)
    rw [hname]
    exact patternName_ne_empty index

theorem count_map_name_assemble_le (h : ∀ rules, user = some rules → Rule.Accepted rules)
    (name : String) : ((assemble source user).map Rule.name).count name ≤ 2 := by
  rw [assemble_eq, List.map_append, List.count_append]
  have hnodup : ((named source user).map Rule.name).Nodup := (accepted_named h).nodup
  have hnamed := List.nodup_iff_count.mp hnodup name
  have hgenerated := List.nodup_iff_count.mp (nodup_map_name_generated source) name
  omega

/-- Two rules share a name only where the file has an active rule with a name that
is also made up. -/
theorem nodup_map_name_assemble_iff (h : ∀ rules, user = some rules → Rule.Accepted rules) :
    ((assemble source user).map Rule.name).Nodup ↔
      ∀ rule ∈ user.getD [], Rule.isActive source.enable source.disable rule →
        ∀ index < source.patterns.length, rule.name ≠ patternName index := by
  rw [assemble_eq, List.map_append, List.nodup_append]
  constructor
  · rintro ⟨-, -, hapart⟩ rule hrule hactive index hindex hname
    have hmerged : rule ∈ Rule.merge (builtIn source) user := by
      cases user with
      | none => cases hrule
      | some rules => exact Rule.mem_overlay_of_mem (h rules rfl).nodup hrule
    have hnamed : rule ∈ named source user := List.mem_filter.mpr ⟨hmerged, hactive⟩
    have hdisable := (Rule.mem_activate.mp hnamed).2.1
    exact hapart _ (List.mem_map_of_mem hnamed) _
      (mem_map_name_generated_iff.mpr ⟨hdisable, index, hindex, hname⟩) rfl
  · intro hfile
    refine ⟨(accepted_named h).nodup, nodup_map_name_generated source, ?_⟩
    rintro name hnamed _ hgenerated rfl
    obtain ⟨rule, hrule, rfl⟩ := List.mem_map.mp hnamed
    obtain ⟨-, index, hindex, hname⟩ := mem_map_name_generated_iff.mp hgenerated
    obtain ⟨hmerged, hactive⟩ := List.mem_filter.mp hrule
    have hwhere : rule ∈ builtIn source ∨ rule ∈ user.getD [] := by
      cases user with
      | none => exact Or.inl hmerged
      | some rules => exact Rule.mem_of_mem_overlay hmerged
    rcases hwhere with hbuiltIn | huser
    · exact ne_patternName_of_mem_builtIn hbuiltIn index hname
    · exact hfile rule huser hactive index hindex hname

end

end Configuration

namespace Command

/-! ### Where the user's rules are -/

/-- Whether a file can be read, and holds these rules. -/
def Holds (world : World) (file : String) (rules : List Rule) : Prop :=
  ∃ content, world.files.load world.directory file = .ok content ∧
    RuleFile.load file content = .ok rules

/-- The file with the user's rules, if there is one. -/
def rulesFile? (environment : Environment) (source : RuleSource) (world : World) : Option String :=
  source.config <|>
    (Configuration.userFiles environment.homeDirectory? environment.configHome).find?
      (world.files.isFile world.directory)

variable {environment : Environment} {source : RuleSource} {world after : World}
  {file : String} {files : List String} {rules : List Rule} {user : Option (List Rule)}

theorem Holds.accepted (h : Holds world file rules) : Rule.Accepted rules := by
  obtain ⟨content, -, hload⟩ := h
  exact Rule.validate_eq_ok_iff_accepted.mp (Rule.validate_of_load hload)

theorem Holds.unique {other : List Rule} (h : Holds world file rules) (h' : Holds world file other) :
    rules = other := by
  obtain ⟨content, hcontent, hload⟩ := h
  obtain ⟨content', hcontent', hload'⟩ := h'
  rw [hcontent, Except.ok.injEq] at hcontent'
  rw [← hcontent', hload, Except.ok.injEq] at hload'
  exact hload'

theorem holds_of_loadRules (h : (loadRules file).Returns world rules after) :
    Holds world file rules := by
  simp only [loadRules, Run.returns_bind_iff, Run.returns_log_iff, Run.returns_get_iff,
    Run.returns_attempt_iff, Run.returns_ofExcept_iff] at h
  obtain ⟨_, _, rfl, _, _, ⟨rfl, rfl⟩, content, _, ⟨hread, rfl⟩, _, _, rfl, hload, rfl⟩ := h
  exact ⟨content, hread, hload⟩

theorem rel_of_loadFirst (h : (loadFirst files).Returns world user after) :
    Option.Rel (Holds world) (files.find? (world.files.isFile world.directory)) user := by
  induction files generalizing world with
  | nil =>
    obtain ⟨rfl, -⟩ := Run.returns_pure_iff.mp h
    exact .none
  | cons file files ih =>
    rw [loadFirst, Run.returns_bind_iff] at h
    obtain ⟨_, _, hget, h⟩ := h
    obtain ⟨rfl, rfl⟩ := Run.returns_get_iff.mp hget
    rw [List.find?_cons]
    cases hfile : world.files.isFile world.directory file with
    | true =>
      simp only [hfile, ↓reduceIte, Run.returns_bind_iff, Run.returns_pure_iff] at h
      obtain ⟨rules, _, hload, rfl, -⟩ := h
      exact .some (holds_of_loadRules hload)
    | false =>
      simp only [hfile, Bool.false_eq_true, ↓reduceIte, Run.returns_bind_iff,
        Run.returns_log_iff] at h
      obtain ⟨_, _, rfl, hrest⟩ := h
      -- The log is all that has changed, and files are not looked up there.
      have hrel := ih hrest
      exact hrel

theorem rel_of_chosenRules (h : (chosenRules environment source).Returns world user after) :
    Option.Rel (Holds world) (rulesFile? environment source world) user := by
  rw [rulesFile?]
  rw [chosenRules] at h
  cases hconfig : source.config with
  | some file =>
    rw [hconfig] at h
    obtain ⟨rules, hload, rfl⟩ := Run.returns_map_iff.mp h
    exact .some (holds_of_loadRules hload)
  | none =>
    rw [hconfig] at h
    exact rel_of_loadFirst h

theorem rel_of_buildConfig (h : (buildConfig environment source).Returns world rules after) :
    ∃ user, Option.Rel (Holds world) (rulesFile? environment source world) user ∧
      Configuration.assemble source user = rules := by
  simp only [buildConfig, Run.returns_bind_iff, Run.returns_log_iff, Run.returns_pure_iff] at h
  obtain ⟨_, _, rfl, user, _, huser, _, _, rfl, hrules, -⟩ := h
  have hrel := rel_of_chosenRules huser
  exact ⟨user, hrel, hrules⟩

theorem accepted_of_rel {file? : Option String} (h : Option.Rel (Holds world) file? user) :
    ∀ rules, user = some rules → Rule.Accepted rules := by
  rintro rules rfl
  cases h with
  | some hholds => exact hholds.accepted

/-! ### The main result -/

/-- **What the names of a run's rules stand for.** Every rule has a name. No name
stands for more than two rules, and the names tell all rules apart exactly if no
rule of the rule file that is switched on has the made-up name of a further
pattern. -/
theorem names_of_buildConfig (h : (buildConfig environment source).Returns world rules after) :
    (∀ rule ∈ rules, rule.name ≠ "") ∧
      (∀ name, (rules.map Rule.name).count name ≤ 2) ∧
      ∃ user, Option.Rel (Holds world) (rulesFile? environment source world) user ∧
        ((rules.map Rule.name).Nodup ↔
          ∀ rule ∈ user.getD [], Rule.isActive source.enable source.disable rule →
            ∀ index < source.patterns.length, rule.name ≠ Configuration.patternName index) := by
  obtain ⟨user, hrel, rfl⟩ := rel_of_buildConfig h
  have haccepted := accepted_of_rel hrel
  exact ⟨fun rule => Configuration.name_ne_of_mem_assemble haccepted,
    Configuration.count_map_name_assemble_le haccepted, user, hrel,
    Configuration.nodup_map_name_assemble_iff haccepted⟩

/-- A world with nothing but a rule file, in which one rule has this name. -/
def oneRuleWorld (name : String) : World :=
  let text := "rules:\n- name: " ++ name ++ "\n  pattern: /a/\x7bx\x7d\n"
  { files := FileTree.put {} ["rules.yaml"] (.file (Utf8.encode text.toList)) }

/-- That rule file and a further pattern, without the built-in rules. -/
def oneRuleSource : RuleSource where
  config := some "rules.yaml"
  noDefaults := true
  patterns := ["/b/\x7by\x7d"]

/-- A rule file with the name that a second further pattern would have: there is no
second one, and the names tell the rules apart. -/
theorem names_of_buildConfig_second :
    let rules := [Rule.ofPattern "cli_pattern_2" "/a/\x7bx\x7d" "XXX",
      Rule.ofPattern "cli_pattern_1" "/b/\x7by\x7d" "XXX"]
    ∃ after, (buildConfig {} oneRuleSource).Returns (oneRuleWorld "cli_pattern_2") rules after ∧
      (∀ rule ∈ rules, rule.name ≠ "") ∧ (rules.map Rule.name).Nodup := by
  intro rules
  have hreturns : (buildConfig {} oneRuleSource).Returns (oneRuleWorld "cli_pattern_2") rules _ :=
    Run.returns_of_toOption_eq (by decide +kernel)
  have hfile : Holds (oneRuleWorld "cli_pattern_2") "rules.yaml"
      [Rule.ofPattern "cli_pattern_2" "/a/\x7bx\x7d" "XXX"] :=
    ⟨Utf8.encode "rules:\n- name: cli_pattern_2\n  pattern: /a/\x7bx\x7d\n".toList,
      by decide +kernel, by decide +kernel⟩
  obtain ⟨hnames, -, user, hrel, hnodup⟩ := names_of_buildConfig hreturns
  refine ⟨_, hreturns, hnames, hnodup.mpr ?_⟩
  -- The file holds its one rule, and the only made-up name in use is the first.
  cases hrel with
  | some huser =>
    rw [huser.unique hfile]
    decide

/-- A rule file with the name of the first further pattern: two rules have it. -/
theorem buildConfig_first_twice :
    let rules := [Rule.ofPattern "cli_pattern_1" "/a/\x7bx\x7d" "XXX",
      Rule.ofPattern "cli_pattern_1" "/b/\x7by\x7d" "XXX"]
    ∃ after, (buildConfig {} oneRuleSource).Returns (oneRuleWorld "cli_pattern_1") rules after ∧
      ¬ (rules.map Rule.name).Nodup := by
  intro rules
  have hreturns : (buildConfig {} oneRuleSource).Returns (oneRuleWorld "cli_pattern_1") rules _ :=
    Run.returns_of_toOption_eq (by decide +kernel)
  exact ⟨_, hreturns, by decide⟩

end Command

end PathVeil
