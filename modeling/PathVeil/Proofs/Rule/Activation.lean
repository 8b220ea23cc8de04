import Mathlib.Data.List.Induction
import Mathlib.Data.List.Lattice
import Mathlib.Data.List.Nodup
import PathVeil.Configuration

/-!
# PathVeil.Proofs.Rule.Activation

Choosing rules by name, more than once. Each choice keeps some of the rules and
changes none, so any number of choices one after another is one choice: it enables
what all of them enable, and disables what one of them disables. A choice says
which of its names no rule has, and says so once for each name.

## Proof shape

`isActive_iff` is all that is known of one choice. Two choices keep a rule if both
do (`activate_activate`), and by induction on the choices so do all of a run
(`activate_foldl`).

The warnings are the unknown names of the two lists (`mem_unknownNames`), each once
(`nodup_unknownNames`), put into words. That the words tell the names and the lists
apart (`unknownWarning_injective`, `unknownWarning_ne`) makes the texts differ, too.
-/

namespace PathVeil.Rule

variable {rules : List Rule} {rule : Rule} {name : String}

/-! ### One choice after another -/

theorem isActive_iff {enable disable : List String} :
    isActive enable disable rule = true ↔
      rule.name ∉ disable ∧ (rule.optIn = true → rule.name ∈ enable) := by
  cases hoptIn : rule.optIn <;> simp [isActive, hoptIn]

/-- Two choices are one: it enables what both enable, and disables what either
disables. -/
theorem activate_activate (rules : List Rule) (enable₁ disable₁ enable₂ disable₂ : List String) :
    activate enable₂ disable₂ (activate enable₁ disable₁ rules) =
      activate (enable₁ ∩ enable₂) (disable₁ ∪ disable₂) rules := by
  simp only [activate, List.filter_filter]
  refine List.filter_congr fun rule _ => ?_
  rw [Bool.eq_iff_iff, Bool.and_eq_true, isActive_iff, isActive_iff, isActive_iff,
    List.mem_inter_iff, List.mem_union_iff, not_or]
  constructor
  · rintro ⟨⟨hdisable₂, henable₂⟩, hdisable₁, henable₁⟩
    exact ⟨⟨hdisable₁, hdisable₂⟩, fun h => ⟨henable₁ h, henable₂ h⟩⟩
  · rintro ⟨⟨hdisable₁, hdisable₂⟩, henable⟩
    exact ⟨⟨hdisable₂, fun h => (henable h).2⟩, hdisable₁, fun h => (henable h).1⟩

/-- So are any number of choices. -/
theorem activate_foldl (rules : List Rule) (enable disable : List String)
    (choices : List (List String × List String)) :
    choices.foldl (fun rules choice => activate choice.1 choice.2 rules)
        (activate enable disable rules) =
      activate (choices.foldl (fun names choice => names ∩ choice.1) enable)
        (choices.foldl (fun names choice => names ∪ choice.2) disable) rules := by
  induction choices generalizing enable disable with
  | nil => rfl
  | cons choice choices ih => simp only [List.foldl_cons, activate_activate, ih]

theorem activate_comm (rules : List Rule) (enable₁ disable₁ enable₂ disable₂ : List String) :
    activate enable₂ disable₂ (activate enable₁ disable₁ rules) =
      activate enable₁ disable₁ (activate enable₂ disable₂ rules) :=
  List.filter_comm _ _ rules

theorem activate_self (rules : List Rule) (enable disable : List String) :
    activate enable disable (activate enable disable rules) = activate enable disable rules := by
  simp only [activate, List.filter_filter, Bool.and_self]

/-- Disabling one more name is leaving out the rules that have it. -/
theorem activate_append_disable (rules : List Rule) (enable disable : List String)
    (name : String) :
    activate enable (disable ++ [name]) rules =
      activate enable disable (rules.filter (·.name ≠ name)) := by
  simp only [activate, List.filter_filter]
  refine List.filter_congr fun rule _ => ?_
  rw [Bool.eq_iff_iff, Bool.and_eq_true, isActive_iff, isActive_iff, decide_eq_true_iff,
    List.mem_append, List.mem_singleton, not_or]
  constructor
  · rintro ⟨⟨hdisable, hname⟩, henable⟩
    exact ⟨⟨hdisable, henable⟩, hname⟩
  · rintro ⟨⟨hdisable, henable⟩, hname⟩
    exact ⟨⟨hdisable, hname⟩, henable⟩

/-! ### Unknown names -/

/-- A name is kept where it first comes up, and nowhere else. -/
theorem nodup_eraseDups (names : List String) : names.eraseDups.Nodup := by
  induction names using List.reverseRecOn with
  | nil => exact List.nodup_nil
  | append_singleton names name ih =>
    rw [List.eraseDups_append]
    by_cases hmem : name ∈ names
    · have hnone : [name].removeAll names = [] := by simp [List.removeAll, hmem]
      rw [hnone, List.eraseDups_nil, List.append_nil]
      exact ih
    · have hone : ([name].removeAll names).eraseDups = [name] := by
        simp [List.removeAll, hmem, List.eraseDups_cons]
      rw [hone, ← List.concat_eq_append, List.nodup_concat, List.mem_eraseDups]
      exact ⟨hmem, ih⟩

theorem nodup_unknownNames (names : List String) (rules : List Rule) :
    (unknownNames names rules).Nodup :=
  (nodup_eraseDups names).filter _

theorem mem_unknownNames {names : List String} :
    name ∈ unknownNames names rules ↔ name ∈ names ∧ name ∉ rules.map Rule.name := by
  rw [unknownNames, List.mem_filter, List.mem_eraseDups]
  simp

/-! ### What is said about them -/

/-- The text about a name in the list of that title, if no rule has the name. -/
def unknownWarning (list name : String) : String :=
  s!"Rule '{name}' in `{list}` list does not exist."

theorem toList_unknownWarning (list name : String) :
    (unknownWarning list name).toList =
      "Rule '".toList ++ (name.toList ++ ("' in `".toList ++ (list.toList ++
        "` list does not exist.".toList))) := by
  simp only [unknownWarning, String.toList_append, List.append_assoc]
  rfl

theorem activationWarnings_eq (enable disable : List String) (rules : List Rule) :
    activationWarnings enable disable rules =
      (unknownNames enable rules).map (unknownWarning "enable_rules") ++
        (unknownNames disable rules).map (unknownWarning "disable_rules") := by
  have henable (name : String) : s!"Rule '{name}' in `enable_rules` list does not exist." =
      unknownWarning "enable_rules" name := by
    rw [← String.toList_inj, toList_unknownWarning]
    simp only [String.toList_append, List.append_assoc]
    rfl
  have hdisable (name : String) : s!"Rule '{name}' in `disable_rules` list does not exist." =
      unknownWarning "disable_rules" name := by
    rw [← String.toList_inj, toList_unknownWarning]
    simp only [String.toList_append, List.append_assoc]
    rfl
  simp only [activationWarnings, henable, hdisable]

theorem unknownWarning_injective (list : String) : Function.Injective (unknownWarning list) := by
  intro first second h
  have hlist := congrArg String.toList h
  rw [toList_unknownWarning, toList_unknownWarning, List.append_right_inj,
    List.append_left_inj, String.toList_inj] at hlist
  exact hlist

/-- The text shows which of the two lists a name stands in: the titles are alike
at the end, up to a letter in which they differ. -/
theorem unknownWarning_ne (first second : String) :
    unknownWarning "enable_rules" first ≠ unknownWarning "disable_rules" second := by
  intro h
  have hletter := congrArg (fun text => text.toList.reverse[32]?) h
  simp [toList_unknownWarning] at hletter

theorem nodup_activationWarnings (enable disable : List String) (rules : List Rule) :
    (activationWarnings enable disable rules).Nodup := by
  rw [activationWarnings_eq, List.nodup_append]
  refine ⟨(nodup_unknownNames enable rules).map (unknownWarning_injective _),
    (nodup_unknownNames disable rules).map (unknownWarning_injective _), ?_⟩
  intro first hfirst second hsecond heq
  obtain ⟨enabled, -, rfl⟩ := List.mem_map.mp hfirst
  obtain ⟨disabled, -, rfl⟩ := List.mem_map.mp hsecond
  exact unknownWarning_ne enabled disabled heq

theorem mem_activationWarnings {enable disable : List String} {text : String} :
    text ∈ activationWarnings enable disable rules ↔
      (∃ name ∈ enable, name ∉ rules.map Rule.name ∧ text = unknownWarning "enable_rules" name) ∨
        ∃ name ∈ disable, name ∉ rules.map Rule.name ∧
          text = unknownWarning "disable_rules" name := by
  simp only [activationWarnings_eq, List.mem_append, List.mem_map, mem_unknownNames, and_assoc,
    eq_comm]

/-- The log warns of the unknown names and of nothing else. -/
theorem warnings_activationLog (enable disable : List String) (rules : List Rule) :
    ((Configuration.activationLog enable disable rules).filter (·.level = .warn)).map (·.message) =
      activationWarnings enable disable rules := by
  have hwarn : ((activationWarnings enable disable rules).map (Configuration.record .warn)).filter
      (·.level = .warn) = (activationWarnings enable disable rules).map
        (Configuration.record .warn) := by
    rw [List.filter_eq_self]
    intro record hrecord
    obtain ⟨text, -, rfl⟩ := List.mem_map.mp hrecord
    rfl
  have hdebug (message : String) (records : List Log.Record) :
      (Configuration.record .debug message :: records).filter (·.level = .warn) =
        records.filter (·.level = .warn) :=
    List.filter_cons_of_neg (by simp [Configuration.record])
  rw [Configuration.activationLog, List.filter_append, hdebug, hwarn, hdebug, List.filter_nil,
    List.append_nil, List.map_map]
  exact List.map_id _

/-! ### The main result -/

/-- **Choices compose.** One choice of rules after another is the choice that
enables what both enable and disables what either disables; and so is any number of
them one choice. So the order of two does not matter, and a choice that is made
again changes nothing. A choice leaves rules as they are and in their order, and
none that it disables, enabled or not. It warns once of each name in its list of
names to enable, and of each one in its list of names to disable, that no rule has
when it is made, and of nothing else. -/
theorem activate_composes (rules : List Rule) (enable₁ disable₁ enable₂ disable₂ : List String) :
    activate enable₂ disable₂ (activate enable₁ disable₁ rules) =
        activate (enable₁ ∩ enable₂) (disable₁ ∪ disable₂) rules ∧
      (∀ choices : List (List String × List String),
        choices.foldl (fun rules choice => activate choice.1 choice.2 rules)
            (activate enable₁ disable₁ rules) =
          activate (choices.foldl (fun names choice => names ∩ choice.1) enable₁)
            (choices.foldl (fun names choice => names ∪ choice.2) disable₁) rules) ∧
      activate enable₂ disable₂ (activate enable₁ disable₁ rules) =
        activate enable₁ disable₁ (activate enable₂ disable₂ rules) ∧
      activate enable₁ disable₁ (activate enable₁ disable₁ rules) =
        activate enable₁ disable₁ rules ∧
      (activate enable₁ disable₁ rules).Sublist rules ∧
      (∀ rule ∈ activate enable₁ disable₁ rules, rule.name ∉ disable₁) ∧
      let warned := ((Configuration.activationLog enable₁ disable₁ rules).filter
        (·.level = .warn)).map (·.message)
      warned.Nodup ∧
        ∀ text, text ∈ warned ↔
          (∃ name ∈ enable₁, name ∉ rules.map Rule.name ∧
            text = unknownWarning "enable_rules" name) ∨
          ∃ name ∈ disable₁, name ∉ rules.map Rule.name ∧
            text = unknownWarning "disable_rules" name := by
  refine ⟨activate_activate rules enable₁ disable₁ enable₂ disable₂,
    activate_foldl rules enable₁ disable₁,
    activate_comm rules enable₁ disable₁ enable₂ disable₂, activate_self rules enable₁ disable₁,
    List.filter_sublist, ?_, ?_⟩
  · intro rule hrule
    exact (mem_activate.mp hrule).2.1
  · rw [warnings_activationLog]
    exact ⟨nodup_activationWarnings enable₁ disable₁ rules, fun _ => mem_activationWarnings⟩

/-- Two choices with repeated and unknown names, among rules of which two share a
name and one is disabled although it is enabled. -/
theorem activate_composes_repeated :
    let rules : List Rule := [{ name := "a", optIn := true }, { name := "b" }, { name := "a" },
      { name := "c", optIn := true }]
    let chosen := activate ["a", "c", "x", "x"] ["b", "x"] rules
    let warned := ((Configuration.activationLog ["a", "c", "x", "x"] ["b", "x"] rules).filter
      (·.level = .warn)).map (·.message)
    activate ["c", "a"] ["c"] chosen = activate ["a", "c"] ["b", "x", "c"] rules ∧
      { name := "a", optIn := true } ∈ chosen ∧ "a" ∉ ["b", "x"] ∧ warned.Nodup ∧
      "Rule 'x' in `enable_rules` list does not exist." ∈ warned := by
  intro rules chosen warned
  obtain ⟨hone, -, -, -, -, hdisabled, hnodup, hwarned⟩ :=
    activate_composes rules ["a", "c", "x", "x"] ["b", "x"] ["c", "a"] ["c"]
  have hmem : { name := "a", optIn := true } ∈ chosen := by decide
  exact ⟨hone, hmem, hdisabled _ hmem, hnodup,
    (hwarned _).mpr (Or.inl ⟨"x", by decide, by decide, rfl⟩)⟩

end PathVeil.Rule
