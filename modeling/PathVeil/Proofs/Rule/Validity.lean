import PathVeil.Proofs.Rule.Cache
import PathVeil.Proofs.Rule.Overlay
import PathVeil.Rule.Activation
import PathVeil.RuleFile

/-!
# PathVeil.Proofs.Rule.Validity

Rule files are validated one by one, and never again after they are put
together. That is enough: what is put together of acceptable rules is acceptable,
and acceptable rules compile.

## Proof shape

`Accepted` says what validation asks for, and `validate_eq_ok_iff_accepted` that
it asks for nothing else. An overlay has no other rules than its layers
(`mem_of_mem_overlay`), and no name twice if they have none
(`nodup_map_name_overlay`). So every step of `Edit` preserves `Accepted`
(`Accepted.apply`), and by induction every run of steps does.
-/

namespace PathVeil.Rule

/-! ### What validation asks for -/

/-- Whether a pattern, if there is one, is as small as it has to be. -/
def Small (rule : Rule) : Prop :=
  ∀ pattern, rule.pattern = some pattern → pattern.utf8ByteSize ≤ maxPatternLength

/-- Rules that can be told apart by their names, with patterns that compile. -/
structure Accepted (rules : List Rule) : Prop where
  name_ne : ∀ rule ∈ rules, rule.name ≠ ""
  nodup : (rules.map Rule.name).Nodup
  small : ∀ rule ∈ rules, rule.Small

theorem nameFault?_eq_none_iff {seen : List String} {rule : Rule} :
    nameFault? seen rule = none ↔ rule.name ≠ "" ∧ rule.name ∉ seen := by
  rw [nameFault?]
  by_cases hempty : rule.name = ""
  · simp [hempty]
  · by_cases hseen : rule.name ∈ seen
    · simp [hempty, hseen]
    · simp [hempty, hseen]

theorem patternFault?_eq_none_iff {rule : Rule} : patternFault? rule = none ↔ rule.Small := by
  rw [patternFault?, Small]
  cases rule.pattern with
  | none => simp
  | some pattern => simp [isOverlong]

theorem accepted_cons_iff {rule : Rule} {rules : List Rule} :
    Accepted (rule :: rules) ↔
      rule.name ≠ "" ∧ rule.Small ∧ rule.name ∉ rules.map Rule.name ∧ Accepted rules := by
  constructor
  · rintro ⟨hname, hnodup, hsmall⟩
    rw [List.forall_mem_cons] at hname hsmall
    rw [List.map_cons, List.nodup_cons] at hnodup
    exact ⟨hname.1, hsmall.1, hnodup.1, hname.2, hnodup.2, hsmall.2⟩
  · rintro ⟨hname, hsmall, hnew, hrest⟩
    exact ⟨List.forall_mem_cons.mpr ⟨hname, hrest.name_ne⟩, List.nodup_cons.mpr ⟨hnew, hrest.nodup⟩,
      List.forall_mem_cons.mpr ⟨hsmall, hrest.small⟩⟩

/-- The names that were seen before have to be different, too. -/
theorem faultsFrom_eq_nil_iff {seen : List String} {rules : List Rule} :
    faultsFrom seen rules = [] ↔ Accepted rules ∧ ∀ rule ∈ rules, rule.name ∉ seen := by
  induction rules generalizing seen with
  | nil => exact ⟨fun _ => ⟨⟨nofun, List.nodup_nil, nofun⟩, nofun⟩, fun _ => rfl⟩
  | cons rule rules ih =>
    rw [faultsFrom, List.append_eq_nil_iff, List.append_eq_nil_iff, Option.toList_eq_nil_iff,
      Option.toList_eq_nil_iff, nameFault?_eq_none_iff, patternFault?_eq_none_iff, ih,
      accepted_cons_iff, List.forall_mem_cons]
    have hseen : (∀ other ∈ rules, other.name ∉ rule.name :: seen) ↔
        rule.name ∉ rules.map Rule.name ∧ ∀ other ∈ rules, other.name ∉ seen := by
      simp only [List.mem_cons, not_or, List.mem_map, not_exists, not_and]
      exact ⟨fun h => ⟨fun other hother => (h other hother).1, fun other hother => (h other hother).2⟩,
        fun h other hother => ⟨h.1 other hother, h.2 other hother⟩⟩
    rw [hseen]
    constructor
    · rintro ⟨⟨⟨hname, hunseen⟩, hsmall⟩, hrest, hnew, hothers⟩
      exact ⟨⟨hname, hsmall, hnew, hrest⟩, hunseen, hothers⟩
    · rintro ⟨⟨hname, hsmall, hnew, hrest⟩, hunseen, hothers⟩
      exact ⟨⟨⟨hname, hunseen⟩, hsmall⟩, hrest, hnew, hothers⟩

theorem validate_eq_ok_iff_accepted {rules : List Rule} :
    validate rules = .ok () ↔ Accepted rules := by
  rw [validate_eq_ok_iff, faults, faultsFrom_eq_nil_iff]
  exact ⟨fun h => h.1, fun h => ⟨h, fun _ _ => List.not_mem_nil⟩⟩

/-- What `validate` returns for rules that are read from a file. -/
theorem validate_of_load {file : String} {content : List UInt8} {rules : List Rule}
    (h : RuleFile.load file content = .ok rules) : validate rules = .ok () := by
  rw [RuleFile.load] at h
  cases htext : Utf8.decode? content with
  | none => rw [htext] at h; cases h
  | some text =>
    rw [htext] at h
    simp only at h
    cases hparse : RuleFile.parse text with
    | error error => rw [hparse] at h; cases h
    | ok parsed =>
      rw [hparse] at h
      simp only at h
      cases hvalid : validate parsed with
      | error faults => rw [hvalid] at h; cases h
      | ok =>
        rw [hvalid] at h
        cases h
        exact hvalid

/-! ### Merging -/

namespace Accepted

variable {rules base above : List Rule}

/-- Of two lists that are each acceptable, the overlay is acceptable. -/
theorem overlay (hbase : Accepted base) (habove : Accepted above) :
    Accepted (overlay base above) where
  name_ne rule hmem := (mem_of_mem_overlay hmem).elim (hbase.name_ne rule) (habove.name_ne rule)
  nodup := nodup_map_name_overlay hbase.nodup habove.nodup
  small rule hmem := (mem_of_mem_overlay hmem).elim (hbase.small rule) (habove.small rule)

theorem merge (hbase : Accepted base) {user : Option (List Rule)}
    (huser : ∀ above, user = some above → Accepted above) : Accepted (merge base user) := by
  cases user with
  | none => exact hbase
  | some above => exact hbase.overlay (huser above rfl)

/-- Whatever is switched off, the rest is acceptable. -/
theorem activate (h : Accepted rules) (enable disable : List String) :
    Accepted (activate enable disable rules) where
  name_ne rule hmem := h.name_ne rule (List.mem_filter.mp hmem).1
  nodup := h.nodup.sublist (List.filter_sublist.map Rule.name)
  small rule hmem := h.small rule (List.mem_filter.mp hmem).1

end Accepted

/-! ### Compiling -/

/-- Small patterns compile. -/
theorem compile_of_small {rules : List Rule} (h : ∀ rule ∈ rules, rule.Small) :
    compile rules = .ok (rules.filterMap compiled?) := by
  refine compile_eq_ok_iff.mpr ⟨?_, rfl⟩
  intro rule hmem
  rw [compileFault?_eq_none_iff]
  intro pattern hsource
  exact h rule hmem pattern (source?_eq_some_iff.mp hsource).2

/-! ### Runs -/

/-- One step in putting a configuration together. -/
inductive Edit where
  /-- Lays the user's rules, if there are any, over the rules so far. -/
  | overlay (user : Option (List Rule))
  /-- Lays the rules so far over other ones. -/
  | underlay (defaults : List Rule)
  /-- Chooses the rules that run. -/
  | activate (enable disable : List String)

namespace Edit

/-- The rules after a step. -/
def apply (rules : List Rule) : Edit → List Rule
  | overlay user => merge rules user
  | underlay defaults => merge defaults (some rules)
  | activate enable disable => Rule.activate enable disable rules

/-- Whether every list of rules that a step brings in has been validated. -/
def Validated : Edit → Prop
  | overlay user => ∀ rules, user = some rules → validate rules = .ok ()
  | underlay defaults => validate defaults = .ok ()
  | activate _ _ => True

end Edit

/-- One step preserves acceptance. -/
theorem Accepted.apply {rules : List Rule} (h : Accepted rules) {edit : Edit}
    (hedit : edit.Validated) : Accepted (edit.apply rules) := by
  cases edit with
  | overlay user => exact h.merge fun above huser => validate_eq_ok_iff_accepted.mp (hedit above huser)
  | underlay defaults =>
    exact (validate_eq_ok_iff_accepted.mp hedit).merge fun above habove => Option.some.inj habove ▸ h
  | activate enable disable => exact h.activate enable disable

/-- So does every run of steps. -/
theorem Accepted.foldl_apply {rules : List Rule} (h : Accepted rules) {edits : List Edit}
    (hedits : ∀ edit ∈ edits, edit.Validated) : Accepted (edits.foldl Edit.apply rules) := by
  induction edits generalizing rules with
  | nil => exact h
  | cons edit edits ih =>
    rw [List.forall_mem_cons] at hedits
    exact ih (h.apply hedits.1) hedits.2

/-! ### The main result -/

/-- **What is put together of valid rules is valid, and compiles.** Validation
asks for names that are not empty, no name twice, and no pattern of more than
1024 bytes. Rules that are read from a file have it; and no run of steps that
begins with such rules, lays them and others of their kind over each other and
switches rules off can lose it. So there is a compiled form at the end, and an
engine, through whatever cache its rules come. -/
theorem validate_foldl_apply :
    (∀ rules : List Rule, validate rules = .ok () ↔
      (∀ rule ∈ rules, rule.name ≠ "") ∧ (rules.map Rule.name).Nodup ∧
        ∀ rule ∈ rules, ∀ pattern, rule.pattern = some pattern → pattern.utf8ByteSize ≤ 1024) ∧
    (∀ file content rules, RuleFile.load file content = .ok rules → validate rules = .ok ()) ∧
    ∀ (rules : List Rule) (edits : List Edit), validate rules = .ok () →
      (∀ edit ∈ edits, edit.Validated) →
      let final := edits.foldl Edit.apply rules
      validate final = .ok () ∧ compile final = .ok (final.filterMap compiled?) ∧
        Engine.ofRules final = .ok ⟨final.filterMap compiled?, final⟩ ∧
        ∀ (κ : Type) [DecidableEq κ] (key : Fingerprint → κ) (cache : Cache κ),
          cache.Sound key →
            (Engine.ofCache key cache final).1 = .ok ⟨final.filterMap compiled?, final⟩ := by
  refine ⟨fun rules => ?_, fun file content rules => validate_of_load, ?_⟩
  · rw [validate_eq_ok_iff_accepted]
    exact ⟨fun h => ⟨h.name_ne, h.nodup, h.small⟩, fun ⟨hname, hnodup, hsmall⟩ =>
      ⟨hname, hnodup, hsmall⟩⟩
  · intro rules edits hrules hedits final
    have hfinal : Accepted final := (validate_eq_ok_iff_accepted.mp hrules).foldl_apply hedits
    have hcompile := compile_of_small hfinal.small
    have hengine : Engine.ofRules final = .ok ⟨final.filterMap compiled?, final⟩ := by
      rw [Engine.ofRules, hcompile]
    refine ⟨validate_eq_ok_iff_accepted.mpr hfinal, hcompile, hengine, ?_⟩
    intro κ _ key cache hsound
    rw [Engine.ofCache_eq_ofRules hsound, hengine]

/-- The built-in rules under a file that overrides one of them and adds another,
with a switch in between. -/
theorem validate_foldl_apply_defaults :
    let file := [Rule.ofPattern "user_id" "/u/\x7bid\x7d" "XXX", Rule.ofPattern "own" "/own" "XXX"]
    let edits := [Edit.activate ["user_id"] ["own"], Edit.underlay RuleFile.defaults,
      Edit.overlay none]
    let final := edits.foldl Edit.apply file
    validate file = .ok () ∧ (∀ edit ∈ edits, edit.Validated) ∧ validate final = .ok () ∧
      (Engine.ofCache (fun _ => ()) {} final).1 = .ok ⟨final.filterMap compiled?, final⟩ := by
  intro file edits final
  have hfile : validate file = .ok () := by rfl
  have hedits : ∀ edit ∈ edits, edit.Validated := by
    intro edit hmem
    simp only [edits, List.mem_cons, List.not_mem_nil, or_false] at hmem
    obtain rfl | rfl | rfl := hmem
    · trivial
    · exact (rfl : validate RuleFile.defaults = .ok ())
    · intro rules h
      cases h
  obtain ⟨hvalid, -, -, hcached⟩ := validate_foldl_apply.2.2 file edits hfile hedits
  exact ⟨hfile, hedits, hvalid, hcached Unit (fun _ => ()) {} (.empty _)⟩

end PathVeil.Rule
