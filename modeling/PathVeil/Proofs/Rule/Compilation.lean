import Mathlib.Data.List.Forall2
import PathVeil.Rule.Compilation

/-!
# PathVeil.Proofs.Rule.Compilation

What a compilation makes of a list of rules. The pass has three reasons not to
compile a rule, and keeps its notes in three places. No rule hides what is to be
said about another one.

## Proof shape

One round of the pass does one of four things (`Compilation.takeRule_cases`), and
everything else is read off this. `Compilation.Accounts` is the invariant: what
has been compiled, found wrong and warned about is what the rules so far ask for,
rule by rule. Each round preserves it (`Accounts.takeRule`), so it holds of the
whole pass by induction (`accounts_compilation`), and `compile_eq` is what it says
of the result.
-/

namespace PathVeil

namespace Rule

variable {rule : Rule}

/-! ### One rule -/

/-- The pattern of a rule that takes part in compilation. -/
def source? (rule : Rule) : Option String := if rule.isEnabled then rule.pattern else none

/-- The fault that keeps a rule from being compiled. -/
def compileFault? (rule : Rule) : Option Fault :=
  match rule.source? with
  | none => none
  | some pattern => if isOverlong pattern then some (.overlong rule pattern) else none

/-- The compiled form of a rule that takes part. -/
def compiled? (rule : Rule) : Option CompiledRule :=
  rule.source?.map fun pattern =>
    ⟨rule.name, Pattern.compile rule.replaceWith.toList pattern.toList⟩

/-- Whether a rule takes part: it is not switched off, and has a pattern. -/
def TakesPart (rule : Rule) : Prop := rule.enabled ≠ some false ∧ rule.pattern ≠ none

/-- Whether a rule is not switched off, and has no pattern. -/
def LacksPattern (rule : Rule) : Prop := rule.enabled ≠ some false ∧ rule.pattern = none

/-- Whether a rule is not switched off, and has a pattern larger than allowed. -/
def TooLarge (rule : Rule) : Prop :=
  rule.enabled ≠ some false ∧ ∃ pattern, rule.pattern = some pattern ∧ 1024 < pattern.utf8ByteSize

/-- The compiled form of a rule: its own name, and its pattern with its own
replacement. -/
def CompilesTo (rule : Rule) (compiled : CompiledRule) : Prop :=
  ∃ expression, rule.pattern = some expression ∧
    compiled = ⟨rule.name, Pattern.compile rule.replaceWith.toList expression.toList⟩

instance : DecidablePred TakesPart := fun _ => inferInstanceAs (Decidable (_ ∧ _))

instance : DecidablePred LacksPattern := fun _ => inferInstanceAs (Decidable (_ ∧ _))

theorem source?_eq_some_iff {expression : String} :
    rule.source? = some expression ↔ rule.enabled ≠ some false ∧ rule.pattern = some expression := by
  rw [source?, isEnabled]
  by_cases henabled : rule.enabled = some false
  · simp [henabled]
  · simp [henabled]

theorem source?_isSome_iff : rule.source?.isSome = true ↔ rule.TakesPart := by
  simp only [Option.isSome_iff_exists, source?_eq_some_iff, exists_and_left,
    Option.ne_none_iff_exists', TakesPart]

theorem compileFault?_of_source?_eq_none (h : rule.source? = none) : rule.compileFault? = none := by
  rw [compileFault?, h]

theorem compiled?_of_source?_eq_none (h : rule.source? = none) : rule.compiled? = none := by
  rw [compiled?, h, Option.map_none]

theorem compileFault?_eq_some_iff {fault : Fault} :
    rule.compileFault? = some fault ↔
      ∃ expression, rule.source? = some expression ∧ 1024 < expression.utf8ByteSize ∧
        fault = .overlong rule expression := by
  unfold compileFault?
  cases rule.source? with
  | none => simp
  | some expression =>
    simp only [isOverlong, maxPatternLength, Option.some.injEq, exists_eq_left']
    by_cases hlarge : 1024 < expression.utf8ByteSize
    · simp [hlarge, eq_comm]
    · simp [hlarge]

theorem compileFault?_eq_none_iff :
    compileFault? rule = none ↔
      ∀ expression, rule.source? = some expression → expression.utf8ByteSize ≤ maxPatternLength := by
  simp only [Option.eq_none_iff_forall_ne_some, ne_eq, compileFault?_eq_some_iff, not_exists,
    not_and]
  constructor
  · intro h expression hsource
    exact Nat.le_of_not_lt fun hlarge => h _ expression hsource hlarge rfl
  · intro h fault expression hsource hlarge
    exact absurd (h expression hsource) (Nat.not_le.mpr hlarge)

theorem compileFault?_isSome_iff : rule.compileFault?.isSome = true ↔ rule.TooLarge := by
  simp only [Option.isSome_iff_exists, compileFault?_eq_some_iff, source?_eq_some_iff, TooLarge]
  constructor
  · intro ⟨fault, expression, ⟨henabled, hpattern⟩, hlarge, _⟩
    exact ⟨henabled, expression, hpattern, hlarge⟩
  · intro ⟨henabled, expression, hpattern, hlarge⟩
    exact ⟨_, expression, ⟨henabled, hpattern⟩, hlarge, rfl⟩

instance : DecidablePred TooLarge := fun _ => decidable_of_iff _ compileFault?_isSome_iff

theorem compilesTo_of_compiled?_eq_some {result : CompiledRule} (h : rule.compiled? = some result) :
    CompilesTo rule result := by
  rw [compiled?, Option.map_eq_some_iff] at h
  obtain ⟨expression, hsource, rfl⟩ := h
  exact ⟨expression, (source?_eq_some_iff.mp hsource).2, rfl⟩

theorem CompilesTo.unique : Relator.RightUnique CompilesTo := by
  intro rule first second ⟨expression, hexpression, hfirst⟩ ⟨other, hother, hsecond⟩
  rw [hexpression] at hother
  rw [hfirst, hsecond, Option.some.inj hother]

/-- What takes part in a compilation is compiled one by one, in order. -/
theorem forall₂_filterMap_compiled? (rules : List Rule) :
    List.Forall₂ CompilesTo (rules.filter TakesPart) (rules.filterMap compiled?) := by
  induction rules with
  | nil => exact .nil
  | cons rule rules ih =>
    have hpart : rule.TakesPart ↔ rule.compiled?.isSome = true := by
      rw [← source?_isSome_iff, compiled?, Option.isSome_map]
    cases hcompiled : rule.compiled? with
    | none =>
      rw [hcompiled] at hpart
      rw [List.filterMap_cons_none hcompiled, List.filter_cons_of_neg (by simp [hpart])]
      exact ih
    | some result =>
      rw [hcompiled] at hpart
      rw [List.filterMap_cons_some hcompiled, List.filter_cons_of_pos (by simp [hpart])]
      exact .cons (compilesTo_of_compiled?_eq_some hcompiled) ih

end Rule

/-! ### The pass -/

namespace Compilation

open Rule (compileFault? compiled? TooLarge LacksPattern)

variable {progress : Compilation} {seen : List Rule}

/-- The warning about a rule that would run but has no pattern. -/
def missingPatternRecord (rule : Rule) : Log.Record :=
  ⟨.warn, speaker, missingPatternWarning rule.name⟩

/-- **One round of the pass.** A rule that is switched off is told in the log, one
without a pattern is warned about, one that is too large is rejected, and any other
one is added. -/
theorem takeRule_cases (progress : Compilation) (rule : Rule) :
    (rule.source? = none ∧ ¬ rule.LacksPattern ∧
        ∃ text, progress.takeRule rule = progress.say ⟨.debug, speaker, text⟩) ∨
      (rule.source? = none ∧ rule.LacksPattern ∧
        progress.takeRule rule = progress.say (missingPatternRecord rule)) ∨
      (∃ pattern, rule.source? = some pattern ∧ 1024 < pattern.utf8ByteSize ∧
        progress.takeRule rule = progress.reject (.overlong rule pattern)) ∨
      ∃ pattern, rule.source? = some pattern ∧ pattern.utf8ByteSize ≤ 1024 ∧
        progress.takeRule rule =
          progress.add ⟨rule.name, Pattern.compile rule.replaceWith.toList pattern.toList⟩ := by
  unfold takeRule Rule.source? Rule.LacksPattern
  cases henabled : rule.isEnabled with
  | false =>
    have hoff : rule.enabled = some false := by simpa [Rule.isEnabled] using henabled
    exact Or.inl ⟨rfl, by simp [hoff], _, rfl⟩
  | true =>
    have hon : rule.enabled ≠ some false := by simpa [Rule.isEnabled] using henabled
    cases hpattern : rule.pattern with
    | none => exact Or.inr (Or.inl ⟨by simp, ⟨hon, rfl⟩, by simp [missingPatternRecord]⟩)
    | some pattern =>
      by_cases hlarge : 1024 < pattern.utf8ByteSize
      · refine Or.inr (Or.inr (Or.inl ⟨pattern, by simp, hlarge, ?_⟩))
        simp [Rule.isOverlong, maxPatternLength, hlarge]
      · refine Or.inr (Or.inr (Or.inr ⟨pattern, by simp, Nat.le_of_not_lt hlarge, ?_⟩))
        simp [Rule.isOverlong, maxPatternLength, hlarge]

/-- The invariant of the pass: what has been found wrong, compiled and warned about
is what the rules so far ask for, each for itself. -/
structure Accounts (seen : List Rule) (progress : Compilation) : Prop where
  faults : progress.faults = seen.filterMap compileFault?
  compiled : progress.compiled = (seen.filter (·.compileFault?.isNone)).filterMap compiled?
  warned : progress.logged.filter (·.level = .warn) =
    (seen.filter LacksPattern).map missingPatternRecord

namespace Accounts

theorem nil : Accounts [] {} := ⟨rfl, rfl, rfl⟩

/-- A rule that takes no part is only spoken of. -/
theorem say {record : Log.Record} {rule : Rule} (h : Accounts seen progress)
    (hsource : rule.source? = none)
    (hrecord : [record].filter (·.level = .warn) =
      ([rule].filter LacksPattern).map missingPatternRecord) :
    Accounts (seen ++ [rule]) (progress.say record) := by
  have hfault := Rule.compileFault?_of_source?_eq_none hsource
  have hcompiled := Rule.compiled?_of_source?_eq_none hsource
  constructor
  · simp [Compilation.say, h.faults, hfault]
  · simp [Compilation.say, h.compiled, hfault, hcompiled]
  · rw [Compilation.say, List.filter_append, List.filter_append, List.map_append, h.warned, hrecord]

/-- One round keeps the books right. -/
theorem takeRule (h : Accounts seen progress) (rule : Rule) :
    Accounts (seen ++ [rule]) (progress.takeRule rule) := by
  have hlacks {pattern : String} (hsource : rule.source? = some pattern) : ¬ rule.LacksPattern := by
    intro hlacks
    rw [Rule.source?_eq_some_iff, hlacks.2] at hsource
    cases hsource.2
  obtain ⟨hsource, hlacks, text, hround⟩ | ⟨hsource, hlacks, hround⟩ |
    ⟨pattern, hsource, hlarge, hround⟩ | ⟨pattern, hsource, hsmall, hround⟩ :=
    takeRule_cases progress rule
  · rw [hround]
    exact h.say hsource (by simp [hlacks])
  · rw [hround]
    exact h.say hsource (by simp [hlacks, missingPatternRecord])
  · have hfault : rule.compileFault? = some (.overlong rule pattern) :=
      Rule.compileFault?_eq_some_iff.mpr ⟨pattern, hsource, hlarge, rfl⟩
    rw [hround]
    constructor
    · simp [reject, h.faults, hfault]
    · simp [reject, h.compiled, hfault]
    · simp [reject, h.warned, hlacks hsource]
  · have hfault : rule.compileFault? = none := by
      rw [Rule.compileFault?_eq_none_iff, hsource]
      intro _ hsame
      rwa [← Option.some.inj hsame]
    rw [hround]
    constructor
    · simp [add, h.faults, hfault]
    · simp [add, h.compiled, hfault, compiled?, hsource]
    · simp [add, h.warned, hlacks hsource]

/-- And so does a whole pass. -/
theorem foldl (h : Accounts seen progress) (rules : List Rule) :
    Accounts (seen ++ rules) (rules.foldl .takeRule progress) := by
  induction rules generalizing seen progress with
  | nil => rwa [List.append_nil]
  | cons rule rules ih =>
    rw [List.foldl_cons, ← List.singleton_append, ← List.append_assoc]
    exact ih (h.takeRule rule)

end Accounts

theorem accounts_compilation (rules : List Rule) : Accounts rules (Rule.compilation rules) :=
  Accounts.nil.foldl rules

end Compilation

namespace Rule

variable {rules : List Rule} {compiled : List CompiledRule}

/-- **The pass, rule by rule.** If nothing is wrong with any rule, each is compiled
for itself. -/
theorem compile_eq (rules : List Rule) :
    compile rules =
      if rules.filterMap compileFault? = [] then .ok (rules.filterMap compiled?)
      else .error (Compilation.failure (rules.filterMap compileFault?)) := by
  have h := Compilation.accounts_compilation rules
  rw [compile, Compilation.result, h.faults, h.compiled]
  by_cases hfaults : rules.filterMap compileFault? = []
  · have hnone : ∀ rule ∈ rules, rule.compileFault?.isNone = true := fun rule hrule => by
      rw [List.filterMap_eq_nil_iff.mp hfaults rule hrule]
      rfl
    rw [hfaults, List.filter_eq_self.mpr hnone, List.isEmpty_nil, if_pos rfl, if_pos rfl]
  · rw [if_neg (by simpa using hfaults), if_neg hfaults]

theorem compile_eq_ok_iff :
    compile rules = .ok compiled ↔
      (∀ rule ∈ rules, compileFault? rule = none) ∧ rules.filterMap compiled? = compiled := by
  rw [compile_eq, ← List.filterMap_eq_nil_iff]
  by_cases hfaults : rules.filterMap compileFault? = []
  · simp [hfaults]
  · simp [hfaults]

/-- The line about a rule that is too large. -/
def overlongLine (rule : Rule) : String :=
  let size := (rule.pattern.getD "").utf8ByteSize
  s!"Rule '{rule.name}': pattern length ({size}) exceeds maximum allowed ({maxPatternLength})"

/-- The failure that names all rules that are too large. -/
def overlongFailure (rules : List Rule) : Fault :=
  .fatal (s!"Failed to compile {rules.length} rule(s):\n" ++
    "\n".intercalate (rules.map overlongLine))

/-- The faults of a list of rules are those of the rules that are too large, and
say so in their order. -/
theorem map_message_filterMap_compileFault? (rules : List Rule) :
    (rules.filterMap compileFault?).map Fault.message =
      (rules.filter TooLarge).map overlongLine := by
  induction rules with
  | nil => rfl
  | cons rule rules ih =>
    cases hfault : rule.compileFault? with
    | none =>
      have hsmall : ¬ rule.TooLarge := by simp [← compileFault?_isSome_iff, hfault]
      rw [List.filterMap_cons_none hfault, List.filter_cons_of_neg (by simpa using hsmall), ih]
    | some fault =>
      have hlarge : rule.TooLarge := by simp [← compileFault?_isSome_iff, hfault]
      obtain ⟨pattern, hsource, -, rfl⟩ := compileFault?_eq_some_iff.mp hfault
      have hline : (Fault.overlong rule pattern).message = overlongLine rule := by
        rw [overlongLine, (source?_eq_some_iff.mp hsource).2]
        rfl
      rw [List.filterMap_cons_some hfault, List.filter_cons_of_pos (by simpa using hlarge),
        List.map_cons, List.map_cons, hline, ih]

theorem failure_filterMap_compileFault? (rules : List Rule) :
    Compilation.failure (rules.filterMap compileFault?) =
      overlongFailure (rules.filter TooLarge) := by
  have hlength : (rules.filterMap compileFault?).length = (rules.filter TooLarge).length := by
    simpa using congrArg List.length (map_message_filterMap_compileFault? rules)
  rw [Compilation.failure, overlongFailure, Fault.lines, map_message_filterMap_compileFault?,
    hlength]
  rfl

theorem exists_tooLarge_iff :
    (∃ rule ∈ rules, TooLarge rule) ↔ rules.filterMap compileFault? ≠ [] := by
  simp only [← compileFault?_isSome_iff, ne_eq, List.filterMap_eq_nil_iff, not_forall,
    Option.isSome_iff_ne_none, exists_prop]

theorem compile_eq_error_iff {fault : Fault} :
    compile rules = .error fault ↔
      (∃ rule ∈ rules, TooLarge rule) ∧
        fault = overlongFailure (rules.filter TooLarge) := by
  rw [compile_eq, exists_tooLarge_iff, failure_filterMap_compileFault?]
  by_cases hfaults : rules.filterMap compileFault? = []
  · simp [hfaults]
  · simp [hfaults, eq_comm]

/-! ### The whole list -/

/-- Where nothing is too large, the rules that take part are compiled in order, and
no others. -/
theorem compile_eq_ok_iff_forall₂ :
    compile rules = .ok compiled ↔
      (¬ ∃ rule ∈ rules, TooLarge rule) ∧
        List.Forall₂ CompilesTo (rules.filter TakesPart) compiled := by
  rw [compile_eq_ok_iff, exists_tooLarge_iff, not_not, List.filterMap_eq_nil_iff]
  refine and_congr_right fun _ => ⟨?_, ?_⟩
  · intro hcompiled
    rw [← hcompiled]
    exact forall₂_filterMap_compiled? rules
  · exact List.right_unique_forall₂' CompilesTo.unique (forall₂_filterMap_compiled? rules)

theorem compile_append_eq_ok_iff (later : List Rule) :
    compile (rules ++ later) = .ok compiled ↔
      ∃ first second, compile rules = .ok first ∧ compile later = .ok second ∧
        compiled = first ++ second := by
  simp only [compile_eq_ok_iff, List.forall_mem_append, List.filterMap_append]
  constructor
  · intro ⟨⟨hrules, hlater⟩, hcompiled⟩
    exact ⟨_, _, ⟨hrules, rfl⟩, ⟨hlater, rfl⟩, hcompiled.symm⟩
  · intro ⟨first, second, ⟨hrules, hfirst⟩, ⟨hlater, hsecond⟩, hcompiled⟩
    exact ⟨⟨hrules, hlater⟩, by rw [hfirst, hsecond, hcompiled]⟩

/-- The warnings of a compilation are about the rules that would run but have no
pattern, whether it fails or not. -/
theorem filter_warn_compileLog (rules : List Rule) :
    (compileLog rules).filter (·.level = .warn) =
      (rules.filter LacksPattern).map Compilation.missingPatternRecord := by
  rw [← (Compilation.accounts_compilation rules).warned, compileLog]
  cases compile rules with
  | ok compiled => simp
  | error fault => simp

/-- What is said about these rules, and nothing else is said as a warning. -/
theorem compileWarnings_eq (rules : List Rule) :
    compileWarnings rules = (rules.filter LacksPattern).map fun rule =>
      Compilation.missingPatternWarning rule.name := by
  rw [compileWarnings, filter_warn_compileLog, List.map_map]
  rfl

/-- The name of a rule can be read off what is said about it. -/
theorem missingPatternWarning_injective :
    Function.Injective Compilation.missingPatternWarning := by
  intro first second h
  have hbeginning := (String.append_left_inj "' because its pattern is missing.").mp h
  exact (String.append_right_inj "Skipping rule '").mp hbeginning

/-- A name is warned about exactly if it is that of a rule without a pattern. -/
theorem missingPatternWarning_mem_compileWarnings_iff {name : String} :
    Compilation.missingPatternWarning name ∈ compileWarnings rules ↔
      ∃ rule ∈ rules, LacksPattern rule ∧ rule.name = name := by
  rw [compileWarnings_eq, List.mem_map]
  simp only [List.mem_filter, decide_eq_true_eq, missingPatternWarning_injective.eq_iff, and_assoc]

/-- A rule that is switched off, one without a pattern, and one that is compiled. -/
example :
    let rules : List Rule := [{ name := "off", pattern := some "/a", enabled := some false },
      { name := "bare" }, ofPattern "on" "/b" "XXX"]
    compile rules = .ok [⟨"on", Pattern.compile "XXX".toList "/b".toList⟩] ∧
      compileWarnings rules = ["Skipping rule 'bare' because its pattern is missing."] :=
  ⟨rfl, rfl⟩

end Rule

end PathVeil
