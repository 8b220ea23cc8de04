import PathVeil.Proofs.Pattern.Identity
import PathVeil.Proofs.Rule.Validity

/-!
# PathVeil.Proofs.Rule.Remarks

The remark that a rule will never change a path is true, and it is made of every rule
of which it is true. There are two forms of it: that the rule has no pattern, and that
its pattern has no placeholders. The validator looks for placeholders among the
segments of a pattern as they stand. What a pattern does is decided by its tokens, which
are made without the empty segments at the end.

## Proof shape

`isIdle` asks the compiled pattern of a rule for placeholders, and `filter_ownRemarks`
says that the remarks on one rule agree with that. Since a list of rules is remarked on
rule by rule, this is all there is to know about the remarks on a list
(`filter_remarks`). What the pattern of an idle rule does, and that of any other, comes
from `Pattern.filter_of_not_hasPlaceholders` and `Pattern.exists_filter_ne`.
-/

namespace PathVeil.Rule

/-- Whether the remark says that its rule will never change a path. -/
def Remark.saysIdle : Remark → Bool
  | .noPattern _ => true
  | .strayBrace _ _ => false
  | .noPlaceholder _ => true

/-- Whether a rule has nothing to replace: it has no pattern, or one that compiles to a
pattern without placeholders. -/
def isIdle (rule : Rule) : Bool :=
  match rule.pattern with
  | none => true
  | some expression =>
    !(Pattern.compile rule.replaceWith.toList expression.toList).hasPlaceholders

/-- The remark on a rule that has nothing to replace. -/
def idleRemark (rule : Rule) : Remark :=
  if rule.pattern.getD "" = "" then .noPattern rule.name else .noPlaceholder rule.name

instance : DecidablePred Small := fun _ => decidable_of_iff _ patternFault?_eq_none_iff

section Remarks

variable {rule : Rule} {expression : String}

/-! ### One rule -/

theorem isIdle_of_none (h : rule.pattern = none) : rule.isIdle = true := by
  rw [isIdle, h]

theorem isIdle_of_some (h : rule.pattern = some expression) :
    rule.isIdle = !(Segment.split expression.toList).any Segment.isPlaceholder := by
  rw [isIdle, h]
  exact congrArg (!·) (Pattern.hasPlaceholders_compile _ _)

/-- Stray braces are remarked on whether there is a placeholder or not. -/
theorem filter_segmentRemarks (name : String) (segments : List (List Char)) :
    (segmentRemarks name segments).filter Remark.saysIdle =
      if segments.any Segment.isPlaceholder then [] else [.noPlaceholder name] := by
  have hstray (stray : List (List Char)) : (stray.map fun segment =>
      Remark.strayBrace name (String.ofList segment)).filter Remark.saysIdle = [] := by
    rw [List.filter_eq_nil_iff, List.forall_mem_map]
    exact fun _ _ => Bool.false_ne_true
  rw [segmentRemarks, List.filter_append, hstray, List.nil_append]
  split
  · rfl
  · rfl

/-- **The remarks on one rule.** If its pattern is not too large to be looked into,
there is exactly one remark that it is idle, if it is, and none otherwise. -/
theorem filter_ownRemarks (hsmall : rule.Small) :
    (ownRemarks rule).filter Remark.saysIdle = if rule.isIdle then [rule.idleRemark] else [] := by
  cases hpattern : rule.pattern with
  | none =>
    rw [isIdle_of_none hpattern, if_pos rfl, ownRemarks, idleRemark, hpattern]
    rfl
  | some expression =>
    rw [isIdle_of_some hpattern, ownRemarks, idleRemark, hpattern, Option.getD_some]
    by_cases hempty : expression = ""
    · subst hempty
      rfl
    · have hoverlong : isOverlong expression = false := by
        simpa [isOverlong] using hsmall expression hpattern
      simp only [String.isEmpty_iff, hempty, hoverlong, if_false, Bool.false_eq_true]
      rw [filter_segmentRemarks]
      cases (Segment.split expression.toList).any Segment.isPlaceholder with
      | true => rfl
      | false => rfl

/-- A pattern that is too large is not looked into. -/
theorem ownRemarks_of_not_small (h : ¬ rule.Small) : ownRemarks rule = [] := by
  rw [Small, not_forall] at h
  obtain ⟨expression, h⟩ := h
  rw [Classical.not_imp, Nat.not_le] at h
  obtain ⟨hpattern, hsize⟩ := h
  have hempty : expression ≠ "" := by
    rintro rfl
    exact absurd hsize (by decide)
  simp [ownRemarks, hpattern, hempty, isOverlong, hsize]

/-- The remarks on a list that say that a rule is idle are one for each idle rule, in
order. -/
theorem filter_remarks (rules : List Rule) :
    (remarks rules).filter Remark.saysIdle =
      (rules.filter fun rule => rule.Small ∧ rule.isIdle).map idleRemark := by
  induction rules with
  | nil => rfl
  | cons rule rules ih =>
    rw [remarks, List.flatMap_cons, ← remarks, List.filter_append, ih, List.filter_cons]
    by_cases hsmall : rule.Small
    · rw [filter_ownRemarks hsmall]
      by_cases hidle : rule.isIdle = true
      · simp [hsmall, hidle]
      · simp [hidle]
    · rw [ownRemarks_of_not_small hsmall]
      simp [hsmall]

/-! ### What the remarks say -/

/-- The pattern of an idle rule leaves every path as it is, with every replacement. -/
theorem filter_of_isIdle (h : rule.isIdle = true) (hpattern : rule.pattern = some expression)
    (replacement : List Char) (path : Path) :
    (Pattern.compile replacement expression.toList).filter path = path := by
  rw [isIdle_of_some hpattern, Bool.not_eq_true'] at h
  refine Pattern.filter_of_not_hasPlaceholders ?_ path
  rw [Pattern.hasPlaceholders_compile, h]

/-- The pattern of any other rule changes some path, with every replacement. -/
theorem exists_filter_ne_of_not_isIdle (h : rule.isIdle = false) :
    ∃ expression, rule.pattern = some expression ∧ ∀ replacement, ∃ path,
      (Pattern.compile replacement expression.toList).filter path ≠ path := by
  cases hpattern : rule.pattern with
  | none =>
    rw [isIdle_of_none hpattern] at h
    cases h
  | some expression =>
    rw [isIdle_of_some hpattern, Bool.not_eq_false'] at h
    refine ⟨expression, rfl, fun replacement => Pattern.exists_filter_ne ?_⟩
    rw [Pattern.hasPlaceholders_compile, h]

end Remarks

/-- **The remark that a rule is idle is exact.** In a list of rules it is made once for
each rule that has no pattern, or a pattern without placeholders that is not too large
to be looked into, and for no other rule. The patterns of these rules leave every path
as it is. The pattern of every rule of which it is not made, unless it is too large,
changes some path, whatever its replacement is. -/
theorem remarks_idle_exact (rules : List Rule) :
    (remarks rules).filter Remark.saysIdle =
        (rules.filter fun rule => rule.Small ∧ rule.isIdle).map idleRemark ∧
      ∀ rule ∈ rules, rule.Small →
        (ownRemarks rule).countP Remark.saysIdle = (if rule.isIdle then 1 else 0) ∧
        (rule.isIdle → ∀ expression, rule.pattern = some expression → ∀ path,
          (Pattern.compile rule.replaceWith.toList expression.toList).filter path = path) ∧
        ((∀ remark ∈ ownRemarks rule, ¬ remark.saysIdle) →
          ∃ expression, rule.pattern = some expression ∧ ∀ replacement, ∃ path,
            (Pattern.compile replacement expression.toList).filter path ≠ path) := by
  refine ⟨filter_remarks rules, fun rule _ hsmall => ⟨?_, ?_, ?_⟩⟩
  · rw [List.countP_eq_length_filter, filter_ownRemarks hsmall]
    split
    · rfl
    · rfl
  · intro hidle expression hpattern
    exact filter_of_isIdle hidle hpattern _
  · intro hnone
    refine exists_filter_ne_of_not_isIdle ?_
    have hfilter := filter_ownRemarks hsmall
    rw [List.filter_eq_nil_iff.mpr hnone] at hfilter
    by_contra hidle
    rw [Bool.not_eq_false] at hidle
    rw [hidle, if_pos rfl] at hfilter
    cases hfilter

/-- Rules without a pattern, with a stray brace and nothing else, and with a placeholder
and a replacement that has separators. -/
theorem remarks_idle_exact_three :
    let rules : List Rule := [{ name := "none" }, ofPattern "stray" "/a/\x7bb/" "XXX",
      ofPattern "user" "/u/\x7bid\x7d//" "a/b"]
    (remarks rules).filter Remark.saysIdle = [.noPattern "none", .noPlaceholder "stray"] ∧
      (∀ rule ∈ rules, rule.Small) ∧ (rules.map isIdle = [true, true, false]) ∧
      (∀ path, (Pattern.compile "XXX".toList "/a/\x7bb/".toList).filter path = path) ∧
      ∀ replacement, ∃ path,
        (Pattern.compile replacement "/u/\x7bid\x7d//".toList).filter path ≠ path := by
  intro rules
  obtain ⟨hremarks, hrules⟩ := remarks_idle_exact rules
  have hsmall : ∀ rule ∈ rules, rule.Small := by decide
  have hidle : rules.map isIdle = [true, true, false] := by decide
  have hstray := hrules (ofPattern "stray" "/a/\x7bb/" "XXX") (by simp [rules])
  have huser := hrules (ofPattern "user" "/u/\x7bid\x7d//" "a/b") (by simp [rules])
  refine ⟨hremarks.trans (by decide), hsmall, hidle, ?_, ?_⟩
  · exact (hstray (by decide)).2.1 (by decide) _ rfl
  · obtain ⟨expression, hpattern, hchanges⟩ := (huser (by decide)).2.2 (by decide)
    cases hpattern
    exact hchanges

end PathVeil.Rule
