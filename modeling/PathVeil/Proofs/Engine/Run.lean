import PathVeil.Engine

/-!
# PathVeil.Proofs.Engine.Run

What a run of an engine does, whoever looks on. Filtering, sanitizing and the
log are one loop with different observers.

## Proof shape

`CompiledRule.change?` is what one rule does to the path in hand, and
`applyRules_cons` says that it is all that happens in one round. Every result
about a run is an induction over the rules with this equation:

* `applyRules_path` — the path at the end is that of the patterns alone, each
  applied to what the one before it has left;
* `applyRules_eq_foldl` — an observer learns the changes, and nothing else;
* `chain_applyRules` — the changes lead from the first path to the last.

The last section reads these off for an engine as a whole.
-/

namespace PathVeil

/-! ### One rule -/

namespace CompiledRule

/-- The change that a rule makes to the path in hand, and what it hands on. -/
def change? (rule : CompiledRule) (current : Rendered) : Option (Change × Rendered) :=
  match rule.rewrite? current with
  | none => none
  | some (extent, next) =>
    if next.path = current.path then none
    else some (⟨rule.name, extent, current.path, next.path⟩, next)

/-- A rule that does not match would leave the path as it is. -/
theorem filter_of_rewrite?_eq_none {rule : CompiledRule} {current : Rendered}
    (h : rule.rewrite? current = none) : rule.pattern.filter current.path = current.path := by
  apply Pattern.filter_of_noMatch
  rw [rewrite?, Option.map_eq_none_iff] at h
  cases hfind : rule.pattern.find current.path with
  | noMatch => rfl
  | full => rw [hfind] at h; cases h
  | leading stop => rw [hfind] at h; cases h

/-- Where the text stands has no bearing on what a rule makes of it. -/
theorem eq_of_rewrite?_eq_some {rule : CompiledRule} {current next : Rendered} {extent : Extent}
    (h : rule.rewrite? current = some (extent, next)) :
    (rule.pattern.find current.path).extent? = some extent ∧
      next.path = rule.pattern.filter current.path := by
  rw [rewrite?, Option.map_eq_some_iff] at h
  obtain ⟨found, hfound, hnext⟩ := h
  cases current with
  | lent path =>
    obtain ⟨rfl, rfl⟩ := Prod.mk.inj hnext
    exact ⟨hfound, rfl⟩
  | built path =>
    obtain ⟨rfl, rfl⟩ := Prod.mk.inj hnext
    exact ⟨hfound, rfl⟩

/-- A rule that changes nothing may have matched or not. -/
theorem filter_of_change?_eq_none {rule : CompiledRule} {current : Rendered}
    (h : rule.change? current = none) : rule.pattern.filter current.path = current.path := by
  rw [change?] at h
  cases hrewrite : rule.rewrite? current with
  | none => exact filter_of_rewrite?_eq_none hrewrite
  | some found =>
    obtain ⟨extent, next⟩ := found
    rw [hrewrite] at h
    by_cases heq : next.path = current.path
    · rw [← (eq_of_rewrite?_eq_some hrewrite).2, heq]
    · simp only [if_neg heq] at h
      cases h

/-- Everything about a change that a rule makes. -/
theorem eq_of_change?_eq_some {rule : CompiledRule} {current next : Rendered} {change : Change}
    (h : rule.change? current = some (change, next)) :
    change.ruleName = rule.name ∧
      (rule.pattern.find current.path).extent? = some change.extent ∧
      change.before = current.path ∧ change.after = rule.pattern.filter current.path ∧
      change.after ≠ change.before ∧ next.path = change.after := by
  rw [change?] at h
  cases hrewrite : rule.rewrite? current with
  | none => rw [hrewrite] at h; cases h
  | some found =>
    obtain ⟨extent, path⟩ := found
    obtain ⟨hextent, hpath⟩ := eq_of_rewrite?_eq_some hrewrite
    rw [hrewrite] at h
    by_cases heq : path.path = current.path
    · simp only [if_pos heq] at h
      cases h
    · simp only [if_neg heq, Option.some.injEq, Prod.mk.injEq] at h
      obtain ⟨rfl, rfl⟩ := h
      exact ⟨rfl, hextent, rfl, hpath, heq, rfl⟩

end CompiledRule

/-! ### Changes in a row -/

/-- The changes lead from one path to another without a gap, and each of them
does change the path. -/
def Change.Chain : Path → List Change → Path → Prop
  | first, [], last => first = last
  | first, change :: changes, last =>
    change.before = first ∧ change.after ≠ first ∧ Chain change.after changes last

/-- A row of changes ends with what the last of them has left. -/
theorem Change.Chain.getLast?_after {changes : List Change} {first last : Path}
    (h : Chain first changes last) : (changes.map Change.after).getLast?.getD first = last := by
  induction changes generalizing first with
  | nil => exact h
  | cons change changes ih =>
    obtain ⟨-, -, hrest⟩ := h
    rw [List.map_cons, List.getLast?_cons, Option.getD_some]
    exact ih hrest

namespace Engine

section Run

variable {σ : Type} (observe : σ → Change → σ)

/-- One round of the loop. -/
theorem applyRules_cons (state : σ) (current : Rendered) (rule : CompiledRule)
    (rules : List CompiledRule) :
    applyRules observe state current (rule :: rules) =
      match rule.change? current with
      | none => applyRules observe state current rules
      | some (change, next) => applyRules observe (observe state change) next rules := by
  rw [applyRules, CompiledRule.change?]
  cases rule.rewrite? current with
  | none => rfl
  | some found =>
    obtain ⟨extent, next⟩ := found
    by_cases heq : next.path = current.path
    · simp only [if_pos heq]
    · simp only [if_neg heq]

/-- At the end stands the path that the patterns make, one after the other. The
rounds that the loop skips would have changed nothing. -/
theorem applyRules_path (state : σ) (current : Rendered) (rules : List CompiledRule) :
    (applyRules observe state current rules).2.path =
      rules.foldl (fun path rule => rule.pattern.filter path) current.path := by
  induction rules generalizing state current with
  | nil => rfl
  | cons rule rules ih =>
    rw [applyRules_cons, List.foldl_cons]
    cases h : rule.change? current with
    | none =>
      -- The round is skipped: the pattern would have left the path alone.
      rw [CompiledRule.filter_of_change?_eq_none h, ih]
    | some found =>
      obtain ⟨change, next⟩ := found
      obtain ⟨-, -, -, hafter, -, hnext⟩ := CompiledRule.eq_of_change?_eq_some h
      rw [← hafter, ← hnext, ih]

/-- The observer that notes down every change. -/
def note (changes : List Change) (change : Change) : List Change := changes ++ [change]

/-- Any observer ends in the state to which the changes that were noted down
take it, and none of them has a say in the path. -/
theorem applyRules_eq_foldl (state : σ) (noted : List Change) (current : Rendered)
    (rules : List CompiledRule) :
    applyRules observe (noted.foldl observe state) current rules =
      ((applyRules note noted current rules).1.foldl observe state,
        (applyRules note noted current rules).2) := by
  induction rules generalizing noted current with
  | nil => rfl
  | cons rule rules ih =>
    rw [applyRules_cons, applyRules_cons]
    cases rule.change? current with
    | none => exact ih noted current
    | some found =>
      obtain ⟨change, next⟩ := found
      -- What the observer has now is what it makes of the notes, this one included.
      have hnoted : observe (noted.foldl observe state) change =
          (note noted change).foldl observe state := by
        rw [note, List.foldl_append, List.foldl_cons, List.foldl_nil]
      simp only [hnoted]
      exact ih (note noted change) next

end Run

/-- Noting down starts anew at any point. -/
theorem applyRules_note (noted : List Change) (current : Rendered) (rules : List CompiledRule) :
    (applyRules note noted current rules).1 = noted ++ (applyRules note [] current rules).1 := by
  induction rules generalizing noted current with
  | nil => exact (List.append_nil noted).symm
  | cons rule rules ih =>
    rw [applyRules_cons, applyRules_cons]
    cases rule.change? current with
    | none => exact ih noted current
    | some found =>
      obtain ⟨change, next⟩ := found
      simp only
      rw [ih (note noted change), ih (note [] change), note, note, List.nil_append,
        List.append_assoc]

/-- One round with everything noted down: a change comes in front of those of the
rounds behind it. -/
theorem applyRules_note_cons (current : Rendered) (rule : CompiledRule)
    (rules : List CompiledRule) :
    applyRules note [] current (rule :: rules) =
      match rule.change? current with
      | none => applyRules note [] current rules
      | some (change, next) =>
        (change :: (applyRules note [] next rules).1, (applyRules note [] next rules).2) := by
  rw [applyRules_cons]
  cases rule.change? current with
  | none => rfl
  | some found =>
    obtain ⟨change, next⟩ := found
    refine Prod.ext (applyRules_note (note [] change) next rules) ?_
    -- What is handed back is the same for every observer, one that has notes included.
    have hrendered (noted : List Change) :=
      congrArg Prod.snd (applyRules_eq_foldl (fun state _ => state) () noted next rules)
    exact (hrendered (note [] change)).symm.trans (hrendered [])

/-- The changes that are noted down lead from the path in hand to the last one. -/
theorem chain_applyRules (current : Rendered) (rules : List CompiledRule) :
    Change.Chain current.path (applyRules note [] current rules).1
      (applyRules note [] current rules).2.path := by
  induction rules generalizing current with
  | nil => rfl
  | cons rule rules ih =>
    rw [applyRules_note_cons]
    cases h : rule.change? current with
    | none => exact ih current
    | some found =>
      obtain ⟨change, next⟩ := found
      obtain ⟨-, -, hbefore, -, hne, hnext⟩ := CompiledRule.eq_of_change?_eq_some h
      refine ⟨hbefore, hbefore ▸ hne, ?_⟩
      rw [← hnext]
      exact ih next

/-! ### All rules of an engine -/

/-- The changes that the rules of an engine make to a path. -/
def changes (engine : Engine) (path : Path) : List Change := (engine.apply note [] path).1

/-- What an observer makes of a run, and what the run hands back. -/
theorem apply_eq {σ : Type} (engine : Engine) (observe : σ → Change → σ) (state : σ) (path : Path) :
    engine.apply observe state path =
      ((engine.changes path).foldl observe state, engine.rendered path) := by
  have hrendered : engine.rendered path = (engine.apply note [] path).2 :=
    congrArg Prod.snd (applyRules_eq_foldl (fun state _ => state) () [] (.lent path) engine.rules)
  rw [hrendered]
  exact applyRules_eq_foldl observe state [] (.lent path) engine.rules

/-- Filtering is what the patterns do, one after the other. -/
theorem filter_eq_foldl (engine : Engine) (path : Path) :
    engine.filter path =
      (engine.rules.map CompiledRule.pattern).foldl (fun path pattern => pattern.filter path) path := by
  rw [List.foldl_map]
  exact applyRules_path (fun state _ => state) () (.lent path) engine.rules

/-- Sanitizing is filtering, with a record of each change. -/
theorem sanitize_eq (engine : Engine) (path : Path) (sourceId : String) :
    engine.sanitize path sourceId =
      (engine.filter path, (engine.changes path).map (·.redaction sourceId)) := by
  rw [sanitize, apply_eq, filter]
  refine Prod.ext rfl ?_
  rw [List.foldl_append_eq_append, List.nil_append, ← List.flatMap_def, ← List.map_eq_flatMap]

/-- The changes of a run lead from the path to its filtered form. -/
theorem chain_changes (engine : Engine) (path : Path) :
    Change.Chain path (engine.changes path) (engine.filter path) := by
  have hlast : engine.filter path = (engine.apply note [] path).2.path := by
    rw [apply_eq, filter]
  rw [hlast]
  exact chain_applyRules (.lent path) engine.rules

end Engine

end PathVeil
