import Mathlib.Data.Fin.Tuple.Basic
import PathVeil.Proofs.Engine.Run

/-!
# PathVeil.Proofs.Engine.Trace

The redactions of a run account for all of it. Each of them can be placed at a rule,
in the order of the rules; it tells what this rule has made of the path that it met,
and whatever rule has no redaction has left the path as it was. So a reader of the
redactions who knows the rules misses nothing.

## Proof shape

`Engine.Trace` follows the rules: one constructor for a rule that leaves the path
alone, and one for a rule that changes it, which takes the next redaction. A run has
a trace (`trace_applyRules`), rule by rule. The numbers of the rules and the paths at
each stage are then read off the trace (`Trace.exists_account`).
-/

namespace PathVeil

/-- Whether a redaction tells what a rule has made of a path. -/
structure Redaction.Tells (redaction : Redaction) (rule : CompiledRule) (sourceId : String)
    (before after : Path) : Prop where
  ruleName_eq : redaction.ruleName = rule.name
  extent_eq : (rule.pattern.find before).extent? = some redaction.extent
  sanitizedPath_eq : redaction.sanitizedPath = after
  after_eq : after = rule.pattern.filter before
  after_ne : after ≠ before
  /-- The path itself is not told, only its digest under the name of the rule. -/
  pathHash_eq : redaction.pathHash =
    Sha256.hex (Sha256.digest (Utf8.encode (redaction.ruleName.toList ++ ':' :: before)))
  sourceId_eq : redaction.sourceId = sourceId

/-- The record of a change that a rule makes tells it. -/
theorem CompiledRule.tells_redaction {rule : CompiledRule} {current next : Rendered}
    {change : Change} (h : rule.change? current = some (change, next)) (sourceId : String) :
    (change.redaction sourceId).Tells rule sourceId current.path next.path := by
  obtain ⟨hname, hextent, hbefore, hafter, hne, hnext⟩ := eq_of_change?_eq_some h
  exact {
    ruleName_eq := hname
    extent_eq := hextent
    sanitizedPath_eq := hnext.symm
    after_eq := hnext.trans hafter
    after_ne := hnext ▸ hbefore ▸ hne
    pathHash_eq := hbefore ▸ rfl
    sourceId_eq := rfl }

namespace Engine

/-! ### Rule by rule -/

/-- The rules lead from one path to another, and the redactions tell every change on
the way. -/
inductive Trace (sourceId : String) : List CompiledRule → Path → List Redaction → Path → Prop
  /-- Without rules nothing happens. -/
  | done (path : Path) : Trace sourceId [] path [] path
  /-- A rule leaves the path as it is, and there is nothing to tell. -/
  | idle {rule : CompiledRule} {rules : List CompiledRule} {path final : Path}
    {redactions : List Redaction} (hidle : rule.pattern.filter path = path)
    (h : Trace sourceId rules path redactions final) :
    Trace sourceId (rule :: rules) path redactions final
  /-- A rule changes the path, and the first redaction tells how. -/
  | told {rule : CompiledRule} {rules : List CompiledRule} {path next final : Path}
    {redaction : Redaction} {redactions : List Redaction}
    (htells : redaction.Tells rule sourceId path next)
    (h : Trace sourceId rules next redactions final) :
    Trace sourceId (rule :: rules) path (redaction :: redactions) final

/-- A run has a trace. -/
theorem trace_applyRules (sourceId : String) (current : Rendered) (rules : List CompiledRule) :
    Trace sourceId rules current.path
      ((applyRules note [] current rules).1.map (·.redaction sourceId))
      (applyRules note [] current rules).2.path := by
  induction rules generalizing current with
  | nil => exact .done current.path
  | cons rule rules ih =>
    rw [applyRules_note_cons]
    cases h : rule.change? current with
    | none => exact .idle (CompiledRule.filter_of_change?_eq_none h) (ih current)
    | some found =>
      obtain ⟨change, next⟩ := found
      exact .told (CompiledRule.tells_redaction h sourceId) (ih next)

theorem trace_sanitize (engine : Engine) (path : Path) (sourceId : String) :
    Trace sourceId engine.rules path (engine.sanitize path sourceId).2
      (engine.sanitize path sourceId).1 := by
  have hpath : engine.filter path = (engine.apply note [] path).2.path := by
    rw [apply_eq, filter]
  rw [sanitize_eq, hpath]
  exact trace_applyRules sourceId (.lent path) engine.rules

/-- No rule has more than one redaction, and they come in the order of the rules. -/
theorem Trace.ruleNames_sublist {sourceId : String} {rules : List CompiledRule} {path final : Path}
    {redactions : List Redaction} (h : Trace sourceId rules path redactions final) :
    (redactions.map Redaction.ruleName).Sublist (rules.map CompiledRule.name) := by
  induction h with
  | done path => exact .slnil
  | idle _ _ ih => exact ih.cons _
  | told htells _ ih =>
    rw [List.map_cons, List.map_cons, htells.ruleName_eq]
    exact ih.cons_cons _

/-! ### By numbers -/

/-- Redactions placed among rules: redaction `j` is the work of rule `index j`, and
leads from one stage to the next. The rules between the places of two redactions, and
those before the first and behind the last, leave the stage that they meet as it is. -/
structure Account (sourceId : String) (rules : List CompiledRule) (redactions : List Redaction)
    (index : Fin redactions.length → Fin rules.length)
    (stage : Fin (redactions.length + 1) → Path) : Prop where
  ascending : StrictMono index
  tells : ∀ j : Fin redactions.length,
    redactions[j].Tells rules[index j] sourceId (stage j.castSucc) (stage j.succ)
  idle : ∀ (j : Fin (redactions.length + 1)) (k : Fin rules.length),
    (∀ i, i.castSucc < j → index i < k) → (∀ i, j ≤ i.castSucc → k < index i) →
    rules[k].pattern.filter (stage j) = stage j

section Account

variable {sourceId : String} {rule : CompiledRule} {rules : List CompiledRule}
  {redaction : Redaction} {redactions : List Redaction}
  {index : Fin redactions.length → Fin rules.length}
  {stage : Fin (redactions.length + 1) → Path} {path : Path}

/-- One more rule in front, which leaves the first stage as it is. -/
theorem Account.idle_cons (h : Account sourceId rules redactions index stage)
    (hidle : rule.pattern.filter (stage 0) = stage 0) :
    Account sourceId (rule :: rules) redactions (fun j => (index j).succ) stage where
  ascending := (Fin.strictMono_succ).comp h.ascending
  tells := h.tells
  idle j k hbefore hbehind := by
    cases k using Fin.cases with
    | zero =>
      -- No redaction comes before the first rule, so this is the first stage.
      cases j using Fin.cases with
      | zero => exact hidle
      | succ j => exact absurd (hbefore j Fin.castSucc_lt_succ) (Fin.not_lt_zero _)
    | succ k =>
      exact h.idle j k (fun i hi => Fin.succ_lt_succ_iff.mp (hbefore i hi))
        fun i hi => Fin.succ_lt_succ_iff.mp (hbehind i hi)

/-- One more rule in front, which changes the path, with its redaction. -/
theorem Account.told_cons (h : Account sourceId rules redactions index stage)
    (htells : redaction.Tells rule sourceId path (stage 0)) :
    Account sourceId (rule :: rules) (redaction :: redactions)
      (Fin.cons (0 : Fin (rules.length + 1)) fun j => (index j).succ) (Fin.cons path stage) where
  ascending := by
    intro i j hij
    cases j using Fin.cases with
    | zero => exact absurd hij (Fin.not_lt_zero _)
    | succ j =>
      cases i using Fin.cases with
      | zero => exact Fin.succ_pos _
      | succ i => exact Fin.succ_lt_succ_iff.mpr (h.ascending (Fin.succ_lt_succ_iff.mp hij))
  tells j := by
    cases j using Fin.cases with
    | zero => exact htells
    | succ j => exact h.tells j
  idle j k hbefore hbehind := by
    cases j using Fin.cases with
    | zero =>
      -- No rule stands in front of the first redaction.
      have hzero := hbehind (0 : Fin (redactions.length + 1)) (Fin.zero_le _)
      exact absurd hzero (Fin.not_lt_zero _)
    | succ j =>
      cases k using Fin.cases with
      | zero =>
        have hzero := hbefore (0 : Fin (redactions.length + 1))
          (by rw [Fin.castSucc_zero]; exact Fin.succ_pos j)
        exact absurd hzero (Fin.not_lt_zero _)
      | succ k =>
        exact h.idle j k
          (fun i hi => Fin.succ_lt_succ_iff.mp (hbefore i.succ (Fin.succ_lt_succ_iff.mpr hi)))
          fun i hi => Fin.succ_lt_succ_iff.mp (hbehind i.succ (Fin.succ_le_succ_iff.mpr hi))

/-- The places of the redactions of a trace, and its stages. -/
theorem Trace.exists_account {final : Path} (h : Trace sourceId rules path redactions final) :
    ∃ index stage, stage 0 = path ∧ stage (Fin.last redactions.length) = final ∧
      Account sourceId rules redactions index stage := by
  induction h with
  | done path =>
    exact ⟨nofun, fun _ => path, rfl, rfl, nofun, nofun, fun _ k => k.elim0⟩
  | idle hidle _ ih =>
    obtain ⟨index, stage, hfirst, hlast, haccount⟩ := ih
    exact ⟨_, stage, hfirst, hlast, haccount.idle_cons (hfirst ▸ hidle)⟩
  | told htells _ ih =>
    obtain ⟨index, stage, hfirst, hlast, haccount⟩ := ih
    exact ⟨_, Fin.cons _ stage, rfl, hlast, haccount.told_cons (hfirst ▸ htells)⟩

end Account

/-- **Redactions are a faithful trace.** For every engine and path, the redactions can
be placed at rules in ascending order such that the path, stage by stage, becomes the
path that is handed back: each redaction tells the name of its rule, how far it
matched, what it has left, the digest of what it met, and where the path was read; and
all rules in between leave the path as they meet it. -/
theorem sanitize_accounts (engine : Engine) (path : Path) (sourceId : String) :
    let final := (engine.sanitize path sourceId).1
    let redactions := (engine.sanitize path sourceId).2
    ∃ (index : Fin redactions.length → Fin engine.rules.length)
      (stage : Fin (redactions.length + 1) → Path),
      stage 0 = path ∧ stage (Fin.last redactions.length) = final ∧
        Account sourceId engine.rules redactions index stage :=
  (trace_sanitize engine path sourceId).exists_account

end Engine

end PathVeil
