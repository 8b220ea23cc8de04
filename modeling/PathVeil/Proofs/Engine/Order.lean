import Mathlib.Data.List.Pairwise
import PathVeil.Proofs.Engine.Run
import PathVeil.Proofs.Pattern.Repetition
import PathVeil.Proofs.Rule.Selection

/-!
# PathVeil.Proofs.Engine.Order

Rules see what the rules before them have left, so in general their order decides
the result. It does not if their patterns begin with literal texts of which none is
the beginning of another one: then at most one rule has anything to do with a path,
and it does not matter when its turn comes.

## Proof shape

A rule that changes a path needs its head at the beginning of the path, and leaves
it there (`CompiledRule.prefix_of_change?`). With heads apart, the rules behind it
therefore leave its result alone, as those in front of it have left the path alone.
`HeadsApart.run_cases` states what a run comes to without mentioning an order: it
asks each rule what it would make of the path at the start (`offers`). Permutations
and a second run are read off from there.
-/

namespace PathVeil

/-! ### Heads -/

namespace CompiledRule

variable {rule : CompiledRule} {current next : Rendered} {change : Change} {head : List Char}

/-- The literal text with which the pattern of a rule begins, if it does. -/
def head? (rule : CompiledRule) : Option (List Char) :=
  match rule.pattern.tokens with
  | .literal text :: _ => some text
  | _ => none

theorem tokens_of_head? (h : rule.head? = some head) :
    ∃ tokens, rule.pattern.tokens = .literal head :: tokens := by
  rw [head?] at h
  split at h
  case h_1 text tokens htokens =>
    cases h
    exact ⟨tokens, htokens⟩
  case h_2 => cases h

/-- A change begins and ends with a path that begins with the head. -/
theorem prefix_of_change? (hhead : rule.head? = some head)
    (h : rule.change? current = some (change, next)) :
    head <+: current.path ∧ head <+: next.path := by
  obtain ⟨tokens, htokens⟩ := tokens_of_head? hhead
  obtain ⟨-, hextent, -, hafter, -, hnext⟩ := eq_of_change?_eq_some h
  rw [hnext, hafter, Pattern.filter_eq_of_remainder]
  cases hrest : Token.remainder? current.path rule.pattern.tokens with
  | none =>
    -- Without a remainder there would be no match, and no change.
    rw [Pattern.find_eq_ofRemainder, hrest] at hextent
    cases hextent
  | some rest =>
    constructor
    · rw [htokens] at hrest
      obtain ⟨behind, hbehind, -⟩ := Token.remainder?_literal_eq_some_iff.mp hrest
      exact ⟨behind, hbehind.symm⟩
    · rw [Option.elim_some, rule.pattern.substitute_eq, htokens, Token.fill_cons, Token.text,
        List.append_assoc]
      exact List.prefix_append _ _

/-- Where the pattern would leave the path as it is, there is no change. -/
theorem change?_eq_none_of_filter (h : rule.pattern.filter current.path = current.path) :
    rule.change? current = none := by
  cases hchange : rule.change? current with
  | none => rfl
  | some found =>
    obtain ⟨change, next⟩ := found
    obtain ⟨-, -, hbefore, hafter, hne, -⟩ := eq_of_change?_eq_some hchange
    exact absurd (hafter.trans (h.trans hbefore.symm)) hne

/-- Whether the heads of two rules are no beginnings of each other. -/
def Apart (first second : CompiledRule) : Prop :=
  ∀ a ∈ first.head?, ∀ b ∈ second.head?, ¬ a <+: b ∧ ¬ b <+: a

instance : DecidableRel Apart := fun first second =>
  inferInstanceAs (Decidable (∀ a ∈ first.head?, ∀ b ∈ second.head?, ¬ a <+: b ∧ ¬ b <+: a))

theorem Apart.symm {first second : CompiledRule} (h : Apart first second) : Apart second first :=
  fun b hb a ha => (h a ha b hb).symm

instance : Std.Symm Apart := ⟨fun _ _ => Apart.symm⟩

/-- No path begins with the heads of two rules that are apart. -/
theorem Apart.not_prefix {first second : CompiledRule} (h : Apart first second) {a b : List Char}
    (ha : first.head? = some a) (hb : second.head? = some b) {path : Path} (hpath : a <+: path) :
    ¬ b <+: path := by
  intro hother
  rcases List.prefix_or_prefix_of_prefix hpath hother with hab | hba
  · exact (h a ha b hb).1 hab
  · exact (h a ha b hb).2 hba

end CompiledRule

/-! ### Offers -/

/-- What each of the rules would make of the path in hand, if it came first. -/
def offers (rules : List CompiledRule) (current : Rendered) : List (Change × Rendered) :=
  rules.filterMap (·.change? current)

section Offers

variable {rule : CompiledRule} {rules others : List CompiledRule} {current : Rendered}

theorem offers_cons_of_none (h : rule.change? current = none) :
    offers (rule :: rules) current = offers rules current :=
  List.filterMap_cons_none h

theorem offers_cons_of_some {found : Change × Rendered} (h : rule.change? current = some found) :
    offers (rule :: rules) current = found :: offers rules current :=
  List.filterMap_cons_some h

theorem offers_eq_nil_iff :
    offers rules current = [] ↔ ∀ rule ∈ rules, rule.change? current = none :=
  List.filterMap_eq_nil_iff

theorem offers_perm (h : rules.Perm others) (current : Rendered) :
    (offers rules current).Perm (offers others current) :=
  h.filterMap _

/-- Where no rule has an offer, nothing happens. -/
theorem applyRules_of_offers_eq_nil (noted : List Change) (h : offers rules current = []) :
    Engine.applyRules Engine.note noted current rules = (noted, current) := by
  induction rules with
  | nil => rfl
  | cons rule rules ih =>
    have hnone := offers_eq_nil_iff.mp h rule List.mem_cons_self
    rw [offers_cons_of_none hnone] at h
    rw [Engine.applyRules_cons, hnone]
    exact ih h

end Offers

/-! ### Heads apart -/

/-- Rules whose patterns all begin with a literal, such that no literal is the
beginning of that of another rule. -/
structure HeadsApart (rules : List CompiledRule) : Prop where
  literal : ∀ rule ∈ rules, rule.head?.isSome
  apart : rules.Pairwise CompiledRule.Apart

namespace HeadsApart

open Engine

variable {rule other : CompiledRule} {rules others : List CompiledRule} {current next : Rendered}
  {change : Change} {path : Path} {head : List Char}

instance (rules : List CompiledRule) : Decidable (HeadsApart rules) :=
  decidable_of_iff (_ ∧ _) ⟨fun h => ⟨h.1, h.2⟩, fun h => ⟨h.literal, h.apart⟩⟩

theorem tail (h : HeadsApart (rule :: rules)) : HeadsApart rules where
  literal other hother := h.literal other (List.mem_cons_of_mem rule hother)
  apart := (List.pairwise_cons.mp h.apart).2

theorem perm (h : HeadsApart rules) (hperm : rules.Perm others) : HeadsApart others where
  literal rule hrule := h.literal rule (hperm.mem_iff.mpr hrule)
  apart := hperm.pairwise h.apart CompiledRule.Apart.symm

theorem exists_head (h : HeadsApart rules) (hrule : rule ∈ rules) :
    ∃ head, rule.head? = some head :=
  Option.isSome_iff_exists.mp (h.literal rule hrule)

/-- A path begins with the head of one rule at most. -/
theorem eq_of_prefix (h : HeadsApart rules) (hrule : rule ∈ rules) (hother : other ∈ rules)
    {a b : List Char} (ha : rule.head? = some a) (hb : other.head? = some b) (hpath : a <+: path)
    (hpath' : b <+: path) : rule = other := by
  by_contra hne
  have hapart := h.apart.forall hrule hother hne
  exact hapart.not_prefix ha hb hpath hpath'

/-- For a path that begins with the head of one rule, those behind it have no offer. -/
theorem offers_tail_eq_nil (h : HeadsApart (rule :: rules)) (hhead : rule.head? = some head)
    (hpath : head <+: current.path) : offers rules current = [] := by
  rw [offers_eq_nil_iff]
  intro other hother
  obtain ⟨head', hhead'⟩ := h.tail.exists_head hother
  have hapart := (List.pairwise_cons.mp h.apart).1 other hother
  cases hchange : other.change? current with
  | none => rfl
  | some found =>
    have hprefix := (CompiledRule.prefix_of_change? hhead' hchange).1
    exact absurd hprefix (hapart.not_prefix hhead hhead' hpath)

/-- **A run with heads apart.** Either no rule has an offer, and nothing happens, or
a single one has, and this is all that happens. -/
theorem run_cases (h : HeadsApart rules) (current : Rendered) :
    (offers rules current = [] ∧ applyRules note [] current rules = ([], current)) ∨
    ∃ rule ∈ rules, ∃ change next, rule.change? current = some (change, next) ∧
      offers rules current = [(change, next)] ∧
      applyRules note [] current rules = ([change], next) := by
  induction rules with
  | nil => exact Or.inl ⟨rfl, rfl⟩
  | cons rule rules ih =>
    cases hchange : rule.change? current with
    | none =>
      rw [offers_cons_of_none hchange, applyRules_cons, hchange]
      rcases ih h.tail with hnone | ⟨other, hother, hsome⟩
      · exact Or.inl hnone
      · exact Or.inr ⟨other, List.mem_cons_of_mem rule hother, hsome⟩
    | some found =>
      obtain ⟨change, next⟩ := found
      obtain ⟨head, hhead⟩ := h.exists_head List.mem_cons_self
      obtain ⟨hbefore, hafter⟩ := CompiledRule.prefix_of_change? hhead hchange
      -- The head is still there after the change, so that the rules behind have as
      -- little to offer as before.
      refine Or.inr ⟨rule, List.mem_cons_self, change, next, hchange, ?_, ?_⟩
      · rw [offers_cons_of_some hchange, h.offers_tail_eq_nil hhead hbefore]
      · rw [applyRules_cons, hchange]
        exact applyRules_of_offers_eq_nil [change] (h.offers_tail_eq_nil hhead hafter)

/-- The order of the rules does not matter. -/
theorem applyRules_perm (h : HeadsApart rules) (hperm : rules.Perm others) (current : Rendered) :
    applyRules note [] current others = applyRules note [] current rules := by
  have hoffers := offers_perm hperm current
  rcases h.run_cases current with ⟨hnone, hrun⟩ | ⟨_, _, change, next, _, hsome, hrun⟩
  · rw [hnone, List.nil_perm] at hoffers
    rw [hrun, applyRules_of_offers_eq_nil [] hoffers]
  · rw [hsome, List.singleton_perm] at hoffers
    rcases (h.perm hperm).run_cases current with ⟨hnone', _⟩ | ⟨_, _, _, _, _, hsome', hrun'⟩
    · rw [hnone'] at hoffers
      cases hoffers
    · rw [hsome'] at hoffers
      cases hoffers
      rw [hrun, hrun']

/-- On the result of a change, no rule has an offer: those with other heads do not
match, and the rule itself leaves its own output as it is. -/
theorem offers_after_change (h : HeadsApart rules)
    (hreplacement : ∀ rule ∈ rules, separator ∉ rule.pattern.replacement) (hrule : rule ∈ rules)
    (hchange : rule.change? current = some (change, next)) {again : Rendered}
    (hagain : again.path = next.path) : offers rules again = [] := by
  rw [offers_eq_nil_iff]
  intro other hother
  obtain ⟨head, hhead⟩ := h.exists_head hrule
  obtain ⟨head', hhead'⟩ := h.exists_head hother
  obtain ⟨-, hafter⟩ := CompiledRule.prefix_of_change? hhead hchange
  by_contra hne
  obtain ⟨⟨change', last⟩, hchange'⟩ := Option.ne_none_iff_exists'.mp hne
  obtain ⟨hbefore', -⟩ := CompiledRule.prefix_of_change? hhead' hchange'
  obtain rfl := h.eq_of_prefix hrule hother hhead hhead' hafter (hagain ▸ hbefore')
  refine hne (CompiledRule.change?_eq_none_of_filter ?_)
  obtain ⟨-, -, -, hfilter, -, hnext⟩ := CompiledRule.eq_of_change?_eq_some hchange
  rw [hagain, hnext, hfilter, Pattern.filter_filter fun _ => hreplacement rule hrule]

end HeadsApart

/-! ### Engines -/

namespace Engine

variable {engine : Engine} {config others : List Rule}

/-- Rules in another order compile to the same, in that order. -/
theorem ofRules_perm (h : ofRules config = .ok engine) (hperm : config.Perm others) :
    ∃ other, ofRules others = .ok other ∧ engine.rules.Perm other.rules := by
  obtain ⟨hcompile, -⟩ := ofRules_eq_ok_iff.mp h
  obtain ⟨hfits, hrules⟩ := Rule.compile_eq_ok_iff.mp hcompile
  refine ⟨⟨others.filterMap Rule.compiled?, others⟩, ofRules_eq_ok_iff.mpr ⟨?_, rfl⟩, ?_⟩
  · exact Rule.compile_eq_ok_iff.mpr ⟨fun rule hrule => hfits rule (hperm.mem_iff.mpr hrule), rfl⟩
  · rw [← hrules]
    exact hperm.filterMap Rule.compiled?

/-- What is noted down and handed back in a run of an engine. -/
theorem applyRules_eq (engine : Engine) (path : Path) :
    applyRules note [] (.lent path) engine.rules = (engine.changes path, engine.rendered path) := by
  have hrendered : (engine.apply note [] path).2 = engine.rendered path := by rw [apply_eq]
  exact Prod.ext rfl hrendered

theorem eq_of_offers_eq_nil {path : Path} (h : offers engine.rules (.lent path) = []) :
    engine.filter path = path ∧ engine.changes path = [] := by
  have hrun := applyRules_of_offers_eq_nil [] h
  rw [applyRules_eq, Prod.mk.injEq] at hrun
  refine ⟨?_, hrun.1⟩
  rw [filter, hrun.2, Rendered.path]

end Engine

namespace HeadsApart

variable {engine other : Engine}

/-- The same rules in another order treat every path alike. -/
theorem engine_perm (h : HeadsApart engine.rules) (hperm : engine.rules.Perm other.rules)
    (path : Path) :
    other.filter path = engine.filter path ∧ other.changes path = engine.changes path := by
  have hrun := h.applyRules_perm hperm (.lent path)
  rw [Engine.applyRules_eq, Engine.applyRules_eq, Prod.mk.injEq] at hrun
  exact ⟨congrArg Rendered.path hrun.2, hrun.1⟩

theorem engine_cases (h : HeadsApart engine.rules) (path : Path) :
    offers engine.rules (.lent path) = [] ∨
    ∃ rule ∈ engine.rules, ∃ change next, rule.change? (.lent path) = some (change, next) ∧
      engine.changes path = [change] ∧ engine.filter path = next.path := by
  rcases h.run_cases (.lent path) with ⟨hnone, -⟩ | ⟨rule, hrule, change, next, hchange, -, hrun⟩
  · exact Or.inl hnone
  · rw [Engine.applyRules_eq, Prod.mk.injEq] at hrun
    exact Or.inr ⟨rule, hrule, change, next, hchange, hrun.1, congrArg Rendered.path hrun.2⟩

theorem length_changes_le (h : HeadsApart engine.rules) (path : Path) :
    (engine.changes path).length ≤ 1 := by
  rcases h.engine_cases path with hnone | ⟨_, -, _, _, -, hchanges, -⟩
  · rw [(Engine.eq_of_offers_eq_nil hnone).2]
    exact Nat.zero_le 1
  · rw [hchanges]
    exact Nat.le_refl 1

/-- A second run finds nothing to do. -/
theorem engine_again (h : HeadsApart engine.rules)
    (hreplacement : ∀ rule ∈ engine.rules, separator ∉ rule.pattern.replacement) (path : Path) :
    engine.filter (engine.filter path) = engine.filter path ∧
      engine.changes (engine.filter path) = [] := by
  refine Engine.eq_of_offers_eq_nil ?_
  rcases h.engine_cases path with hnone | ⟨rule, hrule, change, next, hchange, -, hfilter⟩
  · rwa [(Engine.eq_of_offers_eq_nil hnone).1]
  · exact h.offers_after_change hreplacement hrule hchange hfilter

end HeadsApart

/-! ### The main result -/

/-- **Rules in any order, any number of times.** If the rules of a configuration
compile to patterns with literal heads that are no beginnings of each other, then
the same rules in any other order compile too, filter every path alike and record
the same redactions for it, one at most. With replacements that hold no separator,
the output is a fixed point, and nothing is recorded for it. -/
theorem Engine.heads_apart_order_repetition {config : List Rule} {engine : Engine}
    (hengine : ofRules config = .ok engine) (h : HeadsApart engine.rules) :
    (∀ others, config.Perm others → ∃ other, ofRules others = .ok other ∧
      ∀ path sourceId, other.filter path = engine.filter path ∧
        other.sanitize path sourceId = engine.sanitize path sourceId) ∧
    (∀ path sourceId, (engine.sanitize path sourceId).2.length ≤ 1) ∧
    ((∀ rule ∈ engine.rules, separator ∉ rule.pattern.replacement) → ∀ path sourceId,
      engine.filter (engine.filter path) = engine.filter path ∧
        engine.sanitize (engine.filter path) sourceId = (engine.filter path, [])) := by
  refine ⟨?_, ?_, ?_⟩
  · intro others hperm
    obtain ⟨other, hother, hrules⟩ := ofRules_perm hengine hperm
    refine ⟨other, hother, fun path sourceId => ?_⟩
    obtain ⟨hfilter, hchanges⟩ := h.engine_perm hrules path
    refine ⟨hfilter, ?_⟩
    rw [sanitize_eq, sanitize_eq, hfilter, hchanges]
  · intro path sourceId
    rw [sanitize_eq, List.length_map]
    exact h.length_changes_le path
  · intro hreplacement path sourceId
    obtain ⟨hfilter, hchanges⟩ := h.engine_again hreplacement path
    refine ⟨hfilter, ?_⟩
    rw [sanitize_eq, hfilter, hchanges, List.map_nil]

/-- Two rules for different directories, and the same in the other order. -/
theorem Engine.heads_apart_order_repetition_homes :
    let config := [Rule.ofPattern "home" "/home/{user}" "U",
      Rule.ofPattern "org" "/code/{org}/src" "XXX"]
    let engine : Engine := ⟨config.filterMap Rule.compiled?, config⟩
    ofRules config = .ok engine ∧ HeadsApart engine.rules ∧
      (∀ rule ∈ engine.rules, separator ∉ rule.pattern.replacement) ∧
      (∃ other, ofRules config.reverse = .ok other ∧ ∀ path sourceId,
        other.filter path = engine.filter path ∧
          other.sanitize path sourceId = engine.sanitize path sourceId) ∧
      engine.filter "/code/lab/src/x".toList = "/code/XXX/src/x".toList ∧
      engine.sanitize (engine.filter "/code/lab/src/x".toList) "" =
        (engine.filter "/code/lab/src/x".toList, []) := by
  intro config engine
  have hengine : ofRules config = .ok engine := rfl
  have happart : HeadsApart engine.rules := by decide
  have hreplacement : ∀ rule ∈ engine.rules, separator ∉ rule.pattern.replacement := by decide
  obtain ⟨horder, -, hagain⟩ := heads_apart_order_repetition hengine happart
  exact ⟨hengine, happart, hreplacement, horder _ (List.reverse_perm config).symm, by decide,
    (hagain hreplacement _ _).2⟩

end PathVeil
