import PathVeil.Rule.Basic

/-!
# PathVeil.Rule.Overlay

Laying the user's rules over the default rules. A user's rule with the name of
a default rule takes its place as a whole; every other one goes to the end.
-/

namespace PathVeil.Rule

/-- The index of the last rule of that name. -/
def lastIndex? (name : String) : List Rule → Option Nat
  | [] => none
  | rule :: rules =>
    match lastIndex? name rules with
    | some index => some (index + 1)
    | none => if rule.name = name then some 0 else none

/-- Puts one rule over the rules so far, which began as `base`. -/
def put (base merged : List Rule) (rule : Rule) : List Rule :=
  match lastIndex? rule.name base with
  | some index => merged.set index rule
  | none => merged ++ [rule]

/-- The base rules with the rules of `above` laid over them. -/
def overlay (base above : List Rule) : List Rule := above.foldl (put base) base

@[simp] theorem overlay_nil (base : List Rule) : overlay base [] = base := rfl

theorem lastIndex?_lt {name : String} {rules : List Rule} {index : Nat}
    (h : lastIndex? name rules = some index) : index < rules.length := by
  induction rules generalizing index with
  | nil => simp [lastIndex?] at h
  | cons rule rules ih =>
    unfold lastIndex? at h
    split at h
    · rename_i found hfound
      have := ih hfound
      simp only [Option.some.injEq] at h
      simp only [List.length_cons]
      omega
    · split at h
      · simp only [Option.some.injEq] at h
        simp only [List.length_cons]
        omega
      · simp at h

/-- A name has a last index exactly when some rule has it. -/
theorem lastIndex?_eq_none_iff {name : String} {rules : List Rule} :
    lastIndex? name rules = none ↔ name ∉ rules.map Rule.name := by
  induction rules with
  | nil => simp [lastIndex?]
  | cons rule rules ih =>
    unfold lastIndex?
    split
    · rename_i found hfound
      have hmem : name ∈ rules.map Rule.name := by
        rw [hfound] at ih
        simpa using ih
      simp only [reduceCtorEq, List.map_cons, List.mem_cons, false_iff]
      exact fun h => h (Or.inr hmem)
    · rename_i hnone
      have hmem := ih.mp hnone
      by_cases hname : rule.name = name
      · simp [hname]
      · simp only [hname, ↓reduceIte, List.map_cons, List.mem_cons, true_iff, not_or]
        exact ⟨fun h => hname h.symm, hmem⟩

/-- The default rules with the user's rules, if there are any, over them. -/
def merge (defaults : List Rule) (user : Option (List Rule)) : List Rule :=
  match user with
  | none => defaults
  | some user => overlay defaults user

end PathVeil.Rule
