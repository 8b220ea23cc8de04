import Mathlib.Data.List.Induction
import PathVeil.Rule.Fault
import PathVeil.Rule.Overlay

/-!
# PathVeil.Proofs.Rule.Overlay

What laying rules over each other comes to, for any rules, also where names are
repeated: which rules an overlay has, in which places, and what is found in it by
name.

## Proof shape

Putting rules over a base one by one changes two things: the place of the last
base rule of a name, which goes to the last upper rule of that name, and the end,
where the rules with new names collect. `overriddenBy` describes the first by
recursion on the base, `newOver` the second, and `overlay_eq` says that an overlay
is the one before the other. All else follows from `overlay_eq`, without a look at
indices: the names (`map_name_overlay`), the members (`mem_of_mem_overlay`,
`mem_overlay_of_mem`) and the last rule of a name (`findLast?_overlay`), where the
upper rule hides the lower one.
-/

namespace PathVeil.Rule

variable {rules base middle above : List Rule} {rule upper : Rule} {name : String}

/-! ### The last rule of a name -/

/-- The last rule of that name. -/
def findLast? (rules : List Rule) (name : String) : Option Rule := find? rules.reverse name

@[simp] theorem findLast?_nil (name : String) : findLast? [] name = none := rfl

theorem findLast?_append (first second : List Rule) (name : String) :
    findLast? (first ++ second) name = (findLast? second name).or (findLast? first name) := by
  rw [findLast?, List.reverse_append, find?, List.find?_append]
  rfl

theorem findLast?_singleton (rule : Rule) (name : String) :
    findLast? [rule] name = if rule.name = name then some rule else none := by
  simp [findLast?, find?]

theorem findLast?_cons (rule : Rule) (rules : List Rule) (name : String) :
    findLast? (rule :: rules) name =
      (findLast? rules name).or (if rule.name = name then some rule else none) := by
  rw [← List.singleton_append, findLast?_append, findLast?_singleton]

theorem name_of_findLast? (h : findLast? rules name = some rule) : rule.name = name := by
  have hname := List.find?_some h
  exact eq_of_beq hname

theorem mem_of_findLast? (h : findLast? rules name = some rule) : rule ∈ rules :=
  List.mem_reverse.mp (List.mem_of_find?_eq_some h)

theorem findLast?_eq_none_iff : findLast? rules name = none ↔ name ∉ rules.map Rule.name := by
  rw [findLast?, find?, List.find?_eq_none]
  simp

/-- Where no name is repeated, the first rule of a name is the last one. -/
theorem findLast?_eq_find? (h : (rules.map Rule.name).Nodup) (name : String) :
    findLast? rules name = find? rules name := by
  induction rules with
  | nil => rfl
  | cons rule rules ih =>
    rw [List.map_cons, List.nodup_cons] at h
    rw [findLast?_cons, find?, List.find?_cons]
    by_cases hname : rule.name = name
    · subst hname
      rw [findLast?_eq_none_iff.mpr h.1, if_pos rfl, beq_self_eq_true]
      rfl
    · rw [if_neg hname, Option.or_none, ih h.2, beq_false_of_ne hname]
      rfl

/-- A rule whose name is not repeated is the last one of it. -/
theorem findLast?_of_mem (h : (rules.map Rule.name).Nodup) (hmem : rule ∈ rules) :
    findLast? rules rule.name = some rule := by
  induction rules with
  | nil => cases hmem
  | cons other rules ih =>
    rw [List.map_cons, List.nodup_cons] at h
    rw [findLast?_cons]
    rcases List.mem_cons.mp hmem with rfl | hmem
    · rw [findLast?_eq_none_iff.mpr h.1, if_pos rfl, Option.none_or]
    · rw [ih h.2 hmem, Option.some_or]

theorem findLast?_eq_some_iff (h : (rules.map Rule.name).Nodup) :
    findLast? rules name = some rule ↔ rule ∈ rules ∧ rule.name = name := by
  constructor
  · exact fun hlast => ⟨mem_of_findLast? hlast, name_of_findLast? hlast⟩
  · rintro ⟨hmem, rfl⟩
    exact findLast?_of_mem h hmem

/-! ### The places of the base -/

theorem mem_map_name_of_lastIndex? {index : Nat} (h : lastIndex? name rules = some index) :
    name ∈ rules.map Rule.name := by
  by_contra hmem
  rw [lastIndex?_eq_none_iff.mpr hmem] at h
  cases h

/-- What stands in the places of the base when others are laid over it: the last
rule of a name gives way to the last one above, and no other rule does. -/
def overriddenBy (above : List Rule) : List Rule → List Rule
  | [] => []
  | rule :: rules =>
    (if rule.name ∈ rules.map Rule.name then rule else (findLast? above rule.name).getD rule)
      :: overriddenBy above rules

/-- What is laid over a base matters to it only through the last rules. -/
theorem overriddenBy_congr {other : List Rule}
    (h : ∀ name ∈ base.map Rule.name, findLast? above name = findLast? other name) :
    overriddenBy above base = overriddenBy other base := by
  induction base with
  | nil => rfl
  | cons rule base ih =>
    rw [List.map_cons, List.forall_mem_cons] at h
    rw [overriddenBy, overriddenBy, h.1, ih h.2]

@[simp] theorem overriddenBy_nil_left (base : List Rule) : overriddenBy [] base = base := by
  induction base with
  | nil => rfl
  | cons rule base ih => simp [overriddenBy, ih]

theorem name_getD_findLast? (above : List Rule) (rule : Rule) :
    ((findLast? above rule.name).getD rule).name = rule.name := by
  cases hfound : findLast? above rule.name with
  | none => rfl
  | some found => exact name_of_findLast? hfound

/-- Whatever takes the place of a rule has its name. -/
theorem name_override (above rules : List Rule) (rule : Rule) :
    (if rule.name ∈ rules.map Rule.name then rule
      else (findLast? above rule.name).getD rule).name = rule.name := by
  rw [apply_ite Rule.name, name_getD_findLast?, ite_self]

@[simp] theorem map_name_overriddenBy (above base : List Rule) :
    (overriddenBy above base).map Rule.name = base.map Rule.name := by
  induction base with
  | nil => rfl
  | cons rule base ih => rw [overriddenBy, List.map_cons, List.map_cons, ih, name_override]

@[simp] theorem length_overriddenBy (above base : List Rule) :
    (overriddenBy above base).length = base.length := by
  rw [← List.length_map Rule.name, map_name_overriddenBy, List.length_map]

/-- A rule that replaces nothing changes nothing in the base. -/
theorem overriddenBy_concat_of_not_mem (h : upper.name ∉ base.map Rule.name) :
    overriddenBy (above ++ [upper]) base = overriddenBy above base := by
  refine overriddenBy_congr fun name hname => ?_
  have hne : upper.name ≠ name := fun heq => h (heq ▸ hname)
  rw [findLast?_append, findLast?_singleton, if_neg hne, Option.none_or]

/-- A rule with the name of base rules takes the place of the last of them. -/
theorem overriddenBy_concat_of_lastIndex? {index : Nat}
    (h : lastIndex? upper.name base = some index) :
    overriddenBy (above ++ [upper]) base = (overriddenBy above base).set index upper := by
  induction base generalizing index with
  | nil => cases h
  | cons rule base ih =>
    rw [lastIndex?] at h
    cases hlater : lastIndex? upper.name base with
    | some found =>
      rw [hlater] at h
      cases h
      rw [overriddenBy, overriddenBy, List.set_cons_succ, ih hlater]
      congr 1
      split
      case isTrue => rfl
      case isFalse hlast =>
        -- A later base rule has the name of the upper one, so this rule has another.
        have hne : upper.name ≠ rule.name := fun heq =>
          hlast (heq ▸ mem_map_name_of_lastIndex? hlater)
        rw [findLast?_append, findLast?_singleton, if_neg hne, Option.none_or]
    | none =>
      rw [hlater] at h
      by_cases hname : rule.name = upper.name
      · simp only [if_pos hname, Option.some.injEq] at h
        have hlast := lastIndex?_eq_none_iff.mp hlater
        rw [overriddenBy, overriddenBy, ← h, List.set_cons_zero, hname, if_neg hlast,
          overriddenBy_concat_of_not_mem hlast, findLast?_append, findLast?_singleton, if_pos rfl,
          Option.some_or, Option.getD_some]
      · simp only [if_neg hname] at h
        cases h

theorem findLast?_overriddenBy (above base : List Rule) (name : String) :
    findLast? (overriddenBy above base) name =
      (findLast? base name).map fun rule => (findLast? above name).getD rule := by
  induction base with
  | nil => rfl
  | cons rule base ih =>
    rw [overriddenBy, findLast?_cons, findLast?_cons, ih]
    cases hlater : findLast? base name with
    | some found => rfl
    | none =>
      rw [name_override]
      by_cases hname : rule.name = name
      · subst hname
        rw [if_neg (findLast?_eq_none_iff.mp hlater), if_pos rfl, if_pos rfl]
        rfl
      · rw [if_neg hname, if_neg hname]
        rfl

theorem mem_of_mem_overriddenBy (h : rule ∈ overriddenBy above base) :
    rule ∈ base ∨ rule ∈ above := by
  induction base with
  | nil => cases h
  | cons lower base ih =>
    rw [overriddenBy, List.mem_cons] at h
    rcases h with hhead | htail
    · split at hhead
      · exact Or.inl (hhead ▸ List.mem_cons_self)
      · cases hfound : findLast? above lower.name with
        | none =>
          rw [hfound, Option.getD_none] at hhead
          exact Or.inl (hhead ▸ List.mem_cons_self)
        | some found =>
          rw [hfound, Option.getD_some] at hhead
          exact Or.inr (hhead ▸ mem_of_findLast? hfound)
    · exact (ih htail).imp_left (List.mem_cons_of_mem lower)

theorem overriddenBy_append {first second : List Rule}
    (h : ∀ name ∈ first.map Rule.name, name ∉ second.map Rule.name) :
    overriddenBy above (first ++ second) = overriddenBy above first ++ overriddenBy above second := by
  induction first with
  | nil => rfl
  | cons rule first ih =>
    rw [List.map_cons, List.forall_mem_cons] at h
    rw [List.cons_append, overriddenBy, overriddenBy, ih h.2, List.cons_append]
    simp only [List.map_append, List.mem_append, h.1, or_false]

/-- Where no name is repeated, every base rule gives way to the one above that has
its name. -/
theorem overriddenBy_eq_map (h : (base.map Rule.name).Nodup) :
    overriddenBy above base = base.map fun rule => (findLast? above rule.name).getD rule := by
  induction base with
  | nil => rfl
  | cons rule base ih =>
    rw [List.map_cons, List.nodup_cons] at h
    rw [overriddenBy, if_neg h.1, ih h.2, List.map_cons]

/-! ### The new rules -/

/-- The rules above that have names of their own. -/
def newOver (base above : List Rule) : List Rule := above.filter (·.name ∉ base.map Rule.name)

@[simp] theorem newOver_nil (base : List Rule) : newOver base [] = [] := rfl

theorem newOver_append (base first second : List Rule) :
    newOver base (first ++ second) = newOver base first ++ newOver base second :=
  List.filter_append first second

theorem newOver_cons_of_mem (h : rule.name ∈ base.map Rule.name) (above : List Rule) :
    newOver base (rule :: above) = newOver base above :=
  List.filter_cons_of_neg (by simpa using h)

theorem newOver_cons_of_not_mem (h : rule.name ∉ base.map Rule.name) (above : List Rule) :
    newOver base (rule :: above) = rule :: newOver base above :=
  List.filter_cons_of_pos (by simpa using h)

theorem map_name_newOver (base above : List Rule) :
    (newOver base above).map Rule.name =
      (above.map Rule.name).filter (· ∉ base.map Rule.name) := by
  rw [newOver, List.filter_map]
  rfl

theorem mem_map_name_newOver :
    name ∈ (newOver base above).map Rule.name ↔
      name ∈ above.map Rule.name ∧ name ∉ base.map Rule.name := by
  rw [map_name_newOver, List.mem_filter, decide_eq_true_iff]

theorem findLast?_newOver (base above : List Rule) (name : String) :
    findLast? (newOver base above) name =
      if name ∈ base.map Rule.name then none else findLast? above name := by
  induction above with
  | nil => exact (ite_self none).symm
  | cons rule above ih =>
    by_cases hmem : rule.name ∈ base.map Rule.name
    · rw [newOver_cons_of_mem hmem, ih, findLast?_cons]
      by_cases hname : rule.name = name
      · rw [← hname, if_pos hmem, if_pos hmem]
      · rw [if_neg hname, Option.or_none]
    · rw [newOver_cons_of_not_mem hmem, findLast?_cons, findLast?_cons, ih]
      by_cases hname : rule.name = name
      · rw [← hname, if_neg hmem, if_neg hmem]
      · rw [if_neg hname, Option.or_none, Option.or_none]

/-- New rules may be picked out before or after they are overridden. -/
theorem overriddenBy_newOver (above base middle : List Rule) :
    overriddenBy above (newOver base middle) = newOver base (overriddenBy above middle) := by
  induction middle with
  | nil => rfl
  | cons rule middle ih =>
    have hname := name_override above middle rule
    rw [overriddenBy]
    by_cases hmem : rule.name ∈ base.map Rule.name
    · rw [newOver_cons_of_mem hmem, newOver_cons_of_mem (by rwa [hname]), ih]
    · rw [newOver_cons_of_not_mem hmem, newOver_cons_of_not_mem (by rwa [hname]), overriddenBy, ih]
      simp only [mem_map_name_newOver, hmem, not_false_eq_true, and_true]

/-! ### The two parts together -/

/-- **An overlay in two parts**: the base with what overrides it, and then the
rules with new names in their order. -/
theorem overlay_eq (base above : List Rule) :
    overlay base above = overriddenBy above base ++ newOver base above := by
  induction above using List.reverseRecOn with
  | nil => simp [newOver]
  | append_singleton above upper ih =>
    rw [overlay, List.foldl_append, List.foldl_cons, List.foldl_nil, ← overlay, ih, put,
      newOver_append]
    split
    case h_1 index hindex =>
      have hlt : index < (overriddenBy above base).length := by
        simpa using lastIndex?_lt hindex
      rw [overriddenBy_concat_of_lastIndex? hindex, List.set_append_left _ _ hlt,
        newOver_cons_of_mem (mem_map_name_of_lastIndex? hindex), newOver_nil, List.append_nil]
    case h_2 hindex =>
      have hmem := lastIndex?_eq_none_iff.mp hindex
      rw [overriddenBy_concat_of_not_mem hmem, newOver_cons_of_not_mem hmem, newOver_nil,
        List.append_assoc]

/-- Of two base rules of a name the last one is overridden. Of two upper rules with a
new name both are added. -/
example :
    let rule (name pattern : String) : Rule := .ofPattern name pattern "XXX"
    overlay [rule "a" "/1", rule "a" "/2"] [rule "b" "/3", rule "a" "/4", rule "b" "/5"] =
      [rule "a" "/1", rule "a" "/4", rule "b" "/3", rule "b" "/5"] := by
  decide

/-- The names of an overlay: those of the base where they were, then the new
ones. -/
theorem map_name_overlay (base above : List Rule) :
    (overlay base above).map Rule.name =
      base.map Rule.name ++ (above.map Rule.name).filter (· ∉ base.map Rule.name) := by
  rw [overlay_eq, List.map_append, map_name_overriddenBy, map_name_newOver]

/-- Layers without repeated names have none together. -/
theorem nodup_map_name_overlay (hbase : (base.map Rule.name).Nodup)
    (habove : (above.map Rule.name).Nodup) : ((overlay base above).map Rule.name).Nodup := by
  rw [map_name_overlay, List.nodup_append]
  refine ⟨hbase, habove.filter _, ?_⟩
  rintro name hold _ hnew rfl
  have hfresh := (List.mem_filter.mp hnew).2
  simp only [decide_eq_true_eq] at hfresh
  exact hfresh hold

theorem mem_map_name_overlay :
    name ∈ (overlay base above).map Rule.name ↔
      name ∈ base.map Rule.name ∨ name ∈ above.map Rule.name := by
  rw [overlay_eq, List.map_append, map_name_overriddenBy, List.mem_append, mem_map_name_newOver]
  by_cases hmem : name ∈ base.map Rule.name
  · simp only [hmem, true_or]
  · simp only [hmem, false_or, not_false_eq_true, and_true]

/-- No rule of an overlay comes from elsewhere. -/
theorem mem_of_mem_overlay (h : rule ∈ overlay base above) : rule ∈ base ∨ rule ∈ above := by
  rw [overlay_eq, List.mem_append] at h
  rcases h with hbase | hnew
  · exact mem_of_mem_overriddenBy hbase
  · exact Or.inr (List.mem_filter.mp hnew).1

/-- The upper rule of a name hides the lower one. -/
theorem findLast?_overlay (base above : List Rule) (name : String) :
    findLast? (overlay base above) name = (findLast? above name).or (findLast? base name) := by
  rw [overlay_eq, findLast?_append, findLast?_newOver, findLast?_overriddenBy]
  by_cases hmem : name ∈ base.map Rule.name
  · obtain ⟨rule, hrule⟩ : ∃ rule, findLast? base name = some rule := by
      rw [← Option.ne_none_iff_exists', ne_eq, findLast?_eq_none_iff, not_not]
      exact hmem
    rw [if_pos hmem, hrule, Option.none_or, Option.map_some]
    cases findLast? above name with
    | none => rfl
    | some found => rfl
  · rw [if_neg hmem, findLast?_eq_none_iff.mpr hmem]
    rfl

/-- Rules that differ in their names all stay when they are laid over others. -/
theorem mem_overlay_of_mem (hnodup : (above.map Rule.name).Nodup) (h : rule ∈ above) :
    rule ∈ overlay base above := by
  have hlast : findLast? (overlay base above) rule.name = some rule := by
    rw [findLast?_overlay, findLast?_of_mem hnodup h, Option.some_or]
  exact mem_of_findLast? hlast

end PathVeil.Rule
