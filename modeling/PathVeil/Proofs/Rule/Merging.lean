import PathVeil.Proofs.Rule.Overlay

/-!
# PathVeil.Proofs.Rule.Merging

The laws of merging. Merges may be grouped at will, nothing merged is nothing
changed, and rules that are merged twice are merged once. A look-up in a merge
finds the user's rule of a name before the default one, and finds it in the place
that its name has.

## Proof shape

An overlay is a base with what overrides it, and then the new rules
(`overlay_eq`). So grouping is one law for each part: overriding twice is
overriding by an overlay (`overriddenBy_overriddenBy`), because the base depends
only on the last rule of each name above; and what is new over an overlay is new
over each layer (`newOver_overlay`). Merging twice is then a matter of rules over
themselves (`overlay_self`).

Look-ups take the first rule of a name and overlays the last; where no name is
repeated the two are the same.
-/

namespace PathVeil.Rule

variable {rules base middle above : List Rule} {rule : Rule} {name : String}

/-! ### Grouping -/

/-- Overriding twice is overriding once, by one overlay of the other. -/
theorem overriddenBy_overriddenBy (above middle base : List Rule) :
    overriddenBy above (overriddenBy middle base) = overriddenBy (overlay middle above) base := by
  induction base with
  | nil => rfl
  | cons rule base ih =>
    rw [overriddenBy, overriddenBy, overriddenBy, ih, name_override, map_name_overriddenBy,
      findLast?_overlay]
    congr 1
    split
    case isTrue => rfl
    case isFalse =>
      cases findLast? above rule.name with
      | none => rfl
      | some found => rfl

/-- New over an overlay is new over each of its layers. -/
theorem newOver_overlay (base middle above : List Rule) :
    newOver (overlay base middle) above = newOver base (newOver middle above) := by
  rw [newOver, newOver, newOver, List.filter_filter]
  refine List.filter_congr fun rule _ => ?_
  rw [Bool.eq_iff_iff, Bool.and_eq_true]
  simp only [decide_eq_true_iff, mem_map_name_overlay, not_or]

theorem overlay_overlay (base middle above : List Rule) :
    overlay (overlay base middle) above = overlay base (overlay middle above) := by
  -- The two parts of the lower overlay share no name, so each is overridden by itself.
  have hapart : ∀ name ∈ (overriddenBy middle base).map Rule.name,
      name ∉ (newOver base middle).map Rule.name := by
    intro name hbase hnew
    rw [map_name_overriddenBy] at hbase
    exact (mem_map_name_newOver.mp hnew).2 hbase
  calc overlay (overlay base middle) above
      = overriddenBy above (overriddenBy middle base ++ newOver base middle) ++
          newOver (overlay base middle) above := by
        rw [overlay_eq (overlay base middle), overlay_eq base middle]
    _ = overriddenBy (overlay middle above) base ++ newOver base (overriddenBy above middle) ++
          newOver base (newOver middle above) := by
        rw [overriddenBy_append hapart, overriddenBy_overriddenBy, overriddenBy_newOver,
          newOver_overlay]
    _ = overlay base (overlay middle above) := by
        rw [overlay_eq base, overlay_eq middle, newOver_append, List.append_assoc]

/-- Rules that are laid over themselves stay what they are, whatever else comes
before them above. -/
theorem overriddenBy_append_self (before base : List Rule) :
    overriddenBy (before ++ base) base = base := by
  induction base generalizing before with
  | nil => rfl
  | cons rule base ih =>
    -- The first rule joins those before, and the others are over themselves again.
    have htail : overriddenBy (before ++ rule :: base) base = base := by
      simpa using ih (before ++ [rule])
    rw [overriddenBy, htail]
    split
    case isTrue => rfl
    case isFalse hlast =>
      rw [findLast?_append, findLast?_cons, findLast?_eq_none_iff.mpr hlast, if_pos rfl]
      rfl

theorem overlay_self (rules : List Rule) : overlay rules rules = rules := by
  have hnew : newOver rules rules = [] := by
    rw [newOver, List.filter_eq_nil_iff]
    intro rule hmem
    simpa using List.mem_map_of_mem (f := Rule.name) hmem
  have hplaces : overriddenBy rules rules = rules := overriddenBy_append_self [] rules
  rw [overlay_eq, hplaces, hnew, List.append_nil]

@[simp] theorem overlay_nil_left (above : List Rule) : overlay [] above = above := by
  rw [overlay_eq, overriddenBy, List.nil_append, newOver, List.filter_eq_self]
  exact fun _ _ => rfl

/-- **Merging is grouped at will, and repeated without effect.** Rules that are
merged into a merge are merged into its upper layer; no rules, above or below, and
no rule file leave everything as it was; and what has been merged already changes
nothing when it is merged again. This holds for all lists of rules, in their order
and whatever names they repeat. -/
theorem merge_assoc_unit_idempotent (base middle above : List Rule) :
    merge (merge base (some middle)) (some above) =
        merge base (some (merge middle (some above))) ∧
      merge base (some []) = base ∧ merge base none = base ∧ merge [] (some above) = above ∧
      merge (merge base (some above)) (some above) = merge base (some above) := by
  refine ⟨overlay_overlay base middle above, overlay_nil base, rfl, overlay_nil_left above, ?_⟩
  calc overlay (overlay base above) above
      = overlay base (overlay above above) := overlay_overlay base above above
    _ = overlay base above := by rw [overlay_self]

/-! ### Precedence -/

theorem lookup_eq_ok_iff : lookup rules name = .ok rule ↔ find? rules name = some rule := by
  rw [lookup]
  cases find? rules name with
  | none => simp
  | some found => simp

theorem lookup_eq_error_iff {fault : Fault} :
    lookup rules name = .error fault ↔
      name ∉ rules.map Rule.name ∧ fault = .ruleNotFound name := by
  have hnone : find? rules name = none ↔ name ∉ rules.map Rule.name := by
    rw [find?, List.find?_eq_none]
    simp
  rw [lookup, ← hnone]
  cases find? rules name with
  | none => simp [eq_comm]
  | some found => simp

/-- What is found by a name stands in the first place of it. -/
theorem lookup_eq_ok_iff_idxOf? :
    lookup rules name = .ok rule ↔
      ∃ index, (rules.map Rule.name).idxOf? name = some index ∧ rules[index]? = some rule := by
  rw [lookup_eq_ok_iff, find?, List.find?_eq_bind_findIdx?_getElem?, Option.bind_eq_some_iff,
    List.idxOf?, List.findIdx?_map]
  rfl

/-- **The user's rule comes before the default one.** In a merge of rules without
repeated names, a look-up finds the user's rule of that name, with all it says; if
there is none, the default rule; and if there is none either, it says that the rule
was not found. What is found stands in the place that the name has among the
default names and, behind them, the user's new names in their order. -/
theorem lookup_merge_precedence (defaults user : List Rule) (name : String)
    (hdefaults : (defaults.map Rule.name).Nodup) (huser : (user.map Rule.name).Nodup) :
    let merged := merge defaults (some user)
    let names := defaults.map Rule.name ++
      (user.map Rule.name).filter (· ∉ defaults.map Rule.name)
    (∀ rule, lookup merged name = .ok rule ↔
      (rule ∈ user ∧ rule.name = name) ∨
        (rule ∈ defaults ∧ rule.name = name ∧ name ∉ user.map Rule.name)) ∧
    (∀ fault, lookup merged name = .error fault ↔
      fault = .ruleNotFound name ∧
        name ∉ user.map Rule.name ∧ name ∉ defaults.map Rule.name) ∧
    ∀ rule, lookup merged name = .ok rule ↔
      ∃ index, names.idxOf? name = some index ∧ merged[index]? = some rule := by
  intro merged names
  have hnames : merged.map Rule.name = names := map_name_overlay defaults user
  have hnodup : (merged.map Rule.name).Nodup := nodup_map_name_overlay hdefaults huser
  have hlast : findLast? merged name = (findLast? user name).or (findLast? defaults name) :=
    findLast?_overlay defaults user name
  refine ⟨fun rule => ?_, fun fault => ?_, fun rule => ?_⟩
  · rw [lookup_eq_ok_iff, ← findLast?_eq_find? hnodup, hlast, Option.or_eq_some_iff,
      findLast?_eq_some_iff huser, findLast?_eq_none_iff, findLast?_eq_some_iff hdefaults]
    exact or_congr_right ⟨fun ⟨hnew, hmem, hname⟩ => ⟨hmem, hname, hnew⟩,
      fun ⟨hmem, hname, hnew⟩ => ⟨hnew, hmem, hname⟩⟩
  · rw [lookup_eq_error_iff, ← findLast?_eq_none_iff, hlast, Option.or_eq_none_iff,
      findLast?_eq_none_iff, findLast?_eq_none_iff, and_comm]
  · rw [lookup_eq_ok_iff_idxOf?, hnames]

/-- A user's rule in the place of a default one, one with a new name before it in
the file, and a name that nobody has. -/
theorem lookup_merge_precedence_overridden :
    let defaults := [Rule.ofPattern "token" "/t/\x7bx\x7d" "XXX",
      Rule.ofPattern "code" "/c/\x7bx\x7d" "XXX"]
    let code : Rule := { name := "code", description := some "own", optIn := true, tags := some [] }
    let user := [Rule.ofPattern "own" "/own" "XXX", code]
    let merged := merge defaults (some user)
    (defaults.map Rule.name).Nodup ∧ (user.map Rule.name).Nodup ∧
      lookup merged "code" = .ok code ∧ merged[1]? = some code ∧
      lookup merged "none" = .error (.ruleNotFound "none") := by
  intro defaults code user merged
  have hdefaults : (defaults.map Rule.name).Nodup := by decide
  have huser : (user.map Rule.name).Nodup := by decide
  have hcode := lookup_merge_precedence defaults user "code" hdefaults huser
  have hnone := lookup_merge_precedence defaults user "none" hdefaults huser
  have hfound : lookup merged "code" = .ok code := (hcode.1 code).mpr (Or.inl (by decide))
  obtain ⟨index, hindex, hplace⟩ := (hcode.2.2 code).mp hfound
  have hone : index = 1 := (Option.some.inj hindex).symm
  exact ⟨hdefaults, huser, hfound, hone ▸ hplace, (hnone.2.1 _).mpr (by decide)⟩

end PathVeil.Rule
