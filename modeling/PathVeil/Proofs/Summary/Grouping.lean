import PathVeil.Summary

/-!
# PathVeil.Proofs.Summary.Grouping

What a collector has computed at any moment: the redactions so far, grouped by
rule. `SummaryItem.ofRedactions` says what the item of a rule has to be, in one
go and for one rule at a time; the collector meets the rules in any order, keeps
only the capped samples, and updates one item at each step.

## Proof shape

`Collector.Groups` is the invariant. One redaction preserves it
(`Groups.record`), because the item that is updated takes in exactly the new
redaction (`SummaryItem.record_ofRedactions`) and no other item is about it. By
induction it holds after any sequence of redactions (`groups_recordAll`).
-/

namespace PathVeil

namespace SummaryItem

/-! ### The item of one rule -/

/-- The redactions of one rule. -/
def own (name : String) (redactions : List Redaction) : List Redaction :=
  redactions.filter (·.ruleName == name)

/-- The distinct results of a rule in the order in which they first came up, as
far as samples are kept. -/
def samplesOf (maxSamples : Nat) (name : String) (redactions : List Redaction) : List Path :=
  (((own name redactions).map Redaction.sanitizedPath).eraseDups).take maxSamples

/-- The statistics of one rule over a list of redactions. -/
def ofRedactions (maxSamples : Nat) (name : String) (redactions : List Redaction) :
    SummaryItem where
  ruleName := name
  occurrences := (own name redactions).length
  fullMatches := (own name redactions).countP (·.extent == .full)
  partialMatches := (own name redactions).countP (·.extent == .leading)
  samples := samplesOf maxSamples name redactions

theorem own_append (name : String) (first second : List Redaction) :
    own name (first ++ second) = own name first ++ own name second :=
  List.filter_append ..

theorem own_singleton_self {name : String} {redaction : Redaction} (h : redaction.ruleName = name) :
    own name [redaction] = [redaction] := by
  simp [own, h]

theorem own_singleton_of_ne {name : String} {redaction : Redaction}
    (h : redaction.ruleName ≠ name) : own name [redaction] = [] := by
  simp [own, h]

theorem own_eq_nil_iff {name : String} {redactions : List Redaction} :
    own name redactions = [] ↔ name ∉ redactions.map Redaction.ruleName := by
  simp [own]

/-- A capped list of distinct samples stays one when a result is added. The cap
is never consulted for results that were cut off, and need not be: once it is
reached nothing is added any more. -/
theorem addSample_take_eraseDups (maxSamples : Nat) (paths : List Path) (path : Path) :
    addSample maxSamples (paths.eraseDups.take maxSamples) path =
      (paths ++ [path]).eraseDups.take maxSamples := by
  rw [addSample, List.eraseDups_append]
  by_cases hmem : path ∈ paths
  · have hnone : [path].removeAll paths = [] := by simp [List.removeAll, hmem]
    rw [hnone, List.eraseDups_nil, List.append_nil, if_neg]
    rintro ⟨hroom, hnew⟩
    have hall : paths.eraseDups.take maxSamples = paths.eraseDups := by
      rw [List.length_take] at hroom
      exact List.take_of_length_le (by omega)
    rw [hall, List.mem_eraseDups] at hnew
    exact hnew hmem
  · have hone : ([path].removeAll paths).eraseDups = [path] := by
      simp [List.removeAll, hmem, List.eraseDups_cons]
    have hnew : path ∉ paths.eraseDups.take maxSamples := fun h =>
      hmem (List.mem_eraseDups.mp (List.mem_of_mem_take h))
    rw [hone]
    by_cases hroom : paths.eraseDups.length < maxSamples
    · rw [List.take_of_length_le (Nat.le_of_lt hroom), if_pos]
      · exact (List.take_of_length_le (by simp; omega)).symm
      · exact ⟨hroom, fun h => hmem (List.mem_eraseDups.mp h)⟩
    · rw [if_neg fun h => hroom (by have := h.1; rw [List.length_take] at this; omega),
        List.take_append_of_le_length (Nat.le_of_not_lt hroom)]

/-- Recording one more redaction of the rule. -/
theorem record_ofRedactions (maxSamples : Nat) (redactions : List Redaction)
    (redaction : Redaction) :
    (ofRedactions maxSamples redaction.ruleName redactions).record redaction maxSamples =
      ofRedactions maxSamples redaction.ruleName (redactions ++ [redaction]) := by
  simp only [ofRedactions, record, samplesOf, own_append, own_singleton_self rfl,
    addSample_take_eraseDups, List.length_append, List.countP_append, List.map_append]
  cases h : redaction.extent <;> simp [h]

/-- A redaction of another rule does not concern an item. -/
theorem ofRedactions_append_of_ne (maxSamples : Nat) {name : String} {redaction : Redaction}
    (h : redaction.ruleName ≠ name) (redactions : List Redaction) :
    ofRedactions maxSamples name (redactions ++ [redaction]) =
      ofRedactions maxSamples name redactions := by
  simp only [ofRedactions, samplesOf, own_append, own_singleton_of_ne h, List.append_nil]

/-- A rule without redactions has the item that every rule begins with. -/
theorem ofRedactions_of_not_mem (maxSamples : Nat) {name : String} {redactions : List Redaction}
    (h : name ∉ redactions.map Redaction.ruleName) :
    ofRedactions maxSamples name redactions = { ruleName := name } := by
  simp [ofRedactions, samplesOf, own_eq_nil_iff.mpr h]

@[simp] theorem record_ruleName (item : SummaryItem) (redaction : Redaction) (maxSamples : Nat) :
    (item.record redaction maxSamples).ruleName = item.ruleName := rfl

end SummaryItem

namespace Collector

/-! ### The place of a redaction among the items -/

/-- The item of a rule, or the one that the rule begins with. -/
def itemOf (name : String) (items : List SummaryItem) : SummaryItem :=
  (items.find? (·.ruleName == name)).getD { ruleName := name }

/-- Items in strictly ascending order of their names. -/
def Ascending (items : List SummaryItem) : Prop :=
  items.Pairwise fun first second => first.ruleName < second.ruleName

theorem itemOf_of_lt {name : String} {items : List SummaryItem}
    (h : ∀ item ∈ items, name < item.ruleName) : itemOf name items = { ruleName := name } := by
  have hnone : items.find? (·.ruleName == name) = none := by
    rw [List.find?_eq_none]
    intro item hitem heq
    rw [beq_iff_eq] at heq
    exact String.lt_irrefl name (by simpa [heq] using h item hitem)
  rw [itemOf, hnone]
  rfl

theorem itemOf_cons_self {name : String} {item : SummaryItem} (h : item.ruleName = name)
    (items : List SummaryItem) : itemOf name (item :: items) = item := by
  rw [itemOf, List.find?_cons_of_pos (by simp [h])]
  rfl

theorem itemOf_cons_of_ne {name : String} {item : SummaryItem} (h : item.ruleName ≠ name)
    (items : List SummaryItem) : itemOf name (item :: items) = itemOf name items := by
  rw [itemOf, itemOf, List.find?_cons_of_neg (by simpa using h)]

/-- The names that come behind the first in an ascending list. -/
theorem Ascending.lt_of_mem {item : SummaryItem} {items : List SummaryItem}
    (h : Ascending (item :: items)) : ∀ other ∈ items, item.ruleName < other.ruleName :=
  (List.pairwise_cons.mp h).1

theorem Ascending.nodup {items : List SummaryItem} (h : Ascending items) : items.Nodup := by
  refine List.Pairwise.imp ?_ h
  intro first second hlt heq
  exact String.ne_of_lt hlt (congrArg SummaryItem.ruleName heq)

/-- One redaction updates the item of its rule and leaves every other item. -/
theorem mem_recordIn {maxSamples : Nat} {redaction : Redaction} {items : List SummaryItem}
    (hsorted : Ascending items) {item : SummaryItem} :
    item ∈ recordIn maxSamples redaction items ↔
      (item ∈ items ∧ item.ruleName ≠ redaction.ruleName) ∨
        item = (itemOf redaction.ruleName items).record redaction maxSamples := by
  induction items with
  | nil => simp [recordIn, itemOf]
  | cons head items ih =>
    have htail : Ascending items := (List.pairwise_cons.mp hsorted).2
    have hlater := hsorted.lt_of_mem
    unfold recordIn
    split
    case isTrue hlt =>
      -- The rule is new: it comes in front of all others.
      have hall : ∀ other ∈ head :: items, redaction.ruleName < other.ruleName := by
        intro other hother
        rcases List.mem_cons.mp hother with rfl | hother
        · exact hlt
        · exact String.lt_trans hlt (hlater other hother)
      rw [itemOf_of_lt hall, List.mem_cons]
      constructor
      · rintro (rfl | hitem)
        · exact Or.inr rfl
        · exact Or.inl ⟨hitem, (String.ne_of_lt (hall item hitem)).symm⟩
      · rintro (⟨hitem, -⟩ | rfl)
        · exact Or.inr hitem
        · exact Or.inl rfl
    case isFalse hnlt =>
      split
      case isTrue heq =>
        -- The rule is the first: no later item has its name.
        rw [itemOf_cons_self heq.symm, List.mem_cons]
        constructor
        · rintro (rfl | hitem)
          · exact Or.inr rfl
          · refine Or.inl ⟨List.mem_cons_of_mem _ hitem, ?_⟩
            rw [heq]
            exact (String.ne_of_lt (hlater item hitem)).symm
        · rintro (⟨hitem, hne⟩ | rfl)
          · rcases List.mem_cons.mp hitem with rfl | hitem
            · exact absurd heq.symm hne
            · exact Or.inr hitem
          · exact Or.inl rfl
      case isFalse hne =>
        -- The rule is further on, if anywhere: the first item stays.
        rw [itemOf_cons_of_ne (Ne.symm hne), List.mem_cons, ih htail, List.mem_cons]
        constructor
        · rintro (rfl | ⟨hitem, hother⟩ | hitem)
          · exact Or.inl ⟨Or.inl rfl, Ne.symm hne⟩
          · exact Or.inl ⟨Or.inr hitem, hother⟩
          · exact Or.inr hitem
        · rintro (⟨rfl | hitem, hother⟩ | hitem)
          · exact Or.inl rfl
          · exact Or.inr (Or.inl ⟨hitem, hother⟩)
          · exact Or.inr (Or.inr hitem)

theorem ruleName_of_find? {name : String} {items : List SummaryItem} {item : SummaryItem}
    (h : items.find? (·.ruleName == name) = some item) : item.ruleName = name := by
  simpa using List.find?_some h

@[simp] theorem itemOf_ruleName (name : String) (items : List SummaryItem) :
    (itemOf name items).ruleName = name := by
  rw [itemOf]
  cases hfind : items.find? (·.ruleName == name) with
  | none => rfl
  | some item => exact ruleName_of_find? hfind

/-- The new item has its place in the order. -/
theorem Ascending.recordIn {maxSamples : Nat} {redaction : Redaction} {items : List SummaryItem}
    (hsorted : Ascending items) : Ascending (recordIn maxSamples redaction items) := by
  induction items with
  | nil => exact List.pairwise_singleton ..
  | cons head items ih =>
    obtain ⟨hlater, htail⟩ := List.pairwise_cons.mp hsorted
    unfold Collector.recordIn
    split
    case isTrue hlt =>
      refine List.pairwise_cons.mpr ⟨fun other hother => ?_, hsorted⟩
      rcases List.mem_cons.mp hother with rfl | hother
      · exact hlt
      · exact String.lt_trans hlt (hlater other hother)
    case isFalse hnlt =>
      split
      case isTrue heq => exact List.pairwise_cons.mpr ⟨hlater, htail⟩
      case isFalse hne =>
        refine List.pairwise_cons.mpr ⟨fun other hother => ?_, ih htail⟩
        rcases (mem_recordIn htail).mp hother with ⟨hother, -⟩ | rfl
        · exact hlater other hother
        · rw [SummaryItem.record_ruleName, itemOf_ruleName]
          exact Std.lt_of_le_of_ne (String.not_lt.mp hnlt) (Ne.symm hne)

/-! ### The invariant -/

/-- The items are the statistics of the redactions, one for each rule that has
any, in ascending order. -/
structure Groups (maxSamples : Nat) (redactions : List Redaction) (items : List SummaryItem) :
    Prop where
  ascending : Ascending items
  mem_names : ∀ name, name ∈ items.map SummaryItem.ruleName ↔
    name ∈ redactions.map Redaction.ruleName
  item_eq : ∀ item ∈ items, item = .ofRedactions maxSamples item.ruleName redactions

namespace Groups

variable {maxSamples : Nat} {redactions : List Redaction} {items : List SummaryItem}

theorem nil (maxSamples : Nat) : Groups maxSamples [] [] where
  ascending := List.Pairwise.nil
  mem_names _ := Iff.rfl
  item_eq _ h := nomatch h

/-- The item of a rule is the statistics of the rule, whether there are any
redactions of it yet or not. -/
theorem itemOf_eq (h : Groups maxSamples redactions items) (name : String) :
    itemOf name items = .ofRedactions maxSamples name redactions := by
  cases hfind : items.find? (·.ruleName == name) with
  | none =>
    have hnot : name ∉ redactions.map Redaction.ruleName := by
      rw [← h.mem_names]
      simpa using hfind
    rw [itemOf, hfind, SummaryItem.ofRedactions_of_not_mem maxSamples hnot]
    rfl
  | some item =>
    rw [itemOf, hfind, Option.getD_some, h.item_eq item (List.mem_of_find?_eq_some hfind),
      ruleName_of_find? hfind]

/-- One redaction preserves the grouping. -/
theorem record (h : Groups maxSamples redactions items) (redaction : Redaction) :
    Groups maxSamples (redactions ++ [redaction]) (recordIn maxSamples redaction items) where
  ascending := h.ascending.recordIn
  mem_names name := by
    rw [List.map_append, List.mem_append, ← h.mem_names]
    constructor
    · intro hname
      obtain ⟨item, hitem, rfl⟩ := List.mem_map.mp hname
      rcases (mem_recordIn h.ascending).mp hitem with ⟨hitem, -⟩ | rfl
      · exact Or.inl (List.mem_map_of_mem hitem)
      · exact Or.inr (by simp)
    · intro hname
      by_cases hself : name = redaction.ruleName
      · subst hself
        have hmem : (itemOf redaction.ruleName items).record redaction maxSamples ∈
            recordIn maxSamples redaction items := (mem_recordIn h.ascending).mpr (Or.inr rfl)
        simpa using List.mem_map_of_mem (f := SummaryItem.ruleName) hmem
      · have hold := hname.resolve_right (by simpa using hself)
        obtain ⟨item, hitem, rfl⟩ := List.mem_map.mp hold
        exact List.mem_map_of_mem ((mem_recordIn h.ascending).mpr (Or.inl ⟨hitem, hself⟩))
  item_eq item hitem := by
    rcases (mem_recordIn h.ascending).mp hitem with ⟨hitem, hother⟩ | rfl
    · rw [SummaryItem.ofRedactions_append_of_ne maxSamples (Ne.symm hother)]
      exact h.item_eq item hitem
    · rw [h.itemOf_eq, SummaryItem.record_ofRedactions]
      rfl

/-- So does any sequence of them. -/
theorem recordAll {collector : Collector}
    (h : Groups collector.maxSamples redactions collector.items) (more : List Redaction) :
    Groups collector.maxSamples (redactions ++ more) (collector.recordAll more).items := by
  induction more generalizing collector redactions with
  | nil => simpa using h
  | cons redaction more ih =>
    have hnext : Groups (collector.record redaction).maxSamples (redactions ++ [redaction] ++ more)
        ((collector.record redaction).recordAll more).items := ih (h.record redaction)
    rw [List.append_assoc] at hnext
    exact hnext

/-- An item is found wherever the same rules occur with the same statistics. -/
theorem mem_of_mem {others : List Redaction} {items' : List SummaryItem}
    (h : Groups maxSamples redactions items) (h' : Groups maxSamples others items')
    (hnames : ∀ name, name ∈ redactions.map Redaction.ruleName ↔
      name ∈ others.map Redaction.ruleName)
    (hitems : ∀ name, SummaryItem.ofRedactions maxSamples name redactions =
      .ofRedactions maxSamples name others) {item : SummaryItem} (hitem : item ∈ items) :
    item ∈ items' := by
  have hname := (h.mem_names item.ruleName).mp (List.mem_map_of_mem hitem)
  rw [hnames, ← h'.mem_names] at hname
  obtain ⟨item', hitem', heq⟩ := List.mem_map.mp hname
  rw [h.item_eq item hitem, hitems, ← heq, ← h'.item_eq item' hitem']
  exact hitem'

/-- Items are determined by the rules that occur and the statistics of each. -/
theorem unique {others : List Redaction} {items' : List SummaryItem}
    (h : Groups maxSamples redactions items) (h' : Groups maxSamples others items')
    (hnames : ∀ name, name ∈ redactions.map Redaction.ruleName ↔
      name ∈ others.map Redaction.ruleName)
    (hitems : ∀ name, SummaryItem.ofRedactions maxSamples name redactions =
      .ofRedactions maxSamples name others) : items = items' := by
  have hperm : items.Perm items' := by
    rw [List.perm_ext_iff_of_nodup h.ascending.nodup h'.ascending.nodup]
    intro item
    exact ⟨h.mem_of_mem h' hnames hitems,
      h'.mem_of_mem h (fun name => (hnames name).symm) fun name => (hitems name).symm⟩
  refine List.Perm.eq_of_pairwise ?_ h.ascending h'.ascending hperm
  intro first second _ _ hlt hgt
  exact absurd hgt (String.lt_asymm hlt)

end Groups

/-- **The collector groups by rule.** After any sequence of redactions, the items
are the statistics of the sequence. -/
theorem groups_recordAll (maxSamples : Nat) (redactions : List Redaction) :
    Groups maxSamples redactions (recordAll { maxSamples } redactions).items :=
  @Groups.recordAll [] { maxSamples } (Groups.nil maxSamples) redactions

end Collector

end PathVeil
