import PathVeil.Proofs.Engine.Trace
import PathVeil.Proofs.Rule.Compilation
import PathVeil.Proofs.Stream.Batch
import PathVeil.Proofs.Summary.Statistics

/-!
# PathVeil.Proofs.Stream.Totals

The numbers in the report of a stream fit together. They are taken on different
occasions: a line with redactions is counted once, and each of its redactions is
counted for its rule. Both can be read off the redactions line by line
(`Stream.redactions`): the report groups all of them (`groups_filter`), and counts
the lines that have some (`redactedPaths_filter`).

What ties the two together is that a rule has one redaction on a line at most. So
if the rules have different names, the occurrences of a rule are the lines on
which it has changed something (`occurrences_eq_countP`), and there are no more of
these than there are redacted lines. Two rules with one name share an item, and
this fails.
-/

namespace PathVeil

namespace Stream

/-! ### Redactions line by line -/

/-- The redactions of a stream, with a list for each line. -/
def redactions (engine : Engine) (sourceId : String) (input : List UInt8) :
    List (List Redaction) :=
  (paths input).map fun path => (engine.sanitize path sourceId).2

section LineByLine

variable (engine : Engine) (reveal : Bool) (sourceId : String) (input : List UInt8)

/-- The items of the report are the statistics of all redactions. -/
theorem groups_filter :
    Collector.Groups defaultMaxSamples (redactions engine sourceId input).flatten
      (filter engine reveal sourceId input).report.rules := by
  have h := accounts_filterFrom engine reveal sourceId input
  rw [filter, Progress.result, h.collector, redactions, paths, List.map_map, ← List.flatMap_def]
  exact Collector.groups_recordAll defaultMaxSamples _

/-- The report counts the lines with redactions. -/
theorem redactedPaths_filter :
    (filter engine reveal sourceId input).report.redactedPaths =
      (redactions engine sourceId input).countP fun onLine => !onLine.isEmpty := by
  have h := accounts_filterFrom engine reveal sourceId input
  rw [filter, Progress.result, h.redactedPaths, redactions, paths, List.map_map, List.countP_map]
  rfl

variable {engine sourceId input}

/-- The names on the redactions of one line are those of the rules at work there. -/
theorem ruleNames_sublist_of_mem_redactions {onLine : List Redaction}
    (h : onLine ∈ redactions engine sourceId input) :
    (onLine.map Redaction.ruleName).Sublist (engine.rules.map CompiledRule.name) := by
  obtain ⟨path, -, rfl⟩ := List.mem_map.mp h
  exact (engine.trace_sanitize path sourceId).ruleNames_sublist

end LineByLine

/-! ### Lists of lists -/

section Rounds

variable {α : Type}

theorem countP_not_isEmpty_le_length_flatten (rounds : List (List α)) :
    rounds.countP (fun round => !round.isEmpty) ≤ rounds.flatten.length := by
  induction rounds with
  | nil => exact Nat.le_refl 0
  | cons round rounds ih =>
    have hround : (if (!round.isEmpty) = true then 1 else 0) ≤ round.length := by
      cases round with
      | nil => exact Nat.le_refl 0
      | cons a round => exact Nat.le_add_left 1 round.length
    rw [List.countP_cons, List.flatten_cons, List.length_append, Nat.add_comm]
    exact Nat.add_le_add hround ih

/-- If nothing comes up twice in a round, it comes up as often as there are rounds
with it. -/
theorem count_flatten_eq_countP [DecidableEq α] {rounds : List (List α)}
    (h : ∀ round ∈ rounds, round.Nodup) (a : α) :
    rounds.flatten.count a = rounds.countP (a ∈ ·) := by
  induction rounds with
  | nil => rfl
  | cons round rounds ih =>
    rw [List.forall_mem_cons] at h
    rw [List.flatten_cons, List.count_append, ih h.2, h.1.count, List.countP_cons, Nat.add_comm]
    simp only [decide_eq_true_eq]

end Rounds

/-! ### The items of a report -/

section Items

variable {engine : Engine} {reveal : Bool} {sourceId : String} {input : List UInt8}
  {item : SummaryItem}

theorem ruleName_mem_of_mem_report
    (hitem : item ∈ (filter engine reveal sourceId input).report.rules) :
    item.ruleName ∈ engine.rules.map CompiledRule.name := by
  have hname := ((groups_filter engine reveal sourceId input).mem_names item.ruleName).mp
    (List.mem_map_of_mem hitem)
  rw [List.map_flatten, List.mem_flatten] at hname
  obtain ⟨names, hnames, hmem⟩ := hname
  obtain ⟨onLine, honLine, rfl⟩ := List.mem_map.mp hnames
  exact (ruleNames_sublist_of_mem_redactions honLine).subset hmem

/-- Where names are different, a rule occurs once on each line that it has changed. -/
theorem occurrences_eq_countP (hnames : (engine.rules.map CompiledRule.name).Nodup)
    (hitem : item ∈ (filter engine reveal sourceId input).report.rules) :
    item.occurrences = (redactions engine sourceId input).countP fun onLine =>
      item.ruleName ∈ onLine.map Redaction.ruleName := by
  have hrounds : ∀ names ∈ (redactions engine sourceId input).map (List.map Redaction.ruleName),
      names.Nodup := by
    rw [List.forall_mem_map]
    exact fun onLine hmem => (ruleNames_sublist_of_mem_redactions hmem).nodup hnames
  rw [(groups_filter engine reveal sourceId input).occurrences_eq_count hitem, List.map_flatten,
    count_flatten_eq_countP hrounds, List.countP_map]
  rfl

theorem occurrences_le_redactedPaths (hnames : (engine.rules.map CompiledRule.name).Nodup)
    (hitem : item ∈ (filter engine reveal sourceId input).report.rules) :
    item.occurrences ≤ (filter engine reveal sourceId input).report.redactedPaths := by
  rw [occurrences_eq_countP hnames hitem, redactedPaths_filter]
  refine List.countP_mono_left fun onLine _ hmem => ?_
  cases onLine with
  | nil => simp at hmem
  | cons redaction others => rfl

end Items

/-! ### The main result -/

/-- **The numbers of a report are consistent.** Let the rules of an engine have
different names. Then every item of the report of a stream is about one of them.
It has occurrences, each of them full or partial, and no more than there are
redacted paths. There are no more redacted paths than paths, and no more than
occurrences altogether. There are no items exactly if no path was redacted. -/
theorem report_totals {engine : Engine} (hnames : (engine.rules.map CompiledRule.name).Nodup)
    (reveal : Bool) (sourceId : String) (input : List UInt8) :
    let report := (filter engine reveal sourceId input).report
    (∀ item ∈ report.rules,
      item.ruleName ∈ engine.rules.map CompiledRule.name ∧
      1 ≤ item.occurrences ∧
      item.occurrences = item.fullMatches + item.partialMatches ∧
      item.occurrences ≤ report.redactedPaths) ∧
    report.redactedPaths ≤ report.totalPaths ∧
    report.redactedPaths ≤ (report.rules.map SummaryItem.occurrences).sum ∧
    (report.rules = [] ↔ report.redactedPaths = 0) := by
  intro report
  have hgroups : Collector.Groups defaultMaxSamples (redactions engine sourceId input).flatten
      report.rules := groups_filter engine reveal sourceId input
  have hredacted : report.redactedPaths =
      (redactions engine sourceId input).countP fun onLine => !onLine.isEmpty :=
    redactedPaths_filter engine reveal sourceId input
  have htotal : report.totalPaths = (redactions engine sourceId input).length := by
    rw [redactions, List.length_map, length_paths]
    exact totalPaths_filter engine reveal sourceId input
  refine ⟨fun item hitem => ?_, ?_, ?_, ?_⟩
  · exact ⟨ruleName_mem_of_mem_report hitem, hgroups.one_le_occurrences hitem,
      hgroups.occurrences_eq_add hitem, occurrences_le_redactedPaths hnames hitem⟩
  · rw [hredacted, htotal]
    exact List.countP_le_length
  · rw [hredacted, hgroups.sum_occurrences]
    exact countP_not_isEmpty_le_length_flatten _
  · rw [hgroups.eq_nil_iff, hredacted, List.flatten_eq_nil_iff, List.countP_eq_zero]
    simp

/-- Two rules at work on one line, one of them on another, none on the third. -/
theorem report_totals_homes :
    let config := [Rule.ofPattern "home" "/home/{user}/mail" "U",
      Rule.ofPattern "mail" "/home/U/mail/{box}" "B"]
    let engine : Engine := ⟨config.filterMap Rule.compiled?, config⟩
    let input := Utf8.encode "/home/me/mail/x\n/var\n/home/me\n".toList
    let report := (filter engine false "" input).report
    (engine.rules.map CompiledRule.name).Nodup ∧
      (∀ item ∈ report.rules, item.occurrences ≤ report.redactedPaths) ∧
      report.redactedPaths ≤ (report.rules.map SummaryItem.occurrences).sum ∧
      report.totalPaths = 3 ∧ report.redactedPaths = 2 ∧
      report.rules.map SummaryItem.occurrences = [2, 1] := by
  intro config engine input report
  have hnames : (engine.rules.map CompiledRule.name).Nodup := by decide
  obtain ⟨hitems, -, hsum, -⟩ := report_totals hnames false "" input
  exact ⟨hnames, fun item hitem => (hitems item hitem).2.2.2, hsum, by decide⟩

/-- Two rules of one name, both at work on the only line. -/
example :
    let engine : Engine := ⟨[⟨"x", .compile ['U'] "/a/{x}/b".toList⟩,
      ⟨"x", .compile ['V'] "/a/U/b/{x}".toList⟩], []⟩
    let report := (filter engine false "" (Utf8.encode "/a/1/b/2".toList)).report
    report.redactedPaths = 1 ∧ report.rules.map SummaryItem.occurrences = [2] := by
  decide

end Stream

end PathVeil
