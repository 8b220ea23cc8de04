import Mathlib.Data.List.Basic
import PathVeil.Proofs.Engine.Run
import PathVeil.Stream

/-!
# PathVeil.Proofs.Stream.Batch

A stream is filtered as if all its lines were there at once: what is written is
every path filtered by itself, and the report is that of the batch. The loop
meets the bytes one by one, with a buffer, a line counter and a collector that
sits out the lines without a change.

## Proof shape

`filterFrom_eq_foldl` takes the buffer away: what the loop does to the bytes is
one `Progress.takeLine` for each line. `Progress.Accounts` is the invariant of
these rounds; it says field by field what has become of the lines so far, and
`Accounts.takeLine` carries it over one line. What is said about a line shows its
number (`invalidLineWarning_injective`), so the warnings can be taken for the lines.
-/

namespace PathVeil

/-! ### Statistics -/

namespace Collector

/-- Where a path was read does not enter the statistics. -/
theorem recordIn_redaction (maxSamples : Nat) (change : Change) (first second : String)
    (items : List SummaryItem) :
    recordIn maxSamples (change.redaction first) items =
      recordIn maxSamples (change.redaction second) items := by
  induction items with
  | nil => rfl
  | cons item items ih =>
    rw [recordIn, recordIn, ih]
    rfl

theorem recordAll_redaction (collector : Collector) (changes : List Change)
    (first second : String) :
    collector.recordAll (changes.map (·.redaction first)) =
      collector.recordAll (changes.map (·.redaction second)) := by
  have hrecord (collector : Collector) (change : Change) :
      collector.record (change.redaction first) = collector.record (change.redaction second) := by
    rw [record, record, recordIn_redaction collector.maxSamples change first second]
  rw [recordAll, recordAll, List.foldl_map, List.foldl_map]
  simp only [hrecord]

end Collector

namespace Engine

/-- The statistics of a batch, from the redactions of all its paths in a row. -/
theorem stats_eq (engine : Engine) (paths : List Path) (sourceId : String) :
    engine.stats paths =
      (Collector.recordAll {} (paths.flatMap fun path => (engine.sanitize path sourceId).2)).items := by
  have hrecord (collector : Collector) (path : Path) :
      collector.recordAll (engine.sanitize path "").2 =
        collector.recordAll (engine.sanitize path sourceId).2 := by
    rw [sanitize_eq, sanitize_eq]
    exact collector.recordAll_redaction (engine.changes path) "" sourceId
  rw [stats, Collector.recordAll, List.foldl_flatMap]
  simp only [hrecord]
  rfl

/-- All that is said while a path is sanitized is for debugging. -/
theorem level_of_mem_sanitizeLog {engine : Engine} {reveal : Bool} {path : Path}
    {record : Log.Record} (h : record ∈ engine.sanitizeLog reveal path) :
    record.level = .debug := by
  rw [sanitizeLog, apply_eq, List.foldl_append_eq_append, List.nil_append, ← List.flatMap_def,
    ← List.map_eq_flatMap] at h
  obtain ⟨change, -, rfl⟩ := List.mem_map.mp h
  rfl

end Engine

namespace Stream

/-! ### Lines -/

theorem lines_append_lineFeed {body : List UInt8} (h : 10 ∉ body) (rest : List UInt8) :
    lines (body ++ 10 :: rest) = (body ++ [10]) :: lines rest := by
  induction body with
  | nil => simp [lines]
  | cons b body ih =>
    have hb : b ≠ 10 := (List.ne_of_not_mem_cons h).symm
    rw [List.cons_append, lines, if_neg hb, ih (List.not_mem_of_not_mem_cons h)]
    rfl

theorem lines_of_not_mem {body : List UInt8} (h : 10 ∉ body) (hne : body ≠ []) :
    lines body = [body] := by
  induction body with
  | nil => exact absurd rfl hne
  | cons b body ih =>
    have hb : b ≠ 10 := (List.ne_of_not_mem_cons h).symm
    rw [lines, if_neg hb]
    cases body with
    | nil => rfl
    | cons c body => rw [ih (List.not_mem_of_not_mem_cons h) (List.cons_ne_nil c body)]

/-! ### One line -/

section TakeLine

variable (engine : Engine) (reveal : Bool) (sourceId : String)

namespace Progress

variable (progress : Progress) (line : List UInt8)

/-- What one more line adds. To leave the collector alone and to record nothing
comes to the same. -/
theorem takeLine_eq :
    progress.takeLine engine reveal sourceId line =
      { lineNumber := progress.lineNumber + 1
        written := writeLine (engine.filter (path line)) :: progress.written
        totalPaths := progress.totalPaths + 1
        redactedPaths := progress.redactedPaths +
          if (engine.sanitize (path line) sourceId).2.isEmpty then 0 else 1
        collector := progress.collector.recordAll (engine.sanitize (path line) sourceId).2
        logged := lineLog engine reveal sourceId line (progress.lineNumber + 1) ::
          progress.logged } := by
  have hfilter : (engine.sanitize (path line) sourceId).1 = engine.filter (path line) := by
    rw [engine.sanitize_eq]
  rw [takeLine, ← hfilter]
  rcases engine.sanitize (path line) sourceId with ⟨sanitized, redactions⟩
  by_cases hempty : redactions.isEmpty
  · simp only [hempty, if_true, Nat.add_zero]
    rw [List.isEmpty_iff.mp hempty, Collector.recordAll_nil]
  · simp only [hempty, Bool.false_eq_true, if_false]

/-- What has become of the lines so far. -/
structure Accounts (seen : List (List UInt8)) (progress : Progress) : Prop where
  lineNumber : progress.lineNumber = seen.length
  written : progress.written =
    (seen.map fun line => writeLine (engine.filter (path line))).reverse
  totalPaths : progress.totalPaths = seen.length
  redactedPaths : progress.redactedPaths =
    seen.countP fun line => !(engine.sanitize (path line) sourceId).2.isEmpty
  collector : progress.collector =
    Collector.recordAll {} (seen.flatMap fun line => (engine.sanitize (path line) sourceId).2)
  logged : progress.logged =
    ((seen.zipIdx 1).map fun (line, number) => lineLog engine reveal sourceId line number).reverse

variable {engine reveal sourceId progress}

theorem Accounts.nil : Accounts engine reveal sourceId [] {} where
  lineNumber := rfl
  written := rfl
  totalPaths := rfl
  redactedPaths := rfl
  collector := rfl
  logged := rfl

theorem Accounts.takeLine {seen : List (List UInt8)}
    (h : Accounts engine reveal sourceId seen progress) (line : List UInt8) :
    Accounts engine reveal sourceId (seen ++ [line])
      (progress.takeLine engine reveal sourceId line) where
  lineNumber := by simp [takeLine_eq, h.lineNumber]
  written := by simp [takeLine_eq, h.written]
  totalPaths := by simp [takeLine_eq, h.totalPaths]
  redactedPaths := by
    rw [takeLine_eq, h.redactedPaths, List.countP_append, List.countP_singleton]
    cases (engine.sanitize (path line) sourceId).2.isEmpty <;> rfl
  collector := by
    rw [takeLine_eq, h.collector, List.flatMap_append, List.flatMap_singleton,
      Collector.recordAll_append]
  logged := by
    -- The counter is at the number of the line, one more than there were before it.
    simp [takeLine_eq, h.logged, h.lineNumber, List.zipIdx_append, Nat.add_comm]

/-- Any number of lines. -/
theorem Accounts.foldl_takeLine {seen : List (List UInt8)}
    (h : Accounts engine reveal sourceId seen progress) (more : List (List UInt8)) :
    Accounts engine reveal sourceId (seen ++ more)
      (more.foldl (Progress.takeLine engine reveal sourceId) progress) := by
  induction more generalizing seen progress with
  | nil => simpa using h
  | cons line more ih =>
    have hrest := ih (h.takeLine line)
    rwa [List.append_assoc] at hrest

end Progress

/-! ### The loop -/

/-- With the beginning of a line in the buffer, the loop takes in this line as a
whole, and then the others. -/
theorem filterFrom_eq_foldl (progress : Progress) {buffer : List UInt8} (h : 10 ∉ buffer)
    (bytes : List UInt8) :
    filterFrom engine reveal sourceId progress buffer bytes =
      (lines (buffer.reverse ++ bytes)).foldl (Progress.takeLine engine reveal sourceId)
        progress := by
  induction bytes generalizing progress buffer with
  | nil =>
    rw [filterFrom, List.append_nil]
    cases buffer with
    | nil => rfl
    | cons b buffer =>
      have hline : 10 ∉ (b :: buffer).reverse := fun hmem => h (List.mem_reverse.mp hmem)
      rw [lines_of_not_mem hline (by simp)]
      rfl
  | cons b bytes ih =>
    rw [filterFrom]
    by_cases hb : b = 10
    · subst hb
      have hline : 10 ∉ buffer.reverse := fun hmem => h (List.mem_reverse.mp hmem)
      rw [if_pos rfl, ih _ List.not_mem_nil, lines_append_lineFeed hline]
      simp
    · have hbuffer : 10 ∉ b :: buffer := List.not_mem_cons_of_ne_of_not_mem (Ne.symm hb) h
      rw [if_neg hb, ih progress hbuffer]
      simp

theorem accounts_filterFrom (input : List UInt8) :
    Progress.Accounts engine reveal sourceId (lines input)
      (filterFrom engine reveal sourceId {} [] input) := by
  rw [filterFrom_eq_foldl engine reveal sourceId {} List.not_mem_nil]
  exact Progress.Accounts.nil.foldl_takeLine (lines input)

theorem lines_eq_nil_iff {input : List UInt8} : lines input = [] ↔ input = [] := by
  constructor
  · intro h
    rw [← flatten_lines input, h, List.flatten_nil]
  · rintro rfl
    rfl

theorem totalPaths_filter (input : List UInt8) :
    (filter engine reveal sourceId input).report.totalPaths = (lines input).length :=
  (accounts_filterFrom engine reveal sourceId input).totalPaths

theorem output_filter (input : List UInt8) :
    (filter engine reveal sourceId input).output =
      (paths input).flatMap fun path => writeLine (engine.filter path) := by
  have h := accounts_filterFrom engine reveal sourceId input
  rw [filter, Progress.result, h.written, List.reverse_reverse, paths, List.flatMap_map,
    List.flatMap_def]

/-- Every line of the input leaves something in the output, if only a line feed. -/
theorem output_filter_eq_nil_iff {input : List UInt8} :
    (filter engine reveal sourceId input).output = [] ↔ input = [] := by
  rw [output_filter, List.flatMap_eq_nil_iff, paths, List.forall_mem_map, ← lines_eq_nil_iff,
    List.eq_nil_iff_forall_not_mem]
  constructor
  · intro hall line hline
    exact List.append_ne_nil_of_right_ne_nil _ (List.cons_ne_nil _ _) (hall line hline)
  · intro hnone line hline
    exact absurd hline (hnone line)

/-! ### Warnings -/

theorem warnings_lineLog (line : List UInt8) (number : Nat) :
    (lineLog engine reveal sourceId line number).filter (·.level = .warn) =
      if Utf8.isValid (trimEnding line) then [] else [invalidLineWarning sourceId number] := by
  have hdebug : (engine.sanitizeLog reveal (path line)).filter (·.level = .warn) = [] := by
    rw [List.filter_eq_nil_iff]
    intro record hrecord
    simp [Engine.level_of_mem_sanitizeLog hrecord]
  rw [lineLog, List.filter_append, hdebug, List.append_nil]
  split <;> rfl

/-- The lines that are not UTF-8 are warned about, in order, and nothing else is. -/
theorem warnings_flatMap_lineLog (input : List UInt8) :
    (((lines input).zipIdx 1).flatMap fun (line, number) =>
        lineLog engine reveal sourceId line number).filter (·.level = .warn) =
      (invalidLines input).map (invalidLineWarning sourceId) := by
  rw [List.filter_flatMap, invalidLines, List.map_filterMap, List.filterMap_eq_flatMap_toList]
  refine List.flatMap_congr fun numbered _ => ?_
  rw [warnings_lineLog]
  by_cases hvalid : Utf8.isValid (trimEnding numbered.1)
  · simp [hvalid]
  · simp [hvalid]

theorem warnings_filter (input : List UInt8) :
    (filter engine reveal sourceId input).log.filter (·.level = .warn) =
      (invalidLines input).map (invalidLineWarning sourceId) := by
  simp only [filter, Progress.result]
  rw [(accounts_filterFrom engine reveal sourceId input).logged, List.reverse_reverse,
    ← List.flatMap_def, warnings_flatMap_lineLog]

/-- The number of a line can be read off what is said about it. -/
theorem invalidLineWarning_injective : Function.Injective (invalidLineWarning sourceId) := by
  intro first second h
  simp only [invalidLineWarning, Log.Record.mk.injEq, true_and, String.append_left_inj,
    String.append_right_inj] at h
  have hdigits := congrArg String.toList h
  simp only [Nat.toString_eq_repr, Nat.repr_eq_ofList_toDigits, String.toList_ofList] at hdigits
  rw [← Nat.ofDigitChars_ten_toDigits (n := first), hdigits, Nat.ofDigitChars_ten_toDigits]

theorem mem_invalidLines_iff {input : List UInt8} {number : Nat} :
    number ∈ invalidLines input ↔
      1 ≤ number ∧ ∃ line, (lines input)[number - 1]? = some line ∧
        Utf8.isValid (trimEnding line) = false := by
  simp only [invalidLines, List.mem_filterMap, Prod.exists,
    List.mk_mem_zipIdx_iff_le_and_getElem?_sub]
  constructor
  · rintro ⟨line, index, ⟨hpos, hline⟩, hnumber⟩
    split at hnumber
    case isTrue hvalid => cases hnumber
    case isFalse hvalid =>
      cases hnumber
      exact ⟨hpos, line, hline, Bool.eq_false_iff.mpr hvalid⟩
  · rintro ⟨hpos, line, hline, hvalid⟩
    exact ⟨line, number, ⟨hpos, hline⟩, by simp [hvalid]⟩

/-- The log warns of a line exactly if there is a line with that number and it is not
UTF-8. -/
theorem invalidLineWarning_mem_log_iff {input : List UInt8} {number : Nat} :
    invalidLineWarning sourceId number ∈ (filter engine reveal sourceId input).log ↔
      1 ≤ number ∧ ∃ line, (lines input)[number - 1]? = some line ∧
        Utf8.isValid (trimEnding line) = false := by
  have hlevel : invalidLineWarning sourceId number ∈ (filter engine reveal sourceId input).log ↔
      invalidLineWarning sourceId number ∈
        (filter engine reveal sourceId input).log.filter (·.level = .warn) := by
    rw [List.mem_filter]
    exact ⟨fun hmem => ⟨hmem, rfl⟩, And.left⟩
  rw [hlevel, warnings_filter, List.mem_map_of_injective (invalidLineWarning_injective sourceId),
    mem_invalidLines_iff]

/-! ### The main result -/

/-- **A stream is a batch of lines.** What is written is every path filtered by
itself, one after the other, each on a line of its own. The report counts the
lines and those of them with a redaction, and has the statistics of the batch.
The log warns of the lines that are not UTF-8, by their numbers in order. -/
theorem filter_eq_batch (input : List UInt8) :
    let filtered : Filtered := filter engine reveal sourceId input
    filtered.output = (paths input).flatMap (fun path => writeLine (engine.filter path)) ∧
    filtered.report.totalPaths = (lines input).length ∧
    filtered.report.redactedPaths =
      (paths input).countP (fun path => !(engine.sanitize path sourceId).2.isEmpty) ∧
    filtered.report.rules = engine.stats (paths input) ∧
    filtered.log.filter (·.level = .warn) =
      (invalidLines input).map (invalidLineWarning sourceId) := by
  have h := accounts_filterFrom engine reveal sourceId input
  refine ⟨output_filter engine reveal sourceId input, h.totalPaths, ?_, ?_,
    warnings_filter engine reveal sourceId input⟩
  · simp only [filter, Progress.result]
    rw [h.redactedPaths, paths, List.countP_map]
    rfl
  · simp only [filter, Progress.result]
    rw [h.collector, engine.stats_eq (paths input) sourceId, paths, List.flatMap_map]

end TakeLine

/-- A line ends in two bytes, one is empty, and the last is not ended at all. -/
example :
    let filtered := filter ⟨[], []⟩ false "stdin" [97, 13, 10, 10, 255]
    filtered.output = [97, 10, 10, 239, 191, 189, 10] ∧
      filtered.log = [invalidLineWarning "stdin" 3] := by
  decide

end Stream

end PathVeil
