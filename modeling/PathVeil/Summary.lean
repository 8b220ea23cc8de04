import PathVeil.Redaction

/-!
# PathVeil.Summary

What happened to many paths, rule by rule: how often each rule changed a path,
and a few of the results.
-/

namespace PathVeil

/-- The statistics of one rule. -/
structure SummaryItem where
  ruleName : String
  /-- The number of changes. -/
  occurrences : Nat := 0
  /-- The number of changes of a whole path. -/
  fullMatches : Nat := 0
  /-- The number of changes of the beginning of a path. -/
  partialMatches : Nat := 0
  /-- Some results, each once, in the order in which they first came up. -/
  samples : List Path := []
  deriving DecidableEq, Repr

namespace SummaryItem

/-- Adds a result to the samples while there are fewer than allowed, unless it
is among them. -/
def addSample (maxSamples : Nat) (samples : List Path) (path : Path) : List Path :=
  if samples.length < maxSamples ∧ path ∉ samples then samples ++ [path] else samples

/-- Counts one more redaction. -/
def record (item : SummaryItem) (redaction : Redaction) (maxSamples : Nat) : SummaryItem :=
  { item with
    occurrences := item.occurrences + 1
    fullMatches := item.fullMatches + if redaction.extent = .full then 1 else 0
    partialMatches := item.partialMatches + if redaction.extent = .leading then 1 else 0
    samples := addSample maxSamples item.samples redaction.sanitizedPath }

end SummaryItem

/-- The number of samples that are kept for each rule. -/
def defaultMaxSamples : Nat := 5

/-- Statistics in the making, in ascending order of rule names. -/
structure Collector where
  maxSamples : Nat := defaultMaxSamples
  items : List SummaryItem := []
  deriving DecidableEq, Repr

namespace Collector

/-- Counts a redaction in the item of its rule; where there is none, one is put
in at its place in the order. -/
def recordIn (maxSamples : Nat) (redaction : Redaction) : List SummaryItem → List SummaryItem
  | [] => [SummaryItem.record { ruleName := redaction.ruleName } redaction maxSamples]
  | item :: items =>
    if redaction.ruleName < item.ruleName then
      SummaryItem.record { ruleName := redaction.ruleName } redaction maxSamples :: item :: items
    else if redaction.ruleName = item.ruleName then
      item.record redaction maxSamples :: items
    else
      item :: recordIn maxSamples redaction items

/-- Counts one redaction. -/
def record (collector : Collector) (redaction : Redaction) : Collector :=
  { collector with items := recordIn collector.maxSamples redaction collector.items }

/-- Counts redactions one after another. -/
def recordAll (collector : Collector) (redactions : List Redaction) : Collector :=
  redactions.foldl record collector

@[simp] theorem recordAll_nil (collector : Collector) : collector.recordAll [] = collector := rfl

theorem recordAll_append (collector : Collector) (first second : List Redaction) :
    collector.recordAll (first ++ second) = (collector.recordAll first).recordAll second :=
  List.foldl_append

@[simp] theorem maxSamples_recordAll (collector : Collector) (redactions : List Redaction) :
    (collector.recordAll redactions).maxSamples = collector.maxSamples := by
  induction redactions generalizing collector with
  | nil => rfl
  | cons redaction redactions ih => exact ih (collector.record redaction)

end Collector

end PathVeil
