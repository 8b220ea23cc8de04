import Mathlib.Algebra.BigOperators.Group.List.Lemmas
import Mathlib.Algebra.GroupWithZero.Nat
import Mathlib.Data.List.Dedup
import PathVeil.Proofs.Summary.Grouping
import PathVeil.Proofs.Text.ByteOrder

/-!
# PathVeil.Proofs.Summary.Statistics

What a collector hands out in the end. Redactions reach it one by one or several
at a time, in any mix (`Collector.Delivery`); only their sequence counts. The
items are then the statistics of that sequence: one item for each rule that
occurs, in the byte order of the names, with the number of its redactions, the
numbers of each extent, and its first few distinct results
(`Collector.statistics_deliverAll`).

That the items group the redactions is `Collector.Groups`; this module reads the
statistics off the grouping.
-/

namespace PathVeil

/-- Redactions as they are handed to a collector. -/
inductive Collector.Delivery where
  /-- One redaction. -/
  | single (redaction : Redaction)
  /-- Several redactions at a time, or none. -/
  | batch (redactions : List Redaction)

namespace Collector

/-- The redactions of a delivery, in their order. -/
def Delivery.redactions : Delivery → List Redaction
  | .single redaction => [redaction]
  | .batch redactions => redactions

/-- Counts what is delivered. -/
def deliver (collector : Collector) : Delivery → Collector
  | .single redaction => collector.record redaction
  | .batch redactions => collector.recordAll redactions

/-- Counts deliveries one after another. -/
def deliverAll (collector : Collector) (deliveries : List Delivery) : Collector :=
  deliveries.foldl deliver collector

theorem deliver_eq (collector : Collector) (delivery : Delivery) :
    collector.deliver delivery = collector.recordAll delivery.redactions := by
  cases delivery with
  | single redaction => rfl
  | batch redactions => rfl

/-- How redactions are split into deliveries makes no difference. -/
theorem deliverAll_eq (collector : Collector) (deliveries : List Delivery) :
    collector.deliverAll deliveries =
      collector.recordAll (deliveries.flatMap Delivery.redactions) := by
  induction deliveries generalizing collector with
  | nil => rfl
  | cons delivery deliveries ih =>
    rw [List.flatMap_cons, recordAll_append, ← deliver_eq, ← ih]
    rfl

end Collector

/-- A redaction is of the whole path or of its beginning. -/
theorem Redaction.countP_full_add_countP_leading (redactions : List Redaction) :
    redactions.countP (·.extent == .full) + redactions.countP (·.extent == .leading) =
      redactions.length := by
  induction redactions with
  | nil => rfl
  | cons redaction redactions ih =>
    rw [List.countP_cons, List.countP_cons, List.length_cons, ← ih]
    cases redaction.extent <;> simp <;> omega

namespace Collector

namespace Groups

variable {maxSamples : Nat} {redactions : List Redaction} {items : List SummaryItem}

/-- The names ascend byte by byte. -/
theorem byteOrder (h : Groups maxSamples redactions items) :
    (items.map SummaryItem.ruleName).Pairwise fun first second =>
      Utf8.encode first.toList < Utf8.encode second.toList := by
  rw [List.pairwise_map]
  exact h.ascending.imp fun hlt => Utf8.encode_lt_encode hlt

/-- No name occurs twice. -/
theorem nodup_names (h : Groups maxSamples redactions items) :
    (items.map SummaryItem.ruleName).Nodup := by
  rw [List.Nodup, List.pairwise_map]
  exact h.ascending.imp String.ne_of_lt

/-- There is one item for each name that occurs. -/
theorem names_perm (h : Groups maxSamples redactions items) :
    (items.map SummaryItem.ruleName).Perm (redactions.map Redaction.ruleName).dedup := by
  rw [List.perm_ext_iff_of_nodup h.nodup_names (List.nodup_dedup _)]
  intro name
  rw [List.mem_dedup]
  exact h.mem_names name

section Item

variable {item : SummaryItem}

theorem occurrences_eq_count (h : Groups maxSamples redactions items) (hitem : item ∈ items) :
    item.occurrences = (redactions.map Redaction.ruleName).count item.ruleName := by
  have hlength : item.occurrences = (SummaryItem.own item.ruleName redactions).length :=
    congrArg SummaryItem.occurrences (h.item_eq item hitem)
  rw [hlength, SummaryItem.own, ← List.countP_eq_length_filter, List.count_eq_countP,
    List.countP_map]
  rfl

theorem one_le_occurrences (h : Groups maxSamples redactions items) (hitem : item ∈ items) :
    1 ≤ item.occurrences := by
  rw [h.occurrences_eq_count hitem, List.one_le_count_iff, ← h.mem_names]
  exact List.mem_map_of_mem hitem

theorem occurrences_eq_add (h : Groups maxSamples redactions items) (hitem : item ∈ items) :
    item.occurrences = item.fullMatches + item.partialMatches := by
  rw [h.item_eq item hitem]
  exact (Redaction.countP_full_add_countP_leading _).symm

end Item

/-- Every redaction is counted once. -/
theorem sum_occurrences (h : Groups maxSamples redactions items) :
    (items.map SummaryItem.occurrences).sum = redactions.length := by
  have hcount : items.map SummaryItem.occurrences =
      (items.map SummaryItem.ruleName).map (redactions.map Redaction.ruleName).count := by
    rw [List.map_map]
    exact List.map_congr_left fun item hitem => h.occurrences_eq_count hitem
  rw [hcount, (h.names_perm.map _).sum_eq, List.sum_map_count_dedup_eq_length, List.length_map]

theorem eq_nil_iff (h : Groups maxSamples redactions items) : items = [] ↔ redactions = [] := by
  rw [← List.map_eq_nil_iff (f := SummaryItem.ruleName),
    ← List.map_eq_nil_iff (f := Redaction.ruleName), List.eq_nil_iff_forall_not_mem,
    List.eq_nil_iff_forall_not_mem]
  simp only [h.mem_names]

end Groups

/-- **The collector computes the statistics.** Whatever redactions are delivered,
and however they are split into deliveries, there is one item for each rule name
that occurs among them, in strictly ascending byte order of the names. The item
of a rule has the number of its redactions, the numbers of full and of leading
ones, which add up to it, and the first distinct results, up to the limit. -/
theorem statistics_deliverAll (maxSamples : Nat) (deliveries : List Delivery) :
    let redactions := deliveries.flatMap Delivery.redactions
    let items := (deliverAll { maxSamples } deliveries).items
    (items.map SummaryItem.ruleName).Perm (redactions.map Redaction.ruleName).dedup ∧
    ((items.map SummaryItem.ruleName).Pairwise fun first second =>
      Utf8.encode first.toList < Utf8.encode second.toList) ∧
    ∀ item ∈ items,
      let own := redactions.filter (·.ruleName == item.ruleName)
      item.occurrences = own.length ∧
      item.fullMatches = own.countP (·.extent == .full) ∧
      item.partialMatches = own.countP (·.extent == .leading) ∧
      item.fullMatches + item.partialMatches = item.occurrences ∧
      item.samples = ((own.map Redaction.sanitizedPath).eraseDups).take maxSamples := by
  intro redactions items
  have hgroups : Groups maxSamples redactions items := by
    have hrecord := groups_recordAll maxSamples redactions
    rwa [← deliverAll_eq] at hrecord
  refine ⟨hgroups.names_perm, hgroups.byteOrder, ?_⟩
  intro item hitem own
  have hitem : item = .ofRedactions maxSamples item.ruleName redactions :=
    hgroups.item_eq item hitem
  have hoccurrences : item.occurrences = own.length := congrArg SummaryItem.occurrences hitem
  have hfull : item.fullMatches = own.countP (·.extent == .full) :=
    congrArg SummaryItem.fullMatches hitem
  have hpartial : item.partialMatches = own.countP (·.extent == .leading) :=
    congrArg SummaryItem.partialMatches hitem
  have hsum : item.fullMatches + item.partialMatches = item.occurrences := by
    rw [hfull, hpartial, hoccurrences, Redaction.countP_full_add_countP_leading]
  exact ⟨hoccurrences, hfull, hpartial, hsum, congrArg SummaryItem.samples hitem⟩

end Collector

end PathVeil
