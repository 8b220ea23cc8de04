import PathVeil.Proofs.Engine.Run
import PathVeil.Proofs.Rule.Compilation
import PathVeil.Proofs.Summary.Grouping

/-!
# PathVeil.Proofs.Engine.Disclosure

How much the statistics of a path tell about it. A redaction records the path as
*one* rule left it, and the statistics keep that text as a sample of the rule.
Rules that come later may redact more of the path, but the sample stays. So two
paths that end alike, after the same rules have fired in the same way, can still
be told apart by their statistics (`stats_tell_apart`).

They cannot be told apart exactly when every rule has left the same samples of
both (`stats_singleton_eq_iff`): nothing else of a path enters its statistics.
The last text of a run is the filtered path, so only those before it can betray
anything (`stats_singleton_eq_of_interim_eq`).
-/

namespace PathVeil

/-- The rule that fired, and how. -/
def Redaction.firing (redaction : Redaction) : String × Extent :=
  (redaction.ruleName, redaction.extent)

namespace SummaryItem

/-- The firings of one rule are known from the firings of all. -/
theorem map_firing_own (name : String) (redactions : List Redaction) :
    (own name redactions).map Redaction.firing =
      (redactions.map Redaction.firing).filter (·.1 == name) := by
  rw [own, List.filter_map]
  rfl

/-- The counts of an item come from the firings alone, so that only the samples
can tell two lists of redactions with the same firings apart. -/
theorem ofRedactions_eq_of_firing {first second : List Redaction}
    (h : first.map Redaction.firing = second.map Redaction.firing) {maxSamples : Nat}
    {name : String} (hsamples : samplesOf maxSamples name first = samplesOf maxSamples name second) :
    ofRedactions maxSamples name first = ofRedactions maxSamples name second := by
  have hown : (own name first).map Redaction.firing = (own name second).map Redaction.firing := by
    rw [map_firing_own, map_firing_own, h]
  have hlength : (own name first).length = (own name second).length := by
    rw [← List.length_map Redaction.firing, hown, List.length_map]
  have hcount (extent : Extent) : (own name first).countP (·.extent == extent) =
      (own name second).countP (·.extent == extent) := by
    have hmap (redactions : List Redaction) : redactions.countP (·.extent == extent) =
        (redactions.map Redaction.firing).countP (·.2 == extent) := by
      rw [List.countP_map]
      rfl
    rw [hmap, hmap, hown]
  rw [ofRedactions, ofRedactions, hlength, hcount, hcount, hsamples]

/-- The samples of a rule come from the firings and the texts that they left. -/
theorem samplesOf_eq_of_texts {first second : List Redaction}
    (h : first.map Redaction.firing = second.map Redaction.firing)
    (htexts : first.map Redaction.sanitizedPath = second.map Redaction.sanitizedPath)
    (maxSamples : Nat) (name : String) :
    samplesOf maxSamples name first = samplesOf maxSamples name second := by
  have hown (redactions : List Redaction) : (own name redactions).map Redaction.sanitizedPath =
      (((redactions.map Redaction.firing).zip (redactions.map Redaction.sanitizedPath)).filter
        (·.1.1 == name)).map Prod.snd := by
    rw [List.zip_map', own, List.filter_map, List.map_map]
    rfl
  rw [samplesOf, samplesOf, hown, hown, h, htexts]

end SummaryItem

namespace Engine

/-- What is recorded of a path when statistics are made. -/
def redactions (engine : Engine) (path : Path) : List Redaction := (engine.sanitize path "").2

/-- The rules that fired on a path, in order, and how. -/
def firings (engine : Engine) (path : Path) : List (String × Extent) :=
  (engine.redactions path).map Redaction.firing

/-- The texts that the rules left, in order. -/
def texts (engine : Engine) (path : Path) : List Path :=
  (engine.redactions path).map Redaction.sanitizedPath

/-- The last text is the filtered path, if any rule fired at all. -/
theorem texts_eq_nil_or_append (engine : Engine) (path : Path) :
    engine.texts path = [] ∨
      engine.texts path = (engine.texts path).dropLast ++ [engine.filter path] := by
  have htexts : engine.texts path = (engine.changes path).map Change.after := by
    rw [texts, redactions, sanitize_eq, List.map_map]
    rfl
  have hfilter := (engine.chain_changes path).getLast?_after
  rw [← htexts] at hfilter
  cases hlast : (engine.texts path).getLast? with
  | none => exact Or.inl (List.getLast?_eq_none_iff.mp hlast)
  | some last =>
    rw [hlast, Option.getD_some] at hfilter
    obtain ⟨interim, hinterim⟩ := List.getLast?_eq_some_iff.mp hlast
    rw [hinterim, List.dropLast_concat, hfilter]
    exact Or.inr rfl

/-- The statistics of one path group what is recorded of it. -/
theorem groups_stats (engine : Engine) (path : Path) :
    Collector.Groups defaultMaxSamples (engine.redactions path) (engine.stats [path]) :=
  Collector.groups_recordAll defaultMaxSamples (engine.redactions path)

section TwoPaths

variable {engine : Engine} {p q : Path}

/-- Where the same rules fired in the same way, the samples decide. -/
theorem stats_singleton_eq_of_samplesOf_eq (h : engine.firings p = engine.firings q)
    (hsamples : ∀ name, SummaryItem.samplesOf defaultMaxSamples name (engine.redactions p) =
      SummaryItem.samplesOf defaultMaxSamples name (engine.redactions q)) :
    engine.stats [p] = engine.stats [q] := by
  refine (engine.groups_stats p).unique (engine.groups_stats q) (fun name => ?_) fun name =>
    SummaryItem.ofRedactions_eq_of_firing h (hsamples name)
  have hnames : (engine.redactions p).map Redaction.ruleName =
      (engine.redactions q).map Redaction.ruleName := by
    have hfst := congrArg (List.map Prod.fst) h
    rwa [firings, firings, List.map_map, List.map_map] at hfst
  rw [hnames]

/-- Two paths that end alike can only betray themselves by a text that a later
rule has rewritten. -/
theorem stats_singleton_eq_of_interim_eq (h : engine.firings p = engine.firings q)
    (hfilter : engine.filter p = engine.filter q)
    (hinterim : (engine.texts p).dropLast = (engine.texts q).dropLast) :
    engine.stats [p] = engine.stats [q] := by
  have hlength : (engine.texts p).length = (engine.texts q).length := by
    have hfirings := congrArg List.length h
    rwa [firings, firings, List.length_map, List.length_map,
      ← List.length_map Redaction.sanitizedPath, ← List.length_map Redaction.sanitizedPath] at hfirings
  have htexts : engine.texts p = engine.texts q := by
    rcases engine.texts_eq_nil_or_append p with hp | hp
    · rw [hp] at hlength ⊢
      exact (List.eq_nil_of_length_eq_zero hlength.symm).symm
    · rcases engine.texts_eq_nil_or_append q with hq | hq
      · rw [hp, hq] at hlength
        simp at hlength
      · rw [hp, hq, hinterim, hfilter]
  exact stats_singleton_eq_of_samplesOf_eq h fun name =>
    SummaryItem.samplesOf_eq_of_texts h htexts defaultMaxSamples name

/-- **What statistics tell.** On two paths on which the same rules fired in the
same way, the statistics agree exactly if each rule has left the same samples. -/
theorem stats_singleton_eq_iff (h : engine.firings p = engine.firings q) :
    engine.stats [p] = engine.stats [q] ↔
      ∀ name, SummaryItem.samplesOf defaultMaxSamples name (engine.redactions p) =
        SummaryItem.samplesOf defaultMaxSamples name (engine.redactions q) := by
  constructor
  · intro hstats name
    have hitem : SummaryItem.ofRedactions defaultMaxSamples name (engine.redactions p) =
        .ofRedactions defaultMaxSamples name (engine.redactions q) := by
      rw [← (engine.groups_stats p).itemOf_eq, ← (engine.groups_stats q).itemOf_eq, hstats]
    exact congrArg SummaryItem.samples hitem
  · exact stats_singleton_eq_of_samplesOf_eq h

end TwoPaths

/-! ### A leak -/

/-- Two rules, of which the second goes on where the first has left off. -/
def secondLook : List Rule :=
  [.ofPattern "first" "/a/{x}/b" "XXX", .ofPattern "second" "/a/XXX/b/{y}" "XXX"]

/-- The engine of these rules. -/
def secondLookEngine : Engine := ⟨secondLook.filterMap Rule.compiled?, secondLook⟩

/-- The premise holds where the samples of the first rule differ. -/
theorem stats_eq_iff_secondLook :
    secondLookEngine.firings "/a/1/b/s1".toList = secondLookEngine.firings "/a/1/b/s2".toList ∧
      (secondLookEngine.stats ["/a/1/b/s1".toList] = secondLookEngine.stats ["/a/1/b/s2".toList] ↔
        ∀ name, SummaryItem.samplesOf defaultMaxSamples name
            (secondLookEngine.redactions "/a/1/b/s1".toList) =
          SummaryItem.samplesOf defaultMaxSamples name
            (secondLookEngine.redactions "/a/1/b/s2".toList)) :=
  ⟨by decide, stats_singleton_eq_iff (by decide)⟩

/-- The sample of the first rule shows what the second has redacted. -/
theorem stats_tell_apart :
    ofRules secondLook = .ok secondLookEngine ∧
      secondLookEngine.filter "/a/1/b/s1".toList = secondLookEngine.filter "/a/1/b/s2".toList ∧
      secondLookEngine.firings "/a/1/b/s1".toList = secondLookEngine.firings "/a/1/b/s2".toList ∧
      secondLookEngine.stats ["/a/1/b/s1".toList] ≠ secondLookEngine.stats ["/a/1/b/s2".toList] := by
  refine ⟨rfl, ?_, ?_, ?_⟩
  · decide
  · decide
  · decide

end Engine

end PathVeil
