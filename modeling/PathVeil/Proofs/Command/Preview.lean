import PathVeil.Command
import PathVeil.Proofs.Engine.Trace
import PathVeil.Proofs.Rule.Selection
import PathVeil.Proofs.World.Returns

/-!
# PathVeil.Proofs.Command.Preview

A pattern is tried out without rules, compilation or engine. What is shown is what
an engine with this pattern alone would do, and the word in front of it is the extent
that the engine would record, if it records anything: matches that leave the path as
it is are shown with their word, and are no redactions.

## Proof shape

The pattern becomes a rule on its own (`Configuration.assemble_pattern`), small
enough to compile. The trace of a single rule has one redaction or none
(`Engine.Trace.singleton_cases`), and what a redaction tells is the outcome that the
preview shows (`Redaction.Tells.label_eq`).
-/

namespace PathVeil

/-- The word for an extent is that of the outcomes that have it. -/
theorem Outcome.label_of_extent? {outcome : Outcome} {extent : Extent}
    (h : outcome.extent? = some extent) : outcome.label = extent.label := by
  cases outcome with
  | noMatch => cases h
  | full => cases h; rfl
  | leading stop => cases h; rfl

theorem Outcome.label_eq_none_iff {outcome : Outcome} :
    outcome.label = "none" ↔ outcome = .noMatch := by
  cases outcome with
  | noMatch => simp [label]
  | full => simp [label]
  | leading stop => simp [label]

theorem Redaction.Tells.label_eq {redaction : Redaction} {rule : CompiledRule} {sourceId : String}
    {before after : Path} (h : redaction.Tells rule sourceId before after) :
    redaction.extent.label = (rule.pattern.find before).label :=
  (Outcome.label_of_extent? h.extent_eq).symm

/-- A further pattern without any other rules is the only rule. -/
theorem Configuration.assemble_pattern (pattern replacement : String) :
    assemble { noDefaults := true, patterns := [pattern], replacement } none =
      [Rule.ofPattern "cli_pattern_1" pattern replacement] := by
  rfl

/-- The compiled form of a rule that was made for a pattern. -/
theorem Rule.compile_ofPattern (name : String) {pattern : String} (replacement : String)
    (hsize : pattern.utf8ByteSize ≤ 1024) :
    compile [ofPattern name pattern replacement] =
      .ok [⟨name, Pattern.compile replacement.toList pattern.toList⟩] := by
  have hsmall : ∀ rule ∈ [ofPattern name pattern replacement], rule.Small := by
    intro rule hmem expression hexpression
    rw [List.mem_singleton.mp hmem] at hexpression
    cases hexpression
    exact hsize
  rw [compile_of_small hsmall]
  rfl

namespace Engine

variable {rule : CompiledRule} {sourceId : String} {path final : Path}

/-- One rule either leaves the path alone, or tells what it has made of it. -/
theorem Trace.singleton_cases {redactions : List Redaction}
    (h : Trace sourceId [rule] path redactions final) :
    (redactions = [] ∧ final = path) ∨
      ∃ redaction, redactions = [redaction] ∧ redaction.Tells rule sourceId path final := by
  cases h with
  | idle _ hdone =>
    cases hdone
    exact Or.inl ⟨rfl, rfl⟩
  | told htells hdone =>
    cases hdone
    exact Or.inr ⟨_, rfl, htells⟩

theorem filter_singleton (rule : CompiledRule) (config : List Rule) (path : Path) :
    filter ⟨[rule], config⟩ path = rule.pattern.filter path :=
  filter_eq_foldl ..

/-- The redactions of an engine with one rule, by the words for their extents. -/
theorem map_label_sanitize_singleton (rule : CompiledRule) (config : List Rule) (path : Path)
    (sourceId : String) :
    let engine : Engine := ⟨[rule], config⟩
    (engine.sanitize path sourceId).2.map (·.extent.label) =
      if engine.filter path = path then [] else [(rule.pattern.find path).label] := by
  intro engine
  have hfilter : (engine.sanitize path sourceId).1 = engine.filter path := by rw [sanitize_eq]
  obtain ⟨hnone, hfinal⟩ | ⟨redaction, hone, htells⟩ :=
    (trace_sanitize engine path sourceId).singleton_cases
  · rw [hfilter] at hfinal
    rw [hnone, if_pos hfinal, List.map_nil]
  · have hne := htells.after_ne
    rw [hfilter] at hne
    rw [hone, if_neg hne, List.map_singleton, htells.label_eq]

end Engine

namespace Command

/-- The command writes a line for each path, and cannot fail. -/
theorem returns_check (environment : Environment) (quiet : Bool) (pattern replacement : String)
    (paths : List String) (world : World) :
    let compiled := Pattern.compile replacement.toList pattern.toList
    (run environment quiet (.check pattern replacement paths)).Returns world ()
      { world with stdout := world.stdout ++ Utf8.encode (paths.flatMap fun path =>
          compiled.preview path.toList ++ ['\n']) } := by
  intro compiled
  have htext : compiled.previews (paths.map String.toList) =
      paths.flatMap fun path => compiled.preview path.toList ++ ['\n'] := by
    rw [Pattern.previews, List.flatMap_map]
  rw [← htext]
  exact Run.returns_writeOutput_iff.mpr rfl

/-- **A preview shows what filtering does.** A pattern that is small enough makes a
configuration on its own, and this has an engine, through whatever cache its rules
come. For each path, in order, the preview writes a word, a tab and a text. The text
is what the engine makes of the path. If it differs from the path, the engine records
one redaction, whose extent is the word, and otherwise none; and it does not differ if
the word is that for no match. -/
theorem check_shows_what_filter_does (environment : Environment) (quiet : Bool)
    (pattern replacement : String) (paths : List String) (world : World)
    (hsize : pattern.utf8ByteSize ≤ 1024) :
    let config :=
      Configuration.assemble { noDefaults := true, patterns := [pattern], replacement } none
    let word (path : Path) : String :=
      ((Pattern.compile replacement.toList pattern.toList).find path).label
    config = [Rule.ofPattern "cli_pattern_1" pattern replacement] ∧
      ∃ engine, Engine.ofRules config = .ok engine ∧
        (∀ (κ : Type) [DecidableEq κ] (key : Fingerprint → κ) (cache : Cache κ),
          cache.Sound key → (Engine.ofCache key cache config).1 = .ok engine) ∧
        (run environment quiet (.check pattern replacement paths)).Returns world ()
          { world with stdout := world.stdout ++ Utf8.encode (paths.flatMap fun path =>
              (word path.toList).toList ++ '\t' :: engine.filter path.toList ++ ['\n']) } ∧
        ∀ path,
          (∀ sourceId, (engine.sanitize path sourceId).1 = engine.filter path ∧
            (engine.sanitize path sourceId).2.map (·.extent.label) =
              if engine.filter path = path then [] else [word path]) ∧
          (word path = "none" → engine.filter path = path) := by
  intro config word
  have hconfig := Configuration.assemble_pattern pattern replacement
  let rule : CompiledRule := ⟨"cli_pattern_1", Pattern.compile replacement.toList pattern.toList⟩
  have hcompile : Rule.compile config = .ok [rule] := by
    show Rule.compile (Configuration.assemble _ none) = _
    rw [hconfig]
    exact Rule.compile_ofPattern "cli_pattern_1" replacement hsize
  have hengine : Engine.ofRules config = .ok ⟨[rule], config⟩ :=
    Engine.ofRules_eq_ok_iff.mpr ⟨hcompile, rfl⟩
  refine ⟨hconfig, ⟨[rule], config⟩, hengine, ?_, ?_, ?_⟩
  · intro κ _ key cache hsound
    rw [Engine.ofCache_eq_ofRules hsound, hengine]
  · simp only [Engine.filter_singleton]
    exact returns_check environment quiet pattern replacement paths world
  · intro path
    refine ⟨fun sourceId => ⟨by rw [Engine.sanitize_eq], ?_⟩, ?_⟩
    · exact Engine.map_label_sanitize_singleton rule config path sourceId
    · intro hword
      rw [Engine.filter_singleton]
      exact Pattern.filter_of_noMatch (Outcome.label_eq_none_iff.mp hword)

/-- A match that changes the path, one that does not, and no match. -/
theorem check_shows_what_filter_does_order :
    let pattern := "/o/\x7bid\x7d"
    pattern.utf8ByteSize ≤ 1024 ∧
      (∃ after, (run {} false (.check pattern "XXX" ["/o/7", "/o/XXX", "/x"])).Returns {} () after ∧
        after.stdout = Utf8.encode "full\t/o/XXX\nfull\t/o/XXX\nnone\t/x\n".toList) ∧
      ∃ engine, Engine.ofRules [Rule.ofPattern "cli_pattern_1" pattern "XXX"] = .ok engine ∧
        (engine.sanitize "/o/7".toList "").2.map (·.extent.label) = ["full"] ∧
        (engine.sanitize "/o/XXX".toList "").2.map (·.extent.label) = [] ∧
        engine.filter "/x".toList = "/x".toList := by
  intro pattern
  have hsize : pattern.utf8ByteSize ≤ 1024 := by decide
  obtain ⟨hconfig, engine, hengine, -, hreturns, hpaths⟩ :=
    check_shows_what_filter_does {} false pattern "XXX" ["/o/7", "/o/XXX", "/x"] {} hsize
  rw [hconfig] at hengine
  obtain rfl : ⟨[⟨"cli_pattern_1", Pattern.compile "XXX".toList pattern.toList⟩], _⟩ = engine :=
    Except.ok.inj (Eq.trans (by rfl) hengine)
  refine ⟨hsize, ⟨_, hreturns, by decide⟩, _, hengine, ?_, ?_, ?_⟩
  · exact ((hpaths "/o/7".toList).1 "").2.trans (by decide)
  · exact ((hpaths "/o/XXX".toList).1 "").2.trans (by decide)
  · exact (hpaths "/x".toList).2 (by decide)

end Command

end PathVeil
