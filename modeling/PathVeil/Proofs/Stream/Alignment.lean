import PathVeil.Proofs.Engine.Characters
import PathVeil.Proofs.Rule.Compilation
import PathVeil.Proofs.Stream.Lines

/-!
# PathVeil.Proofs.Stream.Alignment

The lines that are written stand beside the lines that were read. One line is
written for each line, but it stays one line only if the filtered path has no
line feed. A path that is read has none, and rules put none into it if there is
none in their texts, however they feed each other (`Engine.mem_filter`). So the
output has as many line feeds as there were lines, and falls into these lines
again when it is read (`Stream.output_aligned`).
-/

namespace PathVeil

/-- The text of a pattern is on one line: its expression as well as what it puts
in place of placeholders. -/
def Pattern.OnOneLine (pattern : Pattern) : Prop :=
  '\n' ∉ pattern.expression ∧ '\n' ∉ pattern.replacement

instance : DecidablePred Pattern.OnOneLine := fun _ => instDecidableAnd

/-- Rules with texts on one line leave a path on one line. -/
theorem Engine.lineFeed_not_mem_filter {engine : Engine}
    (hrules : ∀ rule ∈ engine.rules, rule.pattern.OnOneLine) {path : Path} (h : '\n' ∉ path) :
    '\n' ∉ engine.filter path := by
  intro hmem
  rcases mem_filter hmem with hpath | ⟨rule, hrule, htext⟩
  · exact h hpath
  · obtain ⟨hexpression, hreplacement⟩ := hrules rule hrule
    exact htext.elim hreplacement hexpression

namespace Stream

/-- **Output and input are aligned.** If the rules of an engine have no line feed in
their expressions and replacements, it puts none into a path. Then the output of a
stream has exactly as many line feeds as the stream has lines, which is the number
of paths in the report, and line by line it is the filtered stream. -/
theorem output_aligned {engine : Engine}
    (hrules : ∀ rule ∈ engine.rules, rule.pattern.OnOneLine) (reveal : Bool) (sourceId : String)
    (input : List UInt8) :
    let filtered := filter engine reveal sourceId input
    (∀ path, '\n' ∉ path → '\n' ∉ engine.filter path) ∧
    filtered.output.count 10 = filtered.report.totalPaths ∧
    filtered.report.totalPaths = (lines input).length ∧
    lines filtered.output = (lines input).map fun line => writeLine (engine.filter (path line)) := by
  intro filtered
  have hlines : filtered.report.totalPaths = (lines input).length :=
    totalPaths_filter engine reveal sourceId input
  have houtput : filtered.output = ((paths input).map engine.filter).flatMap writeLine := by
    rw [List.flatMap_map]
    exact output_filter engine reveal sourceId input
  have hfiltered : ∀ path ∈ (paths input).map engine.filter, '\n' ∉ path := by
    rw [List.forall_mem_map]
    exact fun path hpath =>
      Engine.lineFeed_not_mem_filter hrules (lineFeed_not_mem_of_mem_paths hpath)
  refine ⟨fun path h => Engine.lineFeed_not_mem_filter hrules h, ?_, hlines, ?_⟩
  · rw [houtput, count_flatMap_writeLine hfiltered, List.length_map, length_paths, hlines]
  · rw [houtput, lines_flatMap_writeLine hfiltered, paths, List.map_map, List.map_map]
    rfl

/-- The second rule works on text that the first has put there, and the last line gets
more of it than it had. -/
theorem output_aligned_homes :
    let config := [Rule.ofPattern "home" "/home/{user}/mail" "U",
      Rule.ofPattern "mail" "/home/U/mail/{box}" "B"]
    let engine : Engine := ⟨config.filterMap Rule.compiled?, config⟩
    let input := Utf8.encode "/var\r\n/home/me/mail/x\n\n/home/me".toList
    let filtered := filter engine false "" input
    (∀ rule ∈ engine.rules, rule.pattern.OnOneLine) ∧
      filtered.output.count 10 = filtered.report.totalPaths ∧
      lines filtered.output =
        (lines input).map (fun line => writeLine (engine.filter (path line))) ∧
      filtered.output = Utf8.encode "/var\n/home/U/mail/B\n\n/home/U/mail\n".toList := by
  intro config engine input filtered
  have hrules : ∀ rule ∈ engine.rules, rule.pattern.OnOneLine := by decide
  obtain ⟨-, hcount, -, hlines⟩ := output_aligned hrules false "" input
  exact ⟨hrules, hcount, hlines, by decide⟩

/-- With a line feed in a replacement, one line can become two. -/
example :
    let engine : Engine := ⟨[⟨"tmp", .compile ['\n'] "/tmp/{x}".toList⟩], []⟩
    let filtered := filter engine false "" (Utf8.encode "/tmp/a".toList)
    filtered.output.count 10 = 2 ∧ filtered.report.totalPaths = 1 := by
  decide

end Stream

end PathVeil
