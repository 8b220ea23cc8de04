import PathVeil.Stream
import PathVeil.Table

/-!
# PathVeil.Report

Texts that the program shows: the table of rules, the summary of a filtered
stream, and how a single pattern treats some paths.
-/

namespace PathVeil

/-- The summary of a filtered stream: a sentence, and a table of the rules that
changed something. -/
def Report.text (report : Report) : String :=
  let sentence := s!"Redacted {report.redactedPaths} of {report.totalPaths} paths.\n"
  if report.rules.isEmpty then sentence
  else
    let row (item : SummaryItem) : List String :=
      [item.ruleName, toString item.occurrences, toString item.fullMatches,
        toString item.partialMatches]
    let table : Table := ⟨["Rule", "Occurrences", "Full", "Partial"], report.rules.map row⟩
    sentence ++ table.render

/-- The table of a list of rules. -/
def Rule.table (rules : List Rule) : String :=
  let row (rule : Rule) : List String :=
    [rule.name, rule.pattern.getD "", rule.replaceWith, if rule.isEnabled then "yes" else "no",
      rule.description.getD ""]
  Table.render ⟨["Name", "Pattern", "Replacement", "Enabled", "Description"], rules.map row⟩

/-- One line on what a pattern does to a path: the outcome, and the path after
the pattern. -/
def Pattern.preview (pattern : Pattern) (path : Path) : List Char :=
  (pattern.find path).label.toList ++ '\t' :: pattern.filter path

/-- A line for each path. -/
def Pattern.previews (pattern : Pattern) (paths : List Path) : List Char :=
  paths.flatMap fun path => pattern.preview path ++ ['\n']

end PathVeil
