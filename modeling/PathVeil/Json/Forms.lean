import PathVeil.Json.Decode
import PathVeil.Stream

/-!
# PathVeil.Json.Forms

The JSON forms of rules, redactions and summaries: what each is written as, and
what it can be read from.
-/

namespace PathVeil

open Json (asBool asList asNat asOption asString asStructure)

/-- A value that may be absent. -/
def Json.ofOption {α : Type} (form : α → Json) : Option α → Json
  | none => .null
  | some value => form value

/-- A list of texts. -/
def Json.ofStrings (texts : List String) : Json := .array (texts.map .string)

/-- Reads a path. -/
def Json.asPath : Json.Reader Path := fun json => (asString json).map String.toList

/-- A path, written as a text. -/
def Json.ofPath (path : Path) : Json := .string (String.ofList path)

/-! ### Rules -/

namespace Rule

/-- The written form of a rule. -/
def toJson (rule : Rule) : Json :=
  .object [
    ("name", .string rule.name),
    ("description", .ofOption .string rule.description),
    ("pattern", .ofOption .string rule.pattern),
    ("replace_with", .string rule.replaceWith),
    ("enabled", .ofOption .bool rule.enabled),
    ("opt_in", .bool rule.optIn),
    ("tags", .ofOption .ofStrings rule.tags)]

/-- The fields of a rule. All have defaults. -/
def jsonFields : List (Json.Field Rule) := [
  ⟨"name", false, fun rule json => (asString json).map ({ rule with name := · })⟩,
  ⟨"description", false, fun rule json =>
    (asOption asString json).map ({ rule with description := · })⟩,
  ⟨"pattern", false, fun rule json => (asOption asString json).map ({ rule with pattern := · })⟩,
  ⟨"replace_with", false, fun rule json => (asString json).map ({ rule with replaceWith := · })⟩,
  ⟨"enabled", false, fun rule json => (asOption asBool json).map ({ rule with enabled := · })⟩,
  ⟨"opt_in", false, fun rule json => (asBool json).map ({ rule with optIn := · })⟩,
  ⟨"tags", false, fun rule json =>
    (asOption (asList asString) json).map ({ rule with tags := · })⟩]

/-- Reads a rule. -/
def ofJson : Json.Reader Rule := asStructure "PathRule" {} jsonFields

/-- The written form of a configuration. -/
def configToJson (rules : List Rule) : Json := .object [("rules", .array (rules.map toJson))]

/-- Reads a configuration. -/
def configOfJson : Json.Reader (List Rule) :=
  asStructure "PathFilterConfig" [] [⟨"rules", false, fun _ json => asList ofJson json⟩]

end Rule

/-! ### Redactions -/

/-- The extent with this label. -/
def Extent.ofLabel? (label : String) : Option Extent :=
  if label = Extent.full.label then some .full
  else if label = Extent.leading.label then some .leading
  else none

/-- Reads an extent. -/
def Extent.ofJson : Json.Reader Extent := Json.asVariant "`full` or `partial`" Extent.ofLabel?

namespace Redaction

/-- The written form of a redaction. -/
def toJson (redaction : Redaction) : Json :=
  .object [
    ("rule_name", .string redaction.ruleName),
    ("outcome", .string redaction.extent.label),
    ("sanitized_path", .ofPath redaction.sanitizedPath),
    ("path_hash", .string redaction.pathHash),
    ("source_id", .string redaction.sourceId),
    ("timestamp", .ofOption .string redaction.timestamp)]

/-- A redaction of which nothing has been read yet. -/
def unread : Redaction :=
  { ruleName := "", extent := .full, sanitizedPath := [], pathHash := "" }

/-- The fields of a redaction. -/
def jsonFields : List (Json.Field Redaction) := [
  ⟨"rule_name", true, fun value json => (asString json).map ({ value with ruleName := · })⟩,
  ⟨"outcome", true, fun value json => (Extent.ofJson json).map ({ value with extent := · })⟩,
  ⟨"sanitized_path", true, fun value json =>
    (Json.asPath json).map ({ value with sanitizedPath := · })⟩,
  ⟨"path_hash", true, fun value json => (asString json).map ({ value with pathHash := · })⟩,
  ⟨"source_id", false, fun value json => (asString json).map ({ value with sourceId := · })⟩,
  ⟨"timestamp", false, fun value json =>
    (asOption asString json).map ({ value with timestamp := · })⟩]

/-- Reads a redaction. -/
def ofJson : Json.Reader Redaction := asStructure "PathRedaction" unread jsonFields

end Redaction

/-! ### Summaries -/

namespace SummaryItem

/-- The written form of a summary item. -/
def toJson (item : SummaryItem) : Json :=
  .object [
    ("rule_name", .string item.ruleName),
    ("occurrences", .integer item.occurrences),
    ("full_matches", .integer item.fullMatches),
    ("partial_matches", .integer item.partialMatches),
    ("sanitized_samples", .array (item.samples.map .ofPath))]

/-- The fields of a summary item. -/
def jsonFields : List (Json.Field SummaryItem) := [
  ⟨"rule_name", true, fun item json => (asString json).map ({ item with ruleName := · })⟩,
  ⟨"occurrences", true, fun item json => (asNat json).map ({ item with occurrences := · })⟩,
  ⟨"full_matches", true, fun item json => (asNat json).map ({ item with fullMatches := · })⟩,
  ⟨"partial_matches", true, fun item json =>
    (asNat json).map ({ item with partialMatches := · })⟩,
  ⟨"sanitized_samples", true, fun item json =>
    (asList Json.asPath json).map ({ item with samples := · })⟩]

/-- Reads a summary item. -/
def ofJson : Json.Reader SummaryItem :=
  asStructure "RedactionSummaryItem" { ruleName := "" } jsonFields

end SummaryItem

/-- The written form of a report. -/
def Report.toJson (report : Report) : Json :=
  .object [
    ("total_paths", .integer report.totalPaths),
    ("redacted_paths", .integer report.redactedPaths),
    ("rules", .array (report.rules.map SummaryItem.toJson))]

end PathVeil
