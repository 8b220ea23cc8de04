import PathVeil.Digest.Sha256
import PathVeil.Log
import PathVeil.Pattern.Basic
import PathVeil.Text.Utf8

/-!
# PathVeil.Redaction

The record of one change. It names the rule and shows the path after the
change; the path before it appears only as a digest, and in the log only as
its length.
-/

namespace PathVeil

/-- How much of a path a rule matched when it changed it. -/
inductive Extent where
  /-- The whole path. -/
  | full
  /-- The path up to some point. -/
  | leading
  deriving DecidableEq, Repr

/-- The word that users see. -/
def Extent.label : Extent → String
  | .full => "full"
  | .leading => "partial"

/-- The extent of an outcome that is a match. -/
def Outcome.extent? : Outcome → Option Extent
  | .noMatch => none
  | .full => some .full
  | .leading _ => some .leading

/-- One change of one path by one rule. -/
structure Redaction where
  ruleName : String
  extent : Extent
  /-- The path as the rule left it. -/
  sanitizedPath : Path
  /-- Identifies the path as the rule saw it, without showing it. -/
  pathHash : String
  /-- Where the path was read. -/
  sourceId : String := ""
  /-- When the change was recorded, if anyone wrote it down. There is no clock here, so
  only a record that is read can have it. -/
  timestamp : Option String := none
  deriving DecidableEq, Repr

namespace Redaction

/-- The bytes that identify a path for a rule. -/
def hashInput (rule : String) (path : Path) : List UInt8 :=
  Utf8.encode (rule.toList ++ ':' :: path)

/-- The digest of a path for a rule. -/
def hash (rule : String) (path : Path) : String := Sha256.hex (Sha256.digest (hashInput rule path))

/-- The record of a change from `before` to `after`. The clock is left out of it: the
time at which the change is recorded is not filled in. -/
def ofChange (rule : String) (extent : Extent) (before after : Path) (sourceId : String) :
    Redaction :=
  { ruleName := rule, extent, sanitizedPath := after, pathHash := hash rule before, sourceId }

/-! ### In the log -/

/-- The most characters of which the number is not told. -/
def shortLength : Nat := 8

/-- What the log shows in place of a text that may be secret. -/
def conceal (text : List Char) : String :=
  if text.length ≤ shortLength then "[REDACTED]" else s!"[REDACTED: {text.length} chars]"

/-- The log record of a change that `speaker` made. With `reveal`, the path
before the change is shown. -/
def logRecord (reveal : Bool) (speaker rule : String) (before after : Path) : Log.Record :=
  let shown := if reveal then String.ofList before else conceal before
  ⟨.debug, "pathscrub_core::redaction_match",
    s!"{speaker} Path redaction: Rule='{rule}', Original='{shown}', Sanitized='{String.ofList after}'"⟩

end Redaction

end PathVeil
