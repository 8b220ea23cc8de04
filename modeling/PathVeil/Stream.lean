import PathVeil.Engine

/-!
# PathVeil.Stream

Filtering a stream of paths, one per line. Lines end with a line feed or with a
carriage return and a line feed, the last may be unterminated; on output every
line ends with a line feed. Bytes that are not UTF-8 are replaced, with a
warning that names the line.

* `Stream.lines`, `Stream.paths` — what a stream holds, seen as a whole;
* `Stream.filter` — reads, filters and counts line by line.
-/

namespace PathVeil

namespace Stream

/-! ### Lines -/

/-- The pieces of a byte sequence, each with the line feed that ends it. -/
def lines : List UInt8 → List (List UInt8)
  | [] => []
  | b :: bytes =>
    if b = 10 then [b] :: lines bytes
    else
      match lines bytes with
      | [] => [[b]]
      | line :: others => (b :: line) :: others

/-- Takes a byte off the end of a line, if it is there. -/
def dropEnd (b : UInt8) (line : List UInt8) : List UInt8 :=
  if line.getLast? = some b then line.dropLast else line

/-- The line without its line feed, and without the carriage return before it. -/
def trimEnding (line : List UInt8) : List UInt8 := dropEnd 13 (dropEnd 10 line)

/-- The path on a line. -/
def path (line : List UInt8) : Path := Utf8.decodeLossy (trimEnding line)

/-- The paths of a stream. -/
def paths (input : List UInt8) : List Path := (lines input).map path

/-- The numbers, from one, of the lines that are not UTF-8. -/
def invalidLines (input : List UInt8) : List Nat :=
  ((lines input).zipIdx 1).filterMap fun (line, number) =>
    if Utf8.isValid (trimEnding line) then none else some number

@[simp] theorem lines_nil : lines [] = [] := rfl

/-- Cutting a byte sequence into lines loses nothing. -/
@[simp] theorem flatten_lines (input : List UInt8) : (lines input).flatten = input := by
  induction input with
  | nil => rfl
  | cons b bytes ih =>
    by_cases h : b = 10
    · simp [lines, h, ih]
    · unfold lines
      rw [if_neg h]
      cases hl : lines bytes with
      | nil =>
        have hempty : bytes = [] := by simpa [hl] using ih.symm
        simp [hempty]
      | cons line others =>
        rw [hl] at ih
        simpa using ih

theorem length_paths (input : List UInt8) : (paths input).length = (lines input).length := by
  simp [paths]

/-! ### What is written and said about a line -/

/-- The bytes of a path on a line of its own. -/
def writeLine (path : Path) : List UInt8 := Utf8.encode path ++ [10]

/-- The warning about a line that is not UTF-8. -/
def invalidLineWarning (sourceId : String) (number : Nat) : Log.Record :=
  ⟨.warn, "pathscrub::commands::filter",
    s!"Line {number} of {sourceId} is not valid UTF-8; invalid bytes replaced."⟩

/-- What the log says about the line with this number. -/
def lineLog (engine : Engine) (reveal : Bool) (sourceId : String) (line : List UInt8)
    (number : Nat) : List Log.Record :=
  (if Utf8.isValid (trimEnding line) then [] else [invalidLineWarning sourceId number])
    ++ engine.sanitizeLog reveal (path line)

end Stream

/-- The result of filtering a stream. -/
structure Report where
  totalPaths : Nat := 0
  /-- The number of paths that some rule changed. -/
  redactedPaths : Nat := 0
  rules : List SummaryItem := []
  deriving DecidableEq, Repr

namespace Stream

/-! ### Line by line -/

/-- What comes of filtering a stream. -/
structure Filtered where
  /-- The bytes that are written. -/
  output : List UInt8
  report : Report
  /-- What the log says. -/
  log : List Log.Record
  deriving DecidableEq, Repr

/-- A stream on its way through an engine. -/
structure Progress where
  /-- The number of the last line that was read. -/
  lineNumber : Nat := 0
  /-- What has been written, the last line first. -/
  written : List (List UInt8) := []
  totalPaths : Nat := 0
  redactedPaths : Nat := 0
  collector : Collector := {}
  /-- What the log has said, about the last line first. -/
  logged : List (List Log.Record) := []

namespace Progress

/-- Takes in one more line. Statistics are made only of lines that some rule
changes. -/
def takeLine (engine : Engine) (reveal : Bool) (sourceId : String) (progress : Progress)
    (line : List UInt8) : Progress :=
  let number := progress.lineNumber + 1
  let (sanitized, redactions) := engine.sanitize (path line) sourceId
  let passed := { progress with
    lineNumber := number
    written := writeLine sanitized :: progress.written
    totalPaths := progress.totalPaths + 1
    logged := lineLog engine reveal sourceId line number :: progress.logged }
  if redactions.isEmpty then passed
  else { passed with
    redactedPaths := progress.redactedPaths + 1
    collector := progress.collector.recordAll redactions }

/-- The result at the end of the stream. -/
def result (progress : Progress) : Filtered where
  output := progress.written.reverse.flatten
  report := {
    totalPaths := progress.totalPaths
    redactedPaths := progress.redactedPaths
    rules := progress.collector.items }
  log := progress.logged.reverse.flatten

end Progress

/-- Filters what is left of a stream. The buffer holds what has been read of the
current line, the last byte first. -/
def filterFrom (engine : Engine) (reveal : Bool) (sourceId : String) (progress : Progress)
    (buffer : List UInt8) : List UInt8 → Progress
  | [] =>
    if buffer.isEmpty then progress
    else progress.takeLine engine reveal sourceId buffer.reverse
  | b :: bytes =>
    if b = 10 then
      let progress := progress.takeLine engine reveal sourceId (b :: buffer).reverse
      filterFrom engine reveal sourceId progress [] bytes
    else
      filterFrom engine reveal sourceId progress (b :: buffer) bytes

/-- Filters a stream. With `reveal`, the log may show paths as they were. -/
def filter (engine : Engine) (reveal : Bool) (sourceId : String) (input : List UInt8) : Filtered :=
  (filterFrom engine reveal sourceId {} [] input).result

end Stream

end PathVeil
