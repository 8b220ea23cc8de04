import PathVeil.Yaml.Error

/-!
# PathVeil.Yaml.Reader

A position in a YAML text and the text from there on, with the character
classes of YAML 1.1. Lines end with a carriage return, a line feed, both, or one
of the three other line breaks; all but the paragraph and line separators read
as a line feed.
-/

namespace PathVeil.Yaml

/-! ### Marks -/

namespace Mark

/-- The mark `n` characters further on the same line. -/
def advance (mark : Mark) (n : Nat) : Mark :=
  { mark with index := mark.index + n, column := mark.column + n }

/-- The mark at the beginning of the next line, behind a break of `n` characters. -/
def newLine (mark : Mark) (n : Nat) : Mark := ⟨mark.index + n, mark.line + 1, 0⟩

end Mark

/-! ### Character classes -/

/-- Whether a character may occur in a text at all. -/
def isPermitted (c : Char) : Bool :=
  let n := c.toNat
  n == 0x09 || n == 0x0A || n == 0x0D || (0x20 ≤ n && n ≤ 0x7E) || n == 0x85
    || (0xA0 ≤ n && n ≤ 0xD7FF) || (0xE000 ≤ n && n ≤ 0xFFFD) || 0x10000 ≤ n

/-- A mark at the beginning of some texts that says nothing about them. It may stand
at the beginning of any line. -/
def byteOrderMark : Char := '\uFEFF'

/-- A space or a tab. -/
def isBlank (c : Char) : Bool := c == ' ' || c == '\t'

/-- A character that ends a line. -/
def isBreak (c : Char) : Bool :=
  c == '\r' || c == '\n' || c == '\u0085' || c == '\u2028' || c == '\u2029'

/-- What a line break reads as. -/
def normalizeBreak (c : Char) : Char := if c == '\u2028' || c == '\u2029' then c else '\n'

/-- A character of names, of anchors for example. -/
def isWordChar (c : Char) : Bool := c.isAlphanum || c == '-' || c == '_'

/-- A blank, a line break or the end of the text. -/
def isGap : Option Char → Bool
  | none => true
  | some c => isBlank c || isBreak c

/-- A line break or the end of the text. -/
def isLineEnd : Option Char → Bool
  | none => true
  | some c => isBreak c

/-- Whether a text begins with `---` or `...`, as a word of its own. -/
def isDocumentMark : List Char → Bool
  | '-' :: '-' :: '-' :: rest => isGap rest.head?
  | '.' :: '.' :: '.' :: rest => isGap rest.head?
  | _ => false

/-! ### Readers -/

/-- A position in a text. -/
structure Reader where
  /-- The text from here on. -/
  rest : List Char
  mark : Mark := {}
  deriving Repr, Inhabited

namespace Reader

/-- The next character. -/
def peek? (r : Reader) : Option Char := r.rest.head?

/-- The character after the next. -/
def peekSecond? (r : Reader) : Option Char := r.rest[1]?

/-- Passes over `n` characters of the line. -/
def skip (r : Reader) (n : Nat) : Reader := ⟨r.rest.drop n, r.mark.advance n⟩

/-- The characters from here on that satisfy a condition, and the reader behind
them. -/
def takeWhile (p : Char → Bool) (r : Reader) : List Char × Reader :=
  let (taken, rest) := r.rest.span p
  (taken, ⟨rest, r.mark.advance taken.length⟩)

/-- Passes over blanks. -/
def skipBlanks (r : Reader) : Reader := (r.takeWhile isBlank).2

/-- Reads a line break, if there is one. -/
def readBreak (r : Reader) : List Char × Reader :=
  match r.rest with
  | '\r' :: '\n' :: rest => (['\n'], ⟨rest, r.mark.newLine 2⟩)
  | c :: rest => if isBreak c then ([normalizeBreak c], ⟨rest, r.mark.newLine 1⟩) else ([], r)
  | [] => ([], r)

/-- Passes over a comment, if there is one. -/
def skipComment (r : Reader) : Reader :=
  if r.peek? = some '#' then (r.takeWhile fun c => !isBreak c).2 else r

/-- Whether a document mark stands at the beginning of this line. -/
def atDocumentMark (r : Reader) : Bool := r.mark.column == 0 && isDocumentMark r.rest

/-- An error at this position. -/
def fail {α : Type} (r : Reader) (problem : String) : Except Error α := .error ⟨problem, r.mark⟩

/-- Passes over blanks and a comment up to the end of the line, which must be
reached, and over the line break. -/
def finishLine (r : Reader) : Except Error Reader :=
  let r := r.skipBlanks.skipComment
  if isLineEnd r.peek? then .ok r.readBreak.2
  else r.fail "did not find expected comment or line break"

end Reader

end PathVeil.Yaml
