import PathVeil.Pattern.Token

/-!
# PathVeil.Pattern.Basic

Patterns and what they do to a path. Matching is one pass over the path with a
cursor that only moves forward. All that is kept between two tokens is the number of
bytes in front of it, and each token cuts the path there:

* a literal has to stand at the cursor, which moves behind it;
* a wildcard that is not the last token moves the cursor to the next separator;
* a wildcard that is the last token, or that has no separator ahead, takes the
  rest of the path, and the tokens behind it count as matched.

A path that is matched to its end becomes the pattern's substitute; one that
goes on behind the match keeps what follows. Text is put together only in that
last case: everything else is handed back from where it already stands.
-/

namespace PathVeil

/-- How far a pattern matches a path. -/
inductive Outcome where
  /-- The path does not match. -/
  | noMatch
  /-- The whole path matches. -/
  | full
  /-- The path matches up to this byte, and goes on behind it. -/
  | leading (stop : Nat)
  deriving DecidableEq, Repr

namespace Outcome

/-- Whether the path matches at all. -/
def isMatch : Outcome → Bool
  | .noMatch => false
  | _ => true

/-- The word that users see for the outcome. -/
def label : Outcome → String
  | .noMatch => "none"
  | .full => "full"
  | .leading _ => "partial"

end Outcome

/-- What is left of the path behind a byte position, if the position lies
between two characters or at an end. -/
def dropBytes? (n : Nat) : Path → Option Path
  | [] => if n = 0 then some [] else none
  | c :: path =>
    if n = 0 then some (c :: path)
    else if c.utf8Size ≤ n then dropBytes? (n - c.utf8Size) path
    else none

/-- A position in a path, in bytes, and the path from there on. -/
structure Cursor where
  /-- The number of bytes in front of the cursor. -/
  offset : Nat
  /-- The path behind the cursor. -/
  rest : Path
  deriving DecidableEq, Repr

namespace Cursor

/-- The cursor at a byte of the path, if the path can be cut there. -/
def at? (path : Path) (offset : Nat) : Option Cursor := (dropBytes? offset path).map (⟨offset, ·⟩)

@[simp] theorem isPrefixOf?_nil (path : List Char) : [].isPrefixOf? path = some path := rfl

@[simp] theorem isPrefixOf?_cons_nil (c : Char) (text : List Char) :
    (c :: text).isPrefixOf? [] = none := rfl

@[simp] theorem isPrefixOf?_cons_cons (c d : Char) (text path : List Char) :
    (c :: text).isPrefixOf? (d :: path) = if c == d then text.isPrefixOf? path else none := rfl

theorem isPrefixOf?_eq_some_iff {text path rest : List Char} :
    text.isPrefixOf? path = some rest ↔ path = text ++ rest := by
  induction text generalizing path with
  | nil => simp
  | cons c text ih =>
    cases path with
    | nil => simp
    | cons d path =>
      by_cases h : c = d
      · simp [h, ih]
      · simp [h, Ne.symm h]

/-- The cursor behind a text that stands at it, if it does. -/
def skip? (text : List Char) (cursor : Cursor) : Option Cursor :=
  (text.isPrefixOf? cursor.rest).map (⟨cursor.offset + byteSize text, ·⟩)

theorem skip?_eq_some_iff {text : List Char} {cursor next : Cursor} :
    cursor.skip? text = some next
      ↔ cursor.rest = text ++ next.rest ∧ next.offset = cursor.offset + byteSize text := by
  obtain ⟨offset, rest⟩ := next
  simp only [skip?, Option.map_eq_some_iff, Cursor.mk.injEq]
  constructor
  · rintro ⟨found, hfound, rfl, rfl⟩
    exact ⟨isPrefixOf?_eq_some_iff.mp hfound, rfl⟩
  · rintro ⟨hrest, hoffset⟩
    exact ⟨rest, isPrefixOf?_eq_some_iff.mpr hrest, hoffset.symm, rfl⟩

/-- The cursor at the next separator, if there is one ahead. -/
def toSeparator? (cursor : Cursor) : Option Cursor :=
  if cursor.rest.contains separator then
    some ⟨cursor.offset + byteSize (cursor.rest.takeWhile (· ≠ separator)),
      cursor.rest.dropWhile (· ≠ separator)⟩
  else
    none

end Cursor

namespace Token

/-- What a token makes of a position in the path. -/
inductive Step where
  /-- The match goes on at this byte. -/
  | next (offset : Nat)
  /-- The token takes the rest of the path. -/
  | rest
  /-- The token does not match. -/
  | fail
  deriving DecidableEq, Repr

/-- Matches one token at a cursor. -/
def step (isLast : Bool) (cursor : Cursor) : Token → Step
  | .literal text =>
    match cursor.skip? text with
    | none => .fail
    | some next => .next next.offset
  | .wildcard =>
    if isLast then .rest
    else
      match cursor.toSeparator? with
      | none => .rest
      | some next => .next next.offset

/-- How far the tokens match from a byte of the path on. There is no answer if the
path has to be cut outside of it or inside a character. -/
def scan? (path : Path) (offset : Nat) : List Token → Option Outcome
  | [] => some (if offset = byteSize path then .full else .leading offset)
  | token :: tokens =>
    match Cursor.at? path offset with
    | none => none
    | some cursor =>
      match token.step tokens.isEmpty cursor with
      | .next offset => scan? path offset tokens
      | .rest => some .full
      | .fail => some .noMatch

end Token

/-- A compiled pattern: an expression and what to put in its placeholders. -/
structure Pattern where
  /-- The expression as it was written. -/
  expression : List Char
  /-- The text that takes the place of every placeholder. -/
  replacement : List Char
  /-- The tokens of the expression. -/
  tokens : List Token := Token.ofExpression expression
  /-- The text of the tokens with the replacement in place. -/
  substitute : List Char := Token.fill replacement tokens
  tokens_eq : tokens = Token.ofExpression expression := by rfl
  substitute_eq : substitute = Token.fill replacement tokens := by rfl
  deriving DecidableEq, Repr

/-- A path as a filter hands it back. -/
inductive Rendered where
  /-- A stretch of a text that existed before: the input, or a substitute. -/
  | lent (path : Path)
  /-- A text put together for the occasion. -/
  | built (path : Path)
  deriving DecidableEq, Repr

namespace Rendered

/-- The path, wherever it stands. -/
def path : Rendered → Path
  | lent path => path
  | built path => path

@[simp] theorem path_lent (path : Path) : (lent path).path = path := rfl

@[simp] theorem path_built (path : Path) : (built path).path = path := rfl

end Rendered

namespace Pattern

/-- The pattern of an expression. Every expression has one. -/
def compile (replacement expression : List Char) : Pattern := { expression, replacement }

/-- Whether there is anything to replace. -/
def hasPlaceholders (pattern : Pattern) : Bool := pattern.tokens.contains .wildcard

/-- How far the pattern matches the path, if every cut on the way is possible. -/
def find? (pattern : Pattern) (path : Path) : Option Outcome := Token.scan? path 0 pattern.tokens

/-- How far the pattern matches the path. -/
def find (pattern : Pattern) (path : Path) : Outcome := (pattern.find? path).getD .noMatch

/-- What to hand back after a match with the given outcome. There is nothing if
the outcome stops outside the path or inside a character. -/
def rendered? (pattern : Pattern) (path : Path) : Outcome → Option Rendered
  | .noMatch => some (.lent path)
  | .full => some (.lent pattern.substitute)
  | .leading stop => (dropBytes? stop path).map fun rest =>
    if pattern.substitute.isEmpty then .lent rest else .built (pattern.substitute ++ rest)

/-- The path after a match with the given outcome, if there is one. -/
def render? (pattern : Pattern) (path : Path) (outcome : Outcome) : Option Path :=
  (pattern.rendered? path outcome).map Rendered.path

/-- What to hand back after an outcome that was found on the path itself. -/
def rendered (pattern : Pattern) (path : Path) (outcome : Outcome) : Rendered :=
  (pattern.rendered? path outcome).getD (.lent path)

/-- Tries the pattern on a path. -/
def apply (pattern : Pattern) (path : Path) : Rendered :=
  pattern.rendered path (pattern.find path)

/-- The path with the pattern's placeholders replaced. A path that does not
match stays as it is. -/
def filter (pattern : Pattern) (path : Path) : Path := (pattern.apply path).path

/-! ### Lemmas -/

@[simp] theorem compile_expression (replacement expression : List Char) :
    (compile replacement expression).expression = expression := rfl

@[simp] theorem compile_replacement (replacement expression : List Char) :
    (compile replacement expression).replacement = replacement := rfl

@[simp] theorem compile_tokens (replacement expression : List Char) :
    (compile replacement expression).tokens = Token.ofExpression expression := rfl

@[simp] theorem compile_substitute (replacement expression : List Char) :
    (compile replacement expression).substitute =
      Token.fill replacement (Token.ofExpression expression) := rfl

theorem filter_of_noMatch {pattern : Pattern} {path : Path} (h : pattern.find path = .noMatch) :
    pattern.filter path = path := by
  simp [filter, apply, rendered, h, rendered?]

theorem filter_of_full {pattern : Pattern} {path : Path} (h : pattern.find path = .full) :
    pattern.filter path = pattern.substitute := by
  simp [filter, apply, rendered, h, rendered?]

end Pattern

end PathVeil
