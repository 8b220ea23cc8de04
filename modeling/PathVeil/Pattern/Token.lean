import PathVeil.Segment

/-!
# PathVeil.Pattern.Token

A pattern expression such as `/orders/{id}/items` becomes an alternating
sequence of literal texts and wildcards. Neighbouring literal segments and the
slashes around them are merged into one literal, so that matching compares as
much text as possible at once.

* `Token.ofSegments` — the tokens of a list of segments;
* `Token.ofExpression` — the tokens of an expression;
* `Token.fill` — the text with a replacement put in for every wildcard.
-/

namespace PathVeil

/-- A piece of a pattern. -/
inductive Token where
  /-- Text that has to occur as it stands. -/
  | literal (text : List Char)
  /-- Any text up to the next separator. -/
  | wildcard
  deriving DecidableEq, Repr

namespace Token

/-- A literal in front of the tokens, unless it is empty. -/
def prepend (text : List Char) (tokens : List Token) : List Token :=
  if text.isEmpty then tokens else .literal text :: tokens

/-- What stands between a segment and those that follow it: one separator, or
nothing after the last. -/
def gap (others : List (List Char)) : List Char :=
  if others.isEmpty then [] else [separator]

/-- The tokens of the segments, after the literal text that is still open. A
placeholder closes it; every other segment extends it. -/
def ofSegments (text : List Char) : List (List Char) → List Token
  | [] => prepend text []
  | segment :: others =>
    if Segment.isPlaceholder segment then
      prepend text (.wildcard :: ofSegments (gap others) others)
    else
      ofSegments (text ++ segment ++ gap others) others

/-- The tokens of an expression. Trailing slashes do not count. -/
def ofExpression (expression : List Char) : List Token :=
  ofSegments [] (Segment.significant expression)

/-- The text a token stands for once every wildcard is replaced. -/
def text (replacement : List Char) : Token → List Char
  | .literal text => text
  | .wildcard => replacement

/-- The text of all tokens with the replacement in place of every wildcard. -/
def fill (replacement : List Char) (tokens : List Token) : List Char :=
  tokens.flatMap (text replacement)

@[simp] theorem prepend_nil (tokens : List Token) : prepend [] tokens = tokens := rfl

theorem prepend_of_ne_nil {text : List Char} (h : text ≠ []) (tokens : List Token) :
    prepend text tokens = .literal text :: tokens := by
  rw [prepend, if_neg (by rwa [List.isEmpty_iff])]

@[simp] theorem gap_nil : gap [] = [] := rfl

theorem gap_of_ne_nil {others : List (List Char)} (h : others ≠ []) : gap others = [separator] := by
  rw [gap, if_neg (by rwa [List.isEmpty_iff])]

@[simp] theorem fill_nil (replacement : List Char) : fill replacement [] = [] := rfl

@[simp] theorem fill_cons (replacement : List Char) (token : Token) (tokens : List Token) :
    fill replacement (token :: tokens) = token.text replacement ++ fill replacement tokens := rfl

end Token

end PathVeil
