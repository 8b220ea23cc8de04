/-!
# PathVeil.Segment

Slash-separated texts. A path or a pattern expression is a list of characters;
this file cuts it into segments at each `/`, drops the empty segments a
trailing slash leaves behind, and recognises placeholder segments.

Sizes count the bytes of the UTF-8 form, since every limit and every position
that users see is in bytes.
-/

namespace PathVeil

/-- A request path, character by character. -/
abbrev Path := List Char

/-- The character between two segments. -/
def separator : Char := '/'

/-- The number of bytes a text takes in UTF-8. -/
def byteSize : List Char → Nat
  | [] => 0
  | c :: text => c.utf8Size + byteSize text

@[simp] theorem byteSize_nil : byteSize [] = 0 := rfl

@[simp] theorem byteSize_cons (c : Char) (text : List Char) :
    byteSize (c :: text) = c.utf8Size + byteSize text := rfl

@[simp] theorem byteSize_append (s t : List Char) : byteSize (s ++ t) = byteSize s + byteSize t := by
  induction s with
  | nil => simp
  | cons c s ih => simp [ih, Nat.add_assoc]

theorem byteSize_eq_zero_iff {text : List Char} : byteSize text = 0 ↔ text = [] := by
  cases text with
  | nil => simp
  | cons c text =>
    have := c.utf8Size_pos
    rw [byteSize_cons]
    simp only [reduceCtorEq, iff_false]
    omega

namespace Segment

/-! ### Cutting and joining -/

/-- The segments of a text, empty ones included. There is always at least one. -/
def split : List Char → List (List Char)
  | [] => [[]]
  | c :: text =>
    if c = separator then [] :: split text
    else
      match split text with
      | [] => [[c]]
      | first :: others => (c :: first) :: others

/-- The text with the given segments. -/
def join : List (List Char) → List Char
  | [] => []
  | [segment] => segment
  | segment :: others => segment ++ separator :: join others

/-- Leaves out the empty segments at the end, so that `/a/` and `/a` have the
same segments and `/` has none. -/
def trim (segments : List (List Char)) : List (List Char) :=
  (segments.reverse.dropWhile List.isEmpty).reverse

/-- A segment in braces stands for any one segment. -/
def isPlaceholder (segment : List Char) : Bool :=
  segment.head? == some '{' && segment.getLast? == some '}'

/-- Whether the segment holds a brace at all. -/
def hasBrace (segment : List Char) : Bool :=
  segment.contains '{' || segment.contains '}'

/-- The segments that decide what an expression matches: all of them, save the
empty ones at its end. -/
def significant (expression : List Char) : List (List Char) := trim (split expression)

/-! ### Lemmas -/

theorem split_ne_nil (text : List Char) : split text ≠ [] := by
  cases text with
  | nil => simp [split]
  | cons c text =>
    unfold split
    split
    · simp
    · split <;> simp

theorem join_split (text : List Char) : join (split text) = text := by
  induction text with
  | nil => rfl
  | cons c text ih =>
    unfold split
    split
    · rename_i h
      subst h
      cases hs : split text with
      | nil => exact absurd hs (split_ne_nil text)
      | cons first others => rw [hs] at ih; simp [join, ih]
    · cases hs : split text with
      | nil => exact absurd hs (split_ne_nil text)
      | cons first others =>
        rw [hs] at ih
        cases others with
        | nil => simpa [join] using ih
        | cons second others => simpa [join] using ih

end Segment

end PathVeil
