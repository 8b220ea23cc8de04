import PathVeil.Text.CharClass

/-!
# PathVeil.Text.Width

How many columns of a terminal a text takes. Most characters take one column;
combining and invisible characters take none; the wide characters of East Asian
scripts and most pictographs take two. In a sequence of pictographs that are
joined into one picture, only the first one counts, and some pairs of letters
are drawn as one.
-/

namespace PathVeil.Width

/-! ### Characters -/

/-- Signs of number and abbreviation that are drawn over or under what they belong
to, and the caret of Devanagari. -/
def overlaid : CharClass := [
  (0x605, 0x605), (0x70F, 0x70F), (0x890, 0x891), (0x8E2, 0x8E2), (0xA8FA, 0xA8FA)]

/-- The columns of a character that stands alone. -/
def ofChar (c : Char) : Nat :=
  if c.toNat < 0x7F then 1
  else if c = '\u2D7F' then 1
  else if c = '\u115F' then 2
  else if c = '\u17D8' then 3
  else if CharClass.ignorable.contains c || CharClass.extending.contains c
      || CharClass.jamo.contains c || overlaid.contains c then 0
  else if CharClass.wide.contains c then 2
  else 1

/-! ### Pictures -/

/-- Asks for the picture form of the character before it. -/
def pictureSelector : Char := '\uFE0F'

/-- Keeps two letters apart. -/
def separator : Char := '\u200C'

/-- Joins two pictographs into one. -/
def joiner : Char := '\u200D'

/-- Changes the skin tone of the pictograph before it. -/
def isToneModifier (c : Char) : Bool := 0x1F3FB ≤ c.toNat && c.toNat ≤ 0x1F3FF

/-- Whether a character may be part of a joined picture. -/
def isPicture (c : Char) : Bool :=
  CharClass.pictorial.contains c
    || (0x231A ≤ c.toNat && c.toNat < 0x2E80 || 0x1F000 ≤ c.toNat) && ofChar c = 2

/-! ### Pairs of letters -/

/-- Pairs that are drawn as one: a character of the first class, and one of the
second that takes no column behind it. They are lam and alef in Arabic, the
subscript sign and a consonant in Khmer, and two tone letters in Lisu. -/
def ligatures : List (CharClass × CharClass) := [
  ([(0x644, 0x644), (0x6B5, 0x6B8), (0x76A, 0x76A), (0x8A6, 0x8A6), (0x8C7, 0x8C7)],
    [(0x622, 0x623), (0x625, 0x625), (0x627, 0x627), (0x671, 0x673), (0x675, 0x675),
      (0x773, 0x774), (0x870, 0x882)]),
  ([(0x17D2, 0x17D2)],
    [(0x1780, 0x1782), (0x1784, 0x1787), (0x1789, 0x178C), (0x178E, 0x1793), (0x1795, 0x1798),
      (0x179B, 0x179D), (0x17A0, 0x17A0), (0x17A2, 0x17A2), (0x17A7, 0x17A7), (0x17AB, 0x17AC),
      (0x17AF, 0x17AF)]),
  ([(0xA4F8, 0xA4FB)], [(0xA4FC, 0xA4FD)])]

/-- The characters that take no column behind a character. -/
def absorbed (c : Char) : CharClass :=
  ((ligatures.find? (·.1.contains c)).map (·.2)).getD []

/-! ### Texts -/

/-- What the characters so far mean for the next one. -/
structure State where
  /-- The columns so far. -/
  columns : Nat := 0
  /-- The last pictograph, unless something else came after it. -/
  picture : Option Char := none
  /-- Whether a joiner came after the pictograph. -/
  joined : Bool := false
  /-- The characters that take no column here. -/
  absorbs : CharClass := []

namespace State

/-- Takes in a character that is not part of the picture before it. -/
def letter (state : State) (c : Char) : State :=
  if state.absorbs.contains c then { columns := state.columns }
  else
    let transparent := ofChar c = 0 && c != separator && c != joiner
    { columns := state.columns + ofChar c
      picture := if isPicture c then some c else none
      absorbs := match absorbed c with
        | [] => if transparent then state.absorbs else []
        | ranges => ranges }

/-- Takes in one more character. -/
def step (state : State) (c : Char) : State :=
  match state.picture with
  | some base =>
    if c = pictureSelector then
      if CharClass.pictorial.contains base && !state.joined then
        { state with columns := state.columns + 1 }
      else state
    else if c = joiner then { state with joined := true }
    else if isToneModifier c && CharClass.tonable.contains base && !state.joined then
      { state with columns := state.columns + (2 - ofChar base) }
    else if state.joined && isPicture c then { state with picture := some c }
    else state.letter c
  | none => state.letter c

end State

/-- The columns of a text on one line. -/
def ofText (text : List Char) : Nat := (text.foldl State.step {}).columns

end PathVeil.Width
