import PathVeil.Yaml.Reader

/-!
# PathVeil.Yaml.Scalar

Reading the text of scalars: plain ones, quoted ones, and blocks. In plain and
quoted scalars a line break and the blanks around it read as one space, unless
further line breaks follow, which are kept; in blocks the indentation decides
what belongs to the text.
-/

namespace PathVeil.Yaml

/-! ### Gaps between words -/

/-- The blanks and line breaks between two pieces of a scalar. -/
structure Gap where
  /-- The blanks, if there is no line break. -/
  blanks : List Char := []
  /-- Whether there is a line break. -/
  broken : Bool := false
  firstBreak : List Char := []
  moreBreaks : List Char := []
  deriving Repr

namespace Gap

/-- The gap with one more line break. -/
def addBreak (gap : Gap) (c : Char) : Gap :=
  if gap.broken then { gap with moreBreaks := gap.moreBreaks ++ [normalizeBreak c] }
  else { broken := true, firstBreak := [normalizeBreak c] }

/-- What the gap reads as. -/
def text (gap : Gap) : List Char :=
  if !gap.broken then gap.blanks
  else if gap.firstBreak = ['\n'] then
    if gap.moreBreaks.isEmpty then [' '] else gap.moreBreaks
  else gap.firstBreak ++ gap.moreBreaks

/-- Reads on through blanks and line breaks. After a line break no tab may
stand to the left of `column`. -/
def read (column : Nat) (gap : Gap) (mark : Mark) : List Char → Except Error (Gap × Reader)
  | '\r' :: '\n' :: rest => read column (gap.addBreak '\n') (mark.newLine 2) rest
  | c :: rest =>
    if isBreak c then read column (gap.addBreak c) (mark.newLine 1) rest
    else if !isBlank c then .ok (gap, ⟨c :: rest, mark⟩)
    else if !gap.broken then
      read column { gap with blanks := gap.blanks ++ [c] } (mark.advance 1) rest
    else if c == '\t' && mark.column < column then
      .error ⟨"found a tab character that violates indentation", mark⟩
    else read column gap (mark.advance 1) rest
  | [] => .ok (gap, ⟨[], mark⟩)

end Gap

/-! ### Plain scalars -/

/-- A character that ends a plain scalar inside brackets. -/
def isFlowIndicator (c : Char) : Bool :=
  c == ',' || c == '[' || c == ']' || c == '{' || c == '}'

/-- The next piece of a plain scalar: what comes before a blank, a line break or
an indicator. -/
def plainPiece (inFlow : Bool) (mark : Mark) : List Char → Except Error (List Char × Reader)
  | [] => .ok ([], ⟨[], mark⟩)
  | c :: rest =>
    let next := rest.head?
    if isBlank c || isBreak c then .ok ([], ⟨c :: rest, mark⟩)
    else if inFlow && c == ':' && next.any (fun d => isFlowIndicator d || d == '?') then
      .error ⟨"found unexpected ':'", mark⟩
    else if c == ':' && isGap next || inFlow && isFlowIndicator c then .ok ([], ⟨c :: rest, mark⟩)
    else
      match plainPiece inFlow (mark.advance 1) rest with
      | .error e => .error e
      | .ok (piece, r) => .ok (c :: piece, r)

/-- Reads a plain scalar, piece by piece. `gap` is the gap in front of the next
piece. Also tells whether the scalar was ended by a line break. -/
def plainPieces (inFlow : Bool) (column : Nat) (text : List Char) (gap : Gap) (r : Reader) :
    Nat → Except Error (List Char × Bool × Reader)
  | 0 => .ok (text, gap.broken, r)
  | fuel + 1 =>
    if r.atDocumentMark || r.peek? == some '#' then .ok (text, gap.broken, r)
    else do
      let (piece, r) ← plainPiece inFlow r.mark r.rest
      let (text, gap) := if piece.isEmpty then (text, gap) else (text ++ gap.text ++ piece, {})
      if !(r.peek?.any fun c => isBlank c || isBreak c) then .ok (text, gap.broken, r)
      else
        let (gap, r) ← gap.read column r.mark r.rest
        if !inFlow && r.mark.column < column then .ok (text, gap.broken, r)
        else plainPieces inFlow column text gap r fuel

/-- Reads a plain scalar whose further lines have to reach `column`. -/
def readPlain (inFlow : Bool) (column : Nat) (r : Reader) :
    Except Error (List Char × Bool × Reader) :=
  plainPieces inFlow column [] {} r (r.rest.length + 1)

/-! ### Quoted scalars -/

/-- The value of a hexadecimal digit. -/
def hexValue? (c : Char) : Option Nat :=
  if c.isDigit then some (c.toNat - '0'.toNat)
  else if 'a' ≤ c && c ≤ 'f' then some (c.toNat - 'a'.toNat + 10)
  else if 'A' ≤ c && c ≤ 'F' then some (c.toNat - 'A'.toNat + 10)
  else none

/-- The number of `count` hexadecimal digits. -/
def hexNumber? (value : Nat) : Nat → List Char → Option Nat
  | 0, _ => some value
  | _ + 1, [] => none
  | count + 1, c :: rest => do hexNumber? (value * 16 + (← hexValue? c)) count rest

/-- The character of an escape with a number of `count` digits. -/
def numberEscape (count : Nat) (r : Reader) : Except Error (Char × Reader) :=
  match hexNumber? 0 count (r.rest.drop 2) with
  | none => r.fail "did not find expected hexdecimal number"
  | some n =>
    if n.isValidChar then .ok (Char.ofNat n, r.skip (2 + count))
    else r.fail "found invalid Unicode character escape code"

/-- The character of an escape of one letter. -/
def letterEscape? : Char → Option Char
  | '0' => some '\x00'
  | 'a' => some '\x07'
  | 'b' => some '\x08'
  | 't' => some '\t'
  | '\t' => some '\t'
  | 'n' => some '\n'
  | 'v' => some '\x0b'
  | 'f' => some '\x0c'
  | 'r' => some '\r'
  | 'e' => some '\x1b'
  | ' ' => some ' '
  | '"' => some '"'
  | '/' => some '/'
  | '\\' => some '\\'
  | 'N' => some '\u0085'
  | '_' => some '\u00A0'
  | 'L' => some '\u2028'
  | 'P' => some '\u2029'
  | _ => none

/-- Reads an escape, from its backslash on. -/
def readEscape (r : Reader) : Except Error (Char × Reader) :=
  match r.peekSecond? with
  | some 'x' => numberEscape 2 r
  | some 'u' => numberEscape 4 r
  | some 'U' => numberEscape 8 r
  | some c =>
    match letterEscape? c with
    | some d => .ok (d, r.skip 2)
    | none => r.fail "found unknown escape character"
  | none => r.fail "found unknown escape character"

/-- Reads a quoted scalar up to the closing quote. `text` is what has been read,
last character first. -/
def quotedText (quote : Char) (text : List Char) (r : Reader) :
    Nat → Except Error (List Char × Reader)
  | 0 => r.fail "found unexpected end of stream"
  | fuel + 1 =>
    match r.rest with
    | [] => r.fail "found unexpected end of stream"
    | c :: _ =>
      if r.atDocumentMark then r.fail "found unexpected document indicator"
      else if c == quote then
        if quote == '\'' && r.peekSecond? == some quote then
          quotedText quote (quote :: text) (r.skip 2) fuel
        else .ok (text.reverse, r.skip 1)
      else if quote == '"' && c == '\\' then
        if r.peekSecond?.any isBreak then do
          let r := (r.skip 1).readBreak.2
          let (gap, r) ← Gap.read 0 { broken := true } r.mark r.rest
          quotedText quote (gap.text.reverse ++ text) r fuel
        else do
          let (d, r) ← readEscape r
          quotedText quote (d :: text) r fuel
      else if isBlank c || isBreak c then do
        let (gap, r) ← Gap.read 0 {} r.mark r.rest
        quotedText quote (gap.text.reverse ++ text) r fuel
      else quotedText quote (c :: text) (r.skip 1) fuel

/-- Reads a quoted scalar, from its opening quote on. -/
def readQuoted (quote : Char) (r : Reader) : Except Error (List Char × Reader) :=
  quotedText quote [] (r.skip 1) (r.rest.length + 1)

/-! ### Blocks -/

/-- What becomes of the line breaks at the end of a block. -/
inductive Chomping where
  /-- All are dropped. -/
  | strip
  /-- One is kept. -/
  | clip
  /-- All are kept. -/
  | keep
  deriving DecidableEq, Repr

/-- The chomping indicator. -/
def chomping? : Option Char → Option Chomping
  | some '+' => some .keep
  | some '-' => some .strip
  | _ => none

/-- The indentation indicator. -/
def indentation? (r : Reader) : Except Error (Option Nat) :=
  match r.peek? with
  | some '0' => r.fail "found an indentation indicator equal to 0"
  | some c => .ok (if c.isDigit then some (c.toNat - '0'.toNat) else none)
  | none => .ok none

/-- Reads the indicators at the head of a block, in either order. -/
def blockHeader (r : Reader) : Except Error (Chomping × Option Nat × Reader) :=
  match chomping? r.peek? with
  | some chomping => do
    let r := r.skip 1
    match ← indentation? r with
    | some n => return (chomping, some n, r.skip 1)
    | none => return (chomping, none, r)
  | none => do
    match ← indentation? r with
    | some n =>
      let r := r.skip 1
      match chomping? r.peek? with
      | some chomping => return (chomping, some n, r.skip 1)
      | none => return (.clip, some n, r)
    | none => return (.clip, none, r)

/-- Reads the empty lines in front of a line of a block. The indentation of the
block is `indent`; where that is not known yet, the greatest column reached
decides, but it is at least `least`. Gives the line breaks and the indentation. -/
def blockGap (least : Nat) (indent : Option Nat) (reached : Nat) (breaks : List Char)
    (mark : Mark) : List Char → Except Error (List Char × Nat × Reader)
  | '\r' :: '\n' :: rest =>
    blockGap least indent (max reached mark.column) (breaks ++ ['\n']) (mark.newLine 2) rest
  | c :: rest =>
    let outside := indent.all (mark.column < ·)
    if c == ' ' && outside then blockGap least indent reached breaks (mark.advance 1) rest
    else if c == '\t' && outside then
      .error ⟨"found a tab character where an indentation space is expected", mark⟩
    else if isBreak c then
      blockGap least indent (max reached mark.column) (breaks ++ [normalizeBreak c])
        (mark.newLine 1) rest
    else .ok (breaks, indent.getD (max (max reached mark.column) least), ⟨c :: rest, mark⟩)
  | [] => .ok (breaks, indent.getD (max (max reached mark.column) least), ⟨[], mark⟩)

/-- A block in the making. -/
structure Block where
  text : List Char := []
  /-- The break that ended the last line. -/
  lineBreak : List Char := []
  /-- The empty lines behind it. -/
  emptyLines : List Char := []
  /-- Whether the last line began with a blank. -/
  afterBlank : Bool := false

/-- The text up to the next line, which begins with a blank or does not. In a
folded block, a single break between two lines that begin with no blank reads
as a space. -/
def Block.joined (folded : Bool) (block : Block) (startsBlank : Bool) : List Char :=
  if folded && block.lineBreak == ['\n'] && !block.afterBlank && !startsBlank then
    if block.emptyLines.isEmpty then block.text ++ [' '] else block.text ++ block.emptyLines
  else block.text ++ block.lineBreak ++ block.emptyLines

/-- Reads the lines of a block with the given indentation. -/
def blockLines (folded : Bool) (indent : Nat) (block : Block) (r : Reader) :
    Nat → Except Error (Block × Reader)
  | 0 => .ok (block, r)
  | fuel + 1 =>
    if r.mark.column != indent || r.rest.isEmpty then .ok (block, r)
    else do
      let startsBlank := r.peek?.any isBlank
      let text := block.joined folded startsBlank
      let (line, r) := r.takeWhile fun c => !isBreak c
      let (lineBreak, r) := r.readBreak
      let (emptyLines, _, r) ← blockGap 0 (some indent) 0 [] r.mark r.rest
      blockLines folded indent ⟨text ++ line, lineBreak, emptyLines, startsBlank⟩ r fuel

/-- Reads a block, from its indicator on. `parent` is the indentation around it. -/
def readBlock (folded : Bool) (parent : Int) (r : Reader) : Except Error (List Char × Reader) := do
  let (chomping, increment, r) ← blockHeader (r.skip 1)
  let r ← r.finishLine
  let fixed := increment.map (parent.toNat + ·)
  let (emptyLines, indent, r) ← blockGap (max (parent + 1).toNat 1) fixed 0 [] r.mark r.rest
  let (block, r) ← blockLines folded indent { emptyLines } r (r.rest.length + 1)
  let ending := match chomping with
    | .strip => []
    | .clip => block.lineBreak
    | .keep => block.lineBreak ++ block.emptyLines
  return (block.text ++ ending, r)

end PathVeil.Yaml
