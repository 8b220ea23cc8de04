import PathVeil.Yaml.Scalar

/-!
# PathVeil.Yaml.Token

The tokens of a YAML text. Indentation becomes explicit brackets around block
collections. A simple key is recognised only by the colon behind it, so where
one may begin is remembered, and its token is put in later.
-/

namespace PathVeil.Yaml

/-- The way a scalar is written. -/
inductive Style where
  | plain
  | singleQuoted
  | doubleQuoted
  | literal
  | folded
  deriving DecidableEq, Repr

/-- A token. -/
inductive Token where
  | versionDirective (major minor : Nat)
  | tagDirective (handle start : List Char)
  | documentStart
  | documentEnd
  | blockSequenceStart
  | blockMappingStart
  | blockEnd
  | flowSequenceStart
  | flowSequenceEnd
  | flowMappingStart
  | flowMappingEnd
  | blockEntry
  | flowEntry
  | key
  | value
  | anchor (name : List Char)
  | alias (name : List Char)
  | tag (handle suffix : List Char)
  | scalar (text : List Char) (style : Style)
  | streamEnd
  deriving DecidableEq, Repr

/-! ### Directives, tags and anchors -/

/-- Reads a number of at most nine digits. -/
def readVersionNumber (r : Reader) : Except Error (Nat × Reader) :=
  let (digits, next) := r.takeWhile Char.isDigit
  if digits.isEmpty then r.fail "did not find expected version number"
  else if digits.length > 9 then r.fail "found extremely long version number"
  else .ok (digits.foldl (fun n c => n * 10 + (c.toNat - '0'.toNat)) 0, next)

/-- Reads a tag handle: `!`, `!!` or `!word!`. In a directive nothing else will
do; elsewhere `!word` is the beginning of a tag. -/
def readTagHandle (inDirective : Bool) (r : Reader) : Except Error (List Char × Reader) :=
  if r.peek? ≠ some '!' then r.fail "did not find expected '!'"
  else
    let (word, next) := (r.skip 1).takeWhile isWordChar
    if next.peek? = some '!' then .ok ('!' :: word ++ ['!'], next.skip 1)
    else if inDirective && !word.isEmpty then next.fail "did not find expected '!'"
    else .ok ('!' :: word, next)

/-- A character of tags, apart from escapes. -/
def isTagChar (verbatim : Bool) (c : Char) : Bool :=
  isWordChar c || ";/?:@&=+$.!~*'()".toList.contains c || verbatim && ",[]".toList.contains c

/-- The byte of an escape `%hh`. -/
def tagEscape? : List Char → Option Nat
  | '%' :: a :: b :: _ => do return (← hexValue? a) * 16 + (← hexValue? b)
  | _ => none

/-- Reads the bytes that continue an escaped character. -/
def moreTagEscapes (bits : Nat) (r : Reader) : Nat → Except Error (Nat × Reader)
  | 0 => .ok (bits, r)
  | count + 1 =>
    match tagEscape? r.rest with
    | none => r.fail "did not find URI escaped octet"
    | some byte =>
      if byte / 64 ≠ 2 then r.fail "found an incorrect trailing UTF-8 octet"
      else moreTagEscapes (bits * 64 + byte % 64) (r.skip 3) count

/-- Reads an escaped character of a tag. -/
def readTagEscape (r : Reader) : Except Error (Char × Reader) :=
  match tagEscape? r.rest with
  | none => r.fail "did not find URI escaped octet"
  | some byte => do
    let (bits, count) ←
      if byte < 0x80 then pure (byte, 0)
      else if byte / 32 = 6 then pure (byte % 32, 1)
      else if byte / 16 = 14 then pure (byte % 16, 2)
      else if byte / 8 = 30 then pure (byte % 8, 3)
      else r.fail "found an incorrect leading UTF-8 octet"
    let (n, r) ← moreTagEscapes bits (r.skip 3) count
    return (Char.ofNat n, r)

/-- Reads characters of a tag. -/
def tagText (verbatim : Bool) (text : List Char) (r : Reader) :
    Nat → Except Error (List Char × Reader)
  | 0 => .ok (text, r)
  | fuel + 1 =>
    let (taken, r) := r.takeWhile (isTagChar verbatim)
    let text := text ++ taken
    if r.peek? = some '%' then do
      let (c, r) ← readTagEscape r
      tagText verbatim (text ++ [c]) r fuel
    else .ok (text, r)

/-- Reads the text of a tag behind what has been read of it. -/
def readTagText (verbatim : Bool) (start : List Char) (r : Reader) :
    Except Error (List Char × Reader) := do
  let (text, next) ← tagText verbatim [] r (r.rest.length + 1)
  if start.isEmpty && text.isEmpty then r.fail "did not find expected tag URI"
  else return (start.drop 1 ++ text, next)

/-- Reads a directive, from its percent sign on. -/
def readDirective (r : Reader) : Except Error (Token × Reader) := do
  let (name, next) := (r.skip 1).takeWhile isWordChar
  if name.isEmpty then next.fail "could not find expected directive name"
  else if !isGap next.peek? then next.fail "found unexpected non-alphabetical character"
  else if name = "YAML".toList then
    let (major, next) ← readVersionNumber next.skipBlanks
    if next.peek? ≠ some '.' then next.fail "did not find expected digit or '.' character"
    else
      let (minor, next) ← readVersionNumber (next.skip 1)
      return (.versionDirective major minor, ← next.finishLine)
  else if name = "TAG".toList then
    let (handle, next) ← readTagHandle true next.skipBlanks
    if !next.peek?.any isBlank then next.fail "did not find expected whitespace"
    else
      let (start, next) ← readTagText true [] next.skipBlanks
      if !isGap next.peek? then next.fail "did not find expected whitespace or line break"
      else return (.tagDirective handle start, ← next.finishLine)
  else r.fail "found unknown directive name"

/-- Reads a tag. -/
def readTag (inFlow : Bool) (r : Reader) : Except Error (Token × Reader) := do
  let (handle, suffix, next) ←
    if r.peekSecond? = some '<' then
      let (suffix, next) ← readTagText true [] (r.skip 2)
      if next.peek? ≠ some '>' then next.fail "did not find the expected '>'"
      else pure ([], suffix, next.skip 1)
    else
      let (handle, next) ← readTagHandle false r
      if 1 < handle.length && handle.getLast? = some '!' then
        let (suffix, next) ← readTagText false [] next
        pure (handle, suffix, next)
      else
        let (suffix, next) ← readTagText false handle next
        if suffix.isEmpty then pure ([], ['!'], next) else pure (['!'], suffix, next)
  if (!inFlow || next.peek? ≠ some ',') && !isGap next.peek? then
    next.fail "did not find expected whitespace or line break"
  else return (.tag handle suffix, next)

/-- Reads the name of an anchor or an alias, from its indicator on. -/
def readName (r : Reader) : Except Error (List Char × Reader) :=
  let (name, next) := (r.skip 1).takeWhile isWordChar
  let ended := isGap next.peek? || next.peek?.any ("?:,]\x7d%@`".toList.contains ·)
  if name.isEmpty || !ended then
    next.fail "did not find expected alphabetic or numeric character"
  else .ok (name, next)

/-! ### The scanner -/

/-- A place where a simple key may have begun. -/
structure PendingKey where
  /-- Whether nothing but a key can stand there. -/
  required : Bool
  /-- The number of tokens in front of it. -/
  number : Nat
  mark : Mark

/-- The state of the scanner. -/
structure Scanner where
  reader : Reader
  tokens : Array (Token × Mark) := #[]
  /-- The column of the innermost block collection, or `-1`. -/
  indent : Int := -1
  /-- The columns of those around it. -/
  indents : List Int := []
  /-- The pending key of the innermost flow collection. -/
  pending : Option PendingKey := none
  /-- Those of what is around it; their number is the depth of flow collections. -/
  outer : List (Option PendingKey) := []
  /-- Whether a simple key may begin here. -/
  keyAllowed : Bool := true

namespace Scanner

/-- A step of the scanner. -/
abbrev Step := Scanner → Except Error Scanner

/-- Whether the scanner is inside a flow collection. -/
def inFlow (s : Scanner) : Bool := !s.outer.isEmpty

/-- Adds a token. -/
def push (s : Scanner) (token : Token) : Scanner :=
  { s with tokens := s.tokens.push (token, s.reader.mark) }

/-- Adds a token of `n` characters and passes over them. -/
def take (s : Scanner) (token : Token) (n : Nat) : Scanner :=
  { s.push token with reader := s.reader.skip n }

/-- Adds a token that was read up to the given reader. -/
def takeTo (s : Scanner) (token : Token) (reader : Reader) : Scanner :=
  { s.push token with reader }

/-- Fails because a key has no colon. -/
def missingColon {α : Type} (key : PendingKey) : Except Error α :=
  .error ⟨"could not find expected ':'", key.mark⟩

/-- Gives up a pending key that can no longer be one: a simple key stays on its
line and is at most 1024 characters long. -/
def dropStale (s : Scanner) : Except Error Scanner :=
  let stale (key : PendingKey) : Bool :=
    key.mark.line < s.reader.mark.line || key.mark.index + 1024 < s.reader.mark.index
  let check : Option PendingKey → Except Error (Option PendingKey)
    | none => .ok none
    | some key => if !stale key then .ok (some key)
      else if key.required then missingColon key else .ok none
  do return { s with pending := ← check s.pending, outer := ← s.outer.mapM check }

/-- Gives up the pending key. -/
def dropKey (s : Scanner) : Except Error Scanner :=
  match s.pending with
  | none => .ok s
  | some key => if key.required then missingColon key else .ok { s with pending := none }

/-- Remembers that a simple key may begin here. -/
def saveKey (s : Scanner) : Except Error Scanner :=
  if !s.keyAllowed then .ok s
  else do
    let s ← s.dropKey
    let required := !s.inFlow && s.indent == (s.reader.mark.column : Int)
    return { s with pending := some ⟨required, s.tokens.size, s.reader.mark⟩ }

/-- Opens a block collection at a column, unless it is open. -/
def openBlock (s : Scanner) (column : Nat) (number : Nat) (token : Token) (mark : Mark) : Scanner :=
  if s.inFlow || (column : Int) ≤ s.indent then s
  else
    { s with
      tokens := s.tokens.insertIdxIfInBounds number (token, mark)
      indent := column
      indents := s.indent :: s.indents }

/-- The block collections that reach further right than a column, closed. -/
def closeTo (column indent : Int) : List Int → Nat × Int × List Int
  | [] => (0, indent, [])
  | outer :: indents =>
    if column < indent then
      let (closed, indent, indents) := closeTo column outer indents
      (closed + 1, indent, indents)
    else (0, indent, outer :: indents)

/-- Closes the block collections that reach further right than a column. -/
def closeBlocks (s : Scanner) (column : Int) : Scanner :=
  if s.inFlow then s
  else
    let (closed, indent, indents) := closeTo column s.indent s.indents
    { s with
      tokens := s.tokens ++ (List.replicate closed (Token.blockEnd, s.reader.mark)).toArray
      indent, indents }

/-! ### One token -/

/-- Passes over blanks, comments and line breaks. Outside flow collections a new
line may begin with a simple key, and a tab may not stand where a key may
begin. -/
def skipSpace (s : Scanner) : Nat → Scanner
  | 0 => s
  | fuel + 1 =>
    let r := s.reader
    let r := if r.mark.column = 0 && r.peek? = some byteOrderMark then r.skip 1 else r
    let tabs := s.inFlow || !s.keyAllowed
    let r := (r.takeWhile fun c => c == ' ' || tabs && c == '\t').2.skipComment
    if r.peek?.any isBreak then
      { s with reader := r.readBreak.2, keyAllowed := s.keyAllowed || !s.inFlow }.skipSpace fuel
    else { s with reader := r }

/-- Closes all block collections before something that belongs to no document. -/
def leaveDocument (s : Scanner) : Except Error Scanner := do
  let s ← (s.closeBlocks (-1)).dropKey
  return { s with keyAllowed := false }

/-- A directive. -/
def directive : Step := fun s => do
  let s ← s.leaveDocument
  let (token, reader) ← readDirective s.reader
  return s.takeTo token reader

/-- The mark at the beginning or the end of a document. -/
def documentMark (token : Token) : Step := fun s => do
  return (← s.leaveDocument).take token 3

/-- The beginning of a flow collection. -/
def openFlow (token : Token) : Step := fun s => do
  let s ← s.saveKey
  return { s with pending := none, outer := s.pending :: s.outer, keyAllowed := true }.take token 1

/-- The end of a flow collection. -/
def closeFlow (token : Token) : Step := fun s => do
  let s ← s.dropKey
  let (pending, outer) := match s.outer with
    | [] => (s.pending, [])
    | pending :: outer => (pending, outer)
  return { s with pending, outer, keyAllowed := false }.take token 1

/-- The comma of a flow collection. -/
def flowEntry : Step := fun s => do
  return { (← s.dropKey) with keyAllowed := true }.take .flowEntry 1

/-- Opens a block collection here, where that is possible. -/
def openHere (s : Scanner) (token : Token) (problem : String) : Except Error Scanner :=
  if s.inFlow then .ok s
  else if !s.keyAllowed then s.reader.fail problem
  else .ok (s.openBlock s.reader.mark.column s.tokens.size token s.reader.mark)

/-- The dash of a block sequence. -/
def blockEntry : Step := fun s => do
  let s ← s.openHere .blockSequenceStart "block sequence entries are not allowed in this context"
  return { (← s.dropKey) with keyAllowed := true }.take .blockEntry 1

/-- The question mark in front of a key. -/
def explicitKey : Step := fun s => do
  let s ← s.openHere .blockMappingStart "mapping keys are not allowed in this context"
  let s ← s.dropKey
  return { s with keyAllowed := !s.inFlow }.take .key 1

/-- The colon in front of a value. If a simple key is pending, its token is put
in where it began. -/
def value : Step := fun s =>
  match s.pending with
  | some key =>
    let s := { s with tokens := s.tokens.insertIdxIfInBounds key.number (.key, key.mark) }
    let s := s.openBlock key.mark.column key.number .blockMappingStart key.mark
    .ok ({ s with pending := none, keyAllowed := false }.take .value 1)
  | none => do
    let s ← s.openHere .blockMappingStart "mapping values are not allowed in this context"
    return { s with keyAllowed := !s.inFlow }.take .value 1

/-- An anchor, an alias, a tag, or a quoted scalar: a token that may begin a
simple key. -/
def inLine (read : Reader → Except Error (Token × Reader)) : Step := fun s => do
  let s ← s.saveKey
  let (token, reader) ← read s.reader
  return { s with keyAllowed := false }.takeTo token reader

/-- A block scalar. -/
def blockScalar (style : Style) : Step := fun s => do
  let s ← s.dropKey
  let (text, reader) ← readBlock (style == .folded) s.indent s.reader
  return { s with keyAllowed := true }.takeTo (.scalar text style) reader

/-- A plain scalar. -/
def plainScalar : Step := fun s => do
  let s ← s.saveKey
  let (text, broken, reader) ← readPlain s.inFlow (s.indent + 1).toNat s.reader
  return { s with keyAllowed := broken }.takeTo (.scalar text .plain) reader

/-- Whether a plain scalar begins with these characters. -/
def beginsPlain (inFlow : Bool) (c : Char) (next : Option Char) : Bool :=
  !("-?:,[]\x7b\x7d#&*!|>'\"%@`".toList.contains c || isBlank c || isBreak c)
    || c == '-' && !next.any isBlank
    || !inFlow && (c == '?' || c == ':') && !isGap next

/-- Reads the token that begins with the character `c`. -/
def token (c : Char) : Step := fun s =>
  let r := s.reader
  let next := r.peekSecond?
  if r.mark.column == 0 && c == '%' then s.directive
  else if r.atDocumentMark then s.documentMark (if c == '-' then .documentStart else .documentEnd)
  else if c == '[' then s.openFlow .flowSequenceStart
  else if c == '{' then s.openFlow .flowMappingStart
  else if c == ']' then s.closeFlow .flowSequenceEnd
  else if c == '}' then s.closeFlow .flowMappingEnd
  else if c == ',' then s.flowEntry
  else if c == '-' && isGap next then s.blockEntry
  else if c == '?' && (s.inFlow || isGap next) then s.explicitKey
  else if c == ':' && (s.inFlow || isGap next) then s.value
  else if c == '*' then s.inLine fun r => (readName r).map fun (name, r) => (.alias name, r)
  else if c == '&' then s.inLine fun r => (readName r).map fun (name, r) => (.anchor name, r)
  else if c == '!' then s.inLine (readTag s.inFlow)
  else if c == '|' && !s.inFlow then s.blockScalar .literal
  else if c == '>' && !s.inFlow then s.blockScalar .folded
  else if c == '\'' then
    s.inLine fun r => (readQuoted c r).map fun (text, r) => (.scalar text .singleQuoted, r)
  else if c == '"' then
    s.inLine fun r => (readQuoted c r).map fun (text, r) => (.scalar text .doubleQuoted, r)
  else if beginsPlain s.inFlow c next then s.plainScalar
  else r.fail "found character that cannot start any token"

/-- Reads tokens to the end of the text. -/
def run (s : Scanner) : Nat → Except Error (Array (Token × Mark))
  | 0 => s.reader.fail "text too long"
  | fuel + 1 => do
    let s ← (s.skipSpace (s.reader.rest.length + 1)).dropStale
    let s := s.closeBlocks s.reader.mark.column
    match s.reader.peek? with
    | none => return ((← s.leaveDocument).push .streamEnd).tokens
    | some c => (← s.token c).run fuel

end Scanner

/-- The tokens of a text, the last being the end of the stream. -/
def Token.ofText (text : List Char) : Except Error (List (Token × Mark)) :=
  match text.findIdx? (!isPermitted ·) with
  | some index => .error ⟨"control characters are not allowed", { index }⟩
  | none => do
    let tokens ← ({ reader := { rest := text } } : Scanner).run (text.length + 2)
    return tokens.toList

end PathVeil.Yaml
