/-!
# PathVeil.Text.Utf8

Characters as UTF-8 bytes and back. Reading never fails: what is not UTF-8 is
reported piece by piece, a piece being as long as it can be while it could
still have become a character, and one byte otherwise.

* `Utf8.encode` — the bytes of a text;
* `Utf8.pieces` — the characters and the invalid pieces of a byte sequence;
* `Utf8.decode?` — the text, if all of it is valid;
* `Utf8.decodeLossy` — the text with a replacement character for every invalid
  piece.
-/

namespace PathVeil.Utf8

/-! ### Writing -/

/-- The bytes of a text. -/
def encode (text : List Char) : List UInt8 := text.flatMap String.utf8EncodeChar

@[simp] theorem encode_nil : encode [] = [] := rfl

@[simp] theorem encode_cons (c : Char) (text : List Char) :
    encode (c :: text) = String.utf8EncodeChar c ++ encode text := rfl

@[simp] theorem encode_append (s t : List Char) : encode (s ++ t) = encode s ++ encode t := by
  simp [encode]

/-! ### Reading -/

/-- A character of which some bytes have been read. -/
structure Pending where
  /-- The bits so far. -/
  bits : Nat
  /-- The number of bytes that are still owed, less one. -/
  more : Nat
  /-- The least byte that may come next. -/
  low : UInt8
  /-- The greatest byte that may come next. -/
  high : UInt8
  deriving DecidableEq, Repr

/-- What a byte means where a character may begin. -/
inductive First where
  /-- The byte is a character. -/
  | whole (c : Char)
  /-- The byte begins a longer character. -/
  | opens (pending : Pending)
  /-- No character begins with this byte. -/
  | invalid

/-- The meaning of a byte where a character may begin. The bounds on the second
byte keep out surrogates, numbers above the last character, and characters that
have a shorter form. -/
def first (b : UInt8) : First :=
  if b ≤ 0x7F then .whole (Char.ofNat b.toNat)
  else if b < 0xC2 then .invalid
  else if b ≤ 0xDF then .opens ⟨b.toNat % 32, 0, 0x80, 0xBF⟩
  else if b = 0xE0 then .opens ⟨0, 1, 0xA0, 0xBF⟩
  else if b = 0xED then .opens ⟨13, 1, 0x80, 0x9F⟩
  else if b ≤ 0xEF then .opens ⟨b.toNat % 16, 1, 0x80, 0xBF⟩
  else if b = 0xF0 then .opens ⟨0, 2, 0x90, 0xBF⟩
  else if b ≤ 0xF3 then .opens ⟨b.toNat % 8, 2, 0x80, 0xBF⟩
  else if b = 0xF4 then .opens ⟨4, 2, 0x80, 0x8F⟩
  else .invalid

/-- The pieces of a byte sequence, after the bytes of a pending character. An
invalid piece is `none`. -/
def piecesFrom : Option Pending → List UInt8 → List (Option Char)
  | none, [] => []
  | some _, [] => [none]
  | none, b :: bytes =>
    match first b with
    | .whole c => some c :: piecesFrom none bytes
    | .opens pending => piecesFrom (some pending) bytes
    | .invalid => none :: piecesFrom none bytes
  | some pending, b :: bytes =>
    if pending.low ≤ b ∧ b ≤ pending.high then
      let bits := pending.bits * 64 + b.toNat % 64
      match pending.more with
      | 0 => some (Char.ofNat bits) :: piecesFrom none bytes
      | more + 1 => piecesFrom (some ⟨bits, more, 0x80, 0xBF⟩) bytes
    else
      -- The piece ends here, and the byte is looked at as a first byte.
      match first b with
      | .whole c => none :: some c :: piecesFrom none bytes
      | .opens pending => none :: piecesFrom (some pending) bytes
      | .invalid => none :: none :: piecesFrom none bytes

/-- The characters and the invalid pieces of a byte sequence. -/
def pieces (bytes : List UInt8) : List (Option Char) := piecesFrom none bytes

/-- Whether a byte sequence is UTF-8 throughout. -/
def isValid (bytes : List UInt8) : Bool := (pieces bytes).all Option.isSome

/-- The text of a byte sequence that is UTF-8 throughout. -/
def decode? (bytes : List UInt8) : Option (List Char) := (pieces bytes).mapM id

/-- What stands for an invalid piece. -/
def replacementCharacter : Char := '\uFFFD'

/-- The text of a byte sequence, whatever it holds. -/
def decodeLossy (bytes : List UInt8) : List Char :=
  (pieces bytes).map (·.getD replacementCharacter)

end PathVeil.Utf8
