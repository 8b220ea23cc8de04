/-!
# PathVeil.Digest.Sha256

The SHA-256 digest of a byte sequence. The message is padded to whole blocks of
sixteen words; each block is stirred into eight words of state in sixty-four
rounds, and the message schedule is a window of sixteen words that slides along
by one word per round.
-/

namespace PathVeil.Sha256

/-! ### Words -/

/-- Turns the bits of a word to the right. -/
def rotate (w : UInt32) (n : UInt32) : UInt32 := (w >>> n) ||| (w <<< (32 - n))

/-- The word of four bytes, the most significant first. -/
def word (a b c d : UInt8) : UInt32 :=
  (a.toUInt32 <<< 24) ||| (b.toUInt32 <<< 16) ||| (c.toUInt32 <<< 8) ||| d.toUInt32

/-- The words of a byte sequence; bytes that fill no word are left out. -/
def words : List UInt8 → List UInt32
  | a :: b :: c :: d :: bytes => word a b c d :: words bytes
  | _ => []

/-- The bytes of a number, the most significant first. -/
def bigEndian (size : Nat) (n : Nat) : List UInt8 :=
  (List.range size).reverse.map fun i => UInt8.ofNat (n / Nat.pow 256 i)

/-! ### Padding -/

/-- The message, a set bit, as few zeros as fill the last block, and the length
of the message in bits. -/
def pad (message : List UInt8) : List UInt8 :=
  let size := message.length
  message ++ 0x80 :: List.replicate ((119 - size % 64) % 64) 0 ++ bigEndian 8 (size * 8)

/-! ### Rounds -/

/-- The eight words of state. -/
structure State where
  (a b c d e f g h : UInt32)
  deriving DecidableEq, Repr

/-- The state before the first block. -/
def State.initial : State :=
  ⟨0x6a09e667, 0xbb67ae85, 0x3c6ef372, 0xa54ff53a, 0x510e527f, 0x9b05688c, 0x1f83d9ab, 0x5be0cd19⟩

/-- The words of the state, in order. -/
def State.words (s : State) : List UInt32 := [s.a, s.b, s.c, s.d, s.e, s.f, s.g, s.h]

/-- Adds two states word by word. -/
def State.add (s t : State) : State :=
  ⟨s.a + t.a, s.b + t.b, s.c + t.c, s.d + t.d, s.e + t.e, s.f + t.f, s.g + t.g, s.h + t.h⟩

/-- The constants of the sixty-four rounds. -/
def constants : List UInt32 := [
  0x428a2f98, 0x71374491, 0xb5c0fbcf, 0xe9b5dba5, 0x3956c25b, 0x59f111f1, 0x923f82a4, 0xab1c5ed5,
  0xd807aa98, 0x12835b01, 0x243185be, 0x550c7dc3, 0x72be5d74, 0x80deb1fe, 0x9bdc06a7, 0xc19bf174,
  0xe49b69c1, 0xefbe4786, 0x0fc19dc6, 0x240ca1cc, 0x2de92c6f, 0x4a7484aa, 0x5cb0a9dc, 0x76f988da,
  0x983e5152, 0xa831c66d, 0xb00327c8, 0xbf597fc7, 0xc6e00bf3, 0xd5a79147, 0x06ca6351, 0x14292967,
  0x27b70a85, 0x2e1b2138, 0x4d2c6dfc, 0x53380d13, 0x650a7354, 0x766a0abb, 0x81c2c92e, 0x92722c85,
  0xa2bfe8a1, 0xa81a664b, 0xc24b8b70, 0xc76c51a3, 0xd192e819, 0xd6990624, 0xf40e3585, 0x106aa070,
  0x19a4c116, 0x1e376c08, 0x2748774c, 0x34b0bcb5, 0x391c0cb3, 0x4ed8aa4a, 0x5b9cca4f, 0x682e6ff3,
  0x748f82ee, 0x78a5636f, 0x84c87814, 0x8cc70208, 0x90befffa, 0xa4506ceb, 0xbef9a3f7, 0xc67178f2]

/-- One round with its constant and its word of the schedule. -/
def State.round (s : State) (constant w : UInt32) : State :=
  let sumE := rotate s.e 6 ^^^ rotate s.e 11 ^^^ rotate s.e 25
  let choice := (s.e &&& s.f) ^^^ ((~~~s.e) &&& s.g)
  let t := s.h + sumE + choice + constant + w
  let sumA := rotate s.a 2 ^^^ rotate s.a 13 ^^^ rotate s.a 22
  let majority := (s.a &&& s.b) ^^^ (s.a &&& s.c) ^^^ (s.b &&& s.c)
  ⟨t + (sumA + majority), s.a, s.b, s.c, s.d + t, s.e, s.f, s.g⟩

/-- The word of the schedule that follows sixteen given ones. -/
def nextWord (window : List UInt32) : UInt32 :=
  let at' (i : Nat) : UInt32 := window.getD i 0
  let old := at' 1
  let new := at' 14
  at' 0 + (rotate old 7 ^^^ rotate old 18 ^^^ (old >>> 3)) + at' 9
    + (rotate new 17 ^^^ rotate new 19 ^^^ (new >>> 10))

/-- The rounds with the given constants. The window holds the words of the next
sixteen rounds. -/
def rounds (s : State) (window : List UInt32) : List UInt32 → State
  | [] => s
  | constant :: constants =>
    match window with
    | [] => s
    | w :: rest => rounds (s.round constant w) (rest ++ [nextWord window]) constants

/-- Stirs one block into the state. -/
def State.absorb (s : State) (block : List UInt32) : State := s.add (rounds s block constants)

/-- Stirs all blocks of the words into the state. -/
def absorbAll (s : State) : List UInt32 → State
  | [] => s
  | w :: message => absorbAll (s.absorb (w :: message.take 15)) (message.drop 15)
termination_by message => message.length

/-! ### The digest -/

/-- The digest of a message: thirty-two bytes. -/
def digest (message : List UInt8) : List UInt8 :=
  (absorbAll .initial (words (pad message))).words.flatMap (bigEndian 4 ·.toNat)

/-- The lower-case hexadecimal digit. -/
def hexDigit (n : Nat) : Char := "0123456789abcdef".toList.getD n '0'

/-- Two hexadecimal digits for each byte. -/
def hex (bytes : List UInt8) : String :=
  String.ofList (bytes.flatMap fun b => [hexDigit (b.toNat / 16), hexDigit (b.toNat % 16)])

-- The published digest of the message `abc`.
example : hex (digest [97, 98, 99]) =
    "ba7816bf8f01cfea414140de5dae2223b00361a396177a9cb410ff61f20015ad" := by decide +kernel

end PathVeil.Sha256
