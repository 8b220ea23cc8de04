import Mathlib.Algebra.Group.Nat.Defs
import PathVeil.Proofs.Text.ByteOrder

/-!
# PathVeil.Proofs.Text.Decoding

Reading UTF-8 undoes writing it. A byte sequence is valid exactly if it is the
form of a text (`Utf8.isValid_iff`), and then that text is what is read. Of any
other sequence, what is read as a character is written there as that character
(`Utf8.reads_pieces`), and a byte below 0x80 is read as a character of its own
wherever it stands (`Utf8.pieces_append_cons`).

## Proof shape

A pending character stands for a range of numbers: those with its bits, and an
allowed digit next (`Pending.Fits`). `Lead` lists the bytes that open a
character. For such a byte and a number in the range, `Lead.head` and
`Head.exists_lead` are the two directions of one fact: the byte is the head of
the number. Everything else is an induction over the digits or the bytes.
-/

namespace PathVeil.Utf8

/-! ### First bytes -/

/-- The bytes that open a character of several bytes, and what is pending then. -/
inductive Lead : Nat → Pending → Prop
  | two {b : Nat} (h : 0xC2 ≤ b ∧ b ≤ 0xDF) : Lead b ⟨b % 32, 0, 0x80, 0xBF⟩
  | e0 : Lead 0xE0 ⟨0, 1, 0xA0, 0xBF⟩
  | ed : Lead 0xED ⟨13, 1, 0x80, 0x9F⟩
  | three {b : Nat} (h : 0xE0 < b ∧ b ≤ 0xEF) (hne : b ≠ 0xED) : Lead b ⟨b % 16, 1, 0x80, 0xBF⟩
  | f0 : Lead 0xF0 ⟨0, 2, 0x90, 0xBF⟩
  | four {b : Nat} (h : 0xF0 < b ∧ b ≤ 0xF3) : Lead b ⟨b % 8, 2, 0x80, 0xBF⟩
  | f4 : Lead 0xF4 ⟨4, 2, 0x80, 0x8F⟩

/-- What a first byte can mean. -/
theorem first_cases (b : UInt8) :
    (b.toNat ≤ 0x7F ∧ first b = .whole (Char.ofNat b.toNat)) ∨
    (∃ pending, Lead b.toNat pending ∧ first b = .opens pending) ∨
    (first b = .invalid ∧ (0x7F < b.toNat ∧ b.toNat < 0xC2 ∨ 0xF4 < b.toNat)) := by
  unfold first
  simp only [UInt8.le_iff_toNat_le, UInt8.lt_iff_toNat_lt, ← UInt8.toNat_inj, UInt8.reduceToNat]
  generalize b.toNat = n
  by_cases hone : n ≤ 0x7F
  · exact .inl ⟨hone, if_pos hone⟩
  rw [if_neg hone]
  by_cases hlow : n < 0xC2
  · exact .inr (.inr ⟨if_pos hlow, by omega⟩)
  rw [if_neg hlow]
  by_cases htwo : n ≤ 0xDF
  · exact .inr (.inl ⟨_, .two ⟨by omega, htwo⟩, if_pos htwo⟩)
  rw [if_neg htwo]
  by_cases he0 : n = 0xE0
  · exact .inr (.inl ⟨_, he0 ▸ .e0, if_pos he0⟩)
  rw [if_neg he0]
  by_cases hed : n = 0xED
  · exact .inr (.inl ⟨_, hed ▸ .ed, if_pos hed⟩)
  rw [if_neg hed]
  by_cases hthree : n ≤ 0xEF
  · exact .inr (.inl ⟨_, .three ⟨by omega, hthree⟩ hed, if_pos hthree⟩)
  rw [if_neg hthree]
  by_cases hf0 : n = 0xF0
  · exact .inr (.inl ⟨_, hf0 ▸ .f0, if_pos hf0⟩)
  rw [if_neg hf0]
  by_cases hfour : n ≤ 0xF3
  · exact .inr (.inl ⟨_, .four ⟨by omega, hfour⟩, if_pos hfour⟩)
  rw [if_neg hfour]
  by_cases hf4 : n = 0xF4
  · exact .inr (.inl ⟨_, hf4 ▸ .f4, if_pos hf4⟩)
  · exact .inr (.inr ⟨if_neg hf4, by omega⟩)

theorem Lead.range {b : Nat} {pending : Pending} (h : Lead b pending) : 0xC2 ≤ b ∧ b ≤ 0xF4 := by
  cases h <;> omega

theorem Lead.unique {b : Nat} {pending pending' : Pending} (h : Lead b pending)
    (h' : Lead b pending') : pending = pending' := by
  cases h <;> cases h' <;> grind

theorem first_of_le {b : UInt8} (h : b.toNat ≤ 0x7F) :
    first b = .whole (Char.ofNat b.toNat) := by
  obtain ⟨-, hfirst⟩ | ⟨pending, hlead, -⟩ | ⟨-, hinvalid⟩ := first_cases b
  · exact hfirst
  · have hrange := hlead.range
    omega
  · omega

theorem first_of_lead {b : UInt8} {pending : Pending} (h : Lead b.toNat pending) :
    first b = .opens pending := by
  have hrange := h.range
  obtain ⟨hone, -⟩ | ⟨pending', hlead, hfirst⟩ | ⟨-, hinvalid⟩ := first_cases b
  · omega
  · rw [hfirst, h.unique hlead]
  · omega

/-! ### Pending characters and their numbers -/

/-- A number that a pending character can still become: its high bits are those
read so far, and its next digit is allowed. -/
structure Pending.Fits (pending : Pending) (v : Nat) : Prop where
  bits_eq : v / 64 ^ (pending.more + 1) = pending.bits
  low_le : pending.low.toNat ≤ v / 64 ^ pending.more % 64 + 0x80
  le_high : v / 64 ^ pending.more % 64 + 0x80 ≤ pending.high.toNat

/-- An open character becomes only numbers that have its byte for a head. -/
theorem Lead.head {b v : Nat} {pending : Pending} (h : Lead b pending) (hv : pending.Fits v) :
    v.isValidChar ∧ Head v b (pending.more + 1) := by
  obtain ⟨hbits, hlow, hhigh⟩ := hv
  rw [Nat.isValidChar]
  cases h with
  | two h =>
    simp only [UInt8.reduceToNat, Nat.pow_zero, Nat.div_one] at *
    have hb : b = v / 64 + 0xC0 := by omega
    exact ⟨by omega, hb ▸ .two (by omega)⟩
  | e0 =>
    simp only [UInt8.reduceToNat] at *
    have hb : 0xE0 = v / 64 ^ 2 + 0xE0 := by omega
    exact ⟨by omega, hb ▸ .three (by omega)⟩
  | ed =>
    simp only [UInt8.reduceToNat] at *
    have hb : 0xED = v / 64 ^ 2 + 0xE0 := by omega
    exact ⟨by omega, hb ▸ .three (by omega)⟩
  | three h hne =>
    simp only [UInt8.reduceToNat] at *
    have hb : b = v / 64 ^ 2 + 0xE0 := by omega
    exact ⟨by omega, hb ▸ .three (by omega)⟩
  | f0 =>
    simp only [UInt8.reduceToNat] at *
    have hb : 0xF0 = v / 64 ^ 3 + 0xF0 := by omega
    exact ⟨by omega, hb ▸ .four (by omega)⟩
  | four h =>
    simp only [UInt8.reduceToNat] at *
    have hb : b = v / 64 ^ 3 + 0xF0 := by omega
    exact ⟨by omega, hb ▸ .four (by omega)⟩
  | f4 =>
    simp only [UInt8.reduceToNat] at *
    have hb : 0xF4 = v / 64 ^ 3 + 0xF0 := by omega
    exact ⟨by omega, hb ▸ .four (by omega)⟩

/-- The head of a character of several bytes opens one that can become it. -/
theorem Head.exists_lead {b v k : Nat} (h : Head v b (k + 1)) (hv : v.isValidChar) :
    ∃ pending, Lead b pending ∧ pending.more = k ∧ pending.Fits v := by
  rw [Nat.isValidChar] at hv
  cases h with
  | two h =>
    refine ⟨_, .two ⟨by omega, by omega⟩, rfl, ?_, ?_, ?_⟩ <;>
      simp only [UInt8.reduceToNat, Nat.pow_zero, Nat.div_one] <;> omega
  | three h =>
    by_cases he0 : v / 64 ^ 2 = 0
    · rw [he0]
      refine ⟨_, .e0, rfl, he0, ?_, ?_⟩ <;> simp only [UInt8.reduceToNat] <;> omega
    by_cases hed : v / 64 ^ 2 = 13
    · rw [hed]
      refine ⟨_, .ed, rfl, hed, ?_, ?_⟩ <;> simp only [UInt8.reduceToNat] <;> omega
    refine ⟨_, .three ⟨by omega, by omega⟩ (by omega), rfl, ?_, ?_, ?_⟩ <;>
      simp only [UInt8.reduceToNat] <;> omega
  | four h =>
    by_cases hf0 : v / 64 ^ 3 = 0
    · rw [hf0]
      refine ⟨_, .f0, rfl, hf0, ?_, ?_⟩ <;> simp only [UInt8.reduceToNat] <;> omega
    by_cases hf4 : v / 64 ^ 3 = 4
    · rw [hf4]
      refine ⟨_, .f4, rfl, hf4, ?_, ?_⟩ <;> simp only [UInt8.reduceToNat] <;> omega
    refine ⟨_, .four ⟨by omega, by omega⟩, rfl, ?_, ?_, ?_⟩ <;>
      simp only [UInt8.reduceToNat] <;> omega

/-- A number has one head. -/
theorem Head.unique {v m n j k : Nat} (h : Head v m j) (h' : Head v n k) : m = n ∧ j = k := by
  cases h <;> cases h' <;> omega

theorem toNat_ofNat {v : Nat} (hv : v.isValidChar) : (Char.ofNat v).toNat = v := by
  rw [Char.ofNat, dif_pos hv]
  rfl

theorem utf8EncodeChar_of_head {v b k : Nat} (hv : v.isValidChar) (h : Head v b k) :
    String.utf8EncodeChar (Char.ofNat v) = UInt8.ofNat b :: continuation v k := by
  obtain ⟨b', k', hhead, hbytes⟩ := exists_head (Char.ofNat v)
  rw [toNat_ofNat hv] at hhead hbytes
  obtain ⟨rfl, rfl⟩ := h.unique hhead
  exact hbytes

/-- The bounds on the next byte of a pending character keep first bytes out. -/
def Pending.Bounded (pending : Pending) : Prop :=
  0x80 ≤ pending.low.toNat ∧ pending.high.toNat ≤ 0xBF

theorem Lead.bounded {b : Nat} {pending : Pending} (h : Lead b pending) : pending.Bounded := by
  cases h <;> simp [Pending.Bounded]

/-- The bits of a pending character with those of its next byte. -/
def Pending.bitsWith (pending : Pending) (b : UInt8) : Nat := pending.bits * 64 + b.toNat % 64

/-- A pending character after its next byte, when some are still owed. -/
def Pending.next (pending : Pending) (b : UInt8) (more : Nat) : Pending :=
  ⟨pending.bitsWith b, more, 0x80, 0xBF⟩

/-! ### One byte at a time -/

section Steps

variable {pending : Pending} {b : UInt8} {v : Nat}

theorem Pending.bounded_next (pending : Pending) (b : UInt8) (more : Nat) :
    (pending.next b more).Bounded := by
  simp [Bounded, next]

/-- The next byte of a pending character is a digit of every number that it can
become then; and it could become this number before. -/
theorem Pending.Bounded.fits (h : pending.Bounded) (hb : pending.low ≤ b ∧ b ≤ pending.high)
    (hv : v / 64 ^ pending.more = pending.bitsWith b) :
    pending.Fits v ∧ continuation v (pending.more + 1) = b :: continuation v pending.more := by
  obtain ⟨hlow, hhigh⟩ := hb
  rw [UInt8.le_iff_toNat_le] at hlow hhigh
  obtain ⟨hmin, hmax⟩ := h
  rw [bitsWith] at hv
  have hdigit : v / 64 ^ pending.more % 64 + 0x80 = b.toNat := by omega
  refine ⟨⟨?_, by omega, by omega⟩, ?_⟩
  · rw [Nat.pow_succ, ← Nat.div_div_eq_div_mul]
    omega
  · rw [continuation, hdigit, UInt8.ofNat_toNat]

/-- A number that a pending character can become has an allowed byte next. -/
theorem Pending.Fits.exists_digit (h : pending.Fits v) :
    ∃ b, (pending.low ≤ b ∧ b ≤ pending.high) ∧ v / 64 ^ pending.more = pending.bitsWith b ∧
      continuation v (pending.more + 1) = b :: continuation v pending.more := by
  obtain ⟨hbits, hlow, hhigh⟩ := h
  have hdigit : v / 64 ^ pending.more % 64 < 64 := Nat.mod_lt _ (by decide)
  have hb : (UInt8.ofNat (v / 64 ^ pending.more % 64 + 0x80)).toNat =
      v / 64 ^ pending.more % 64 + 0x80 :=
    UInt8.toNat_ofNat_of_lt' (by simp only [UInt8.size]; omega)
  refine ⟨_, ?_, ?_, rfl⟩
  · rw [UInt8.le_iff_toNat_le, UInt8.le_iff_toNat_le, hb]
    exact ⟨hlow, hhigh⟩
  · rw [bitsWith, hb, ← hbits, Nat.pow_succ, ← Nat.div_div_eq_div_mul]
    omega

theorem Pending.fits_next {more : Nat} (hv : v / 64 ^ (more + 1) = pending.bitsWith b) :
    (pending.next b more).Fits v := by
  have hdigit : v / 64 ^ more % 64 < 64 := Nat.mod_lt _ (by decide)
  refine ⟨hv, ?_, ?_⟩ <;> simp only [next, UInt8.reduceToNat] <;> omega

variable (bytes : List UInt8)

theorem piecesFrom_last (hb : pending.low ≤ b ∧ b ≤ pending.high) (hmore : pending.more = 0) :
    piecesFrom (some pending) (b :: bytes) =
      some (Char.ofNat (pending.bitsWith b)) :: piecesFrom none bytes := by
  obtain ⟨bits, more, low, high⟩ := pending
  cases hmore
  exact if_pos hb

theorem piecesFrom_next {more : Nat} (hb : pending.low ≤ b ∧ b ≤ pending.high)
    (hmore : pending.more = more + 1) :
    piecesFrom (some pending) (b :: bytes) = piecesFrom (some (pending.next b more)) bytes := by
  obtain ⟨bits, more, low, high⟩ := pending
  cases hmore
  exact if_pos hb

/-- A byte that does not go on with a pending character is looked at anew. -/
theorem piecesFrom_other (hb : ¬(pending.low ≤ b ∧ b ≤ pending.high)) :
    piecesFrom (some pending) (b :: bytes) = none :: piecesFrom none (b :: bytes) := by
  refine (if_neg hb).trans ?_
  rw [piecesFrom]
  cases first b <;> rfl

end Steps

/-! ### What is written can be read -/

/-- The digits of a number are read one after another. -/
theorem piecesFrom_continuation {pending : Pending} {v : Nat} (h : pending.Fits v)
    (rest : List UInt8) :
    piecesFrom (some pending) (continuation v (pending.more + 1) ++ rest) =
      some (Char.ofNat v) :: piecesFrom none rest := by
  induction hmore : pending.more generalizing pending with
  | zero =>
    obtain ⟨b, hb, hbits, hbytes⟩ := h.exists_digit
    rw [hmore, Nat.pow_zero, Nat.div_one] at hbits
    rw [hmore] at hbytes
    rw [hbytes, List.cons_append, piecesFrom_last _ hb hmore, ← hbits]
    rfl
  | succ more ih =>
    obtain ⟨b, hb, hbits, hbytes⟩ := h.exists_digit
    rw [hmore] at hbits hbytes
    rw [hbytes, List.cons_append, piecesFrom_next _ hb hmore]
    exact ih (Pending.fits_next hbits) rfl

theorem Head.lt {v b k : Nat} (h : Head v b k) : b < 256 := by
  cases h <;> omega

/-- A character is read as itself, whatever follows it. -/
theorem piecesFrom_utf8EncodeChar (c : Char) (rest : List UInt8) :
    piecesFrom none (String.utf8EncodeChar c ++ rest) = some c :: piecesFrom none rest := by
  obtain ⟨b, k, hhead, hbytes⟩ := exists_head c
  have hb : (UInt8.ofNat b).toNat = b := UInt8.toNat_ofNat_of_lt' hhead.lt
  have hvalid : c.toNat.isValidChar := c.valid
  rw [hbytes, List.cons_append, piecesFrom]
  cases k with
  | zero =>
    cases hhead with
    | one h =>
      rw [first_of_le (by rwa [hb]), hb, Char.ofNat_toNat]
      rfl
  | succ k =>
    obtain ⟨pending, hlead, rfl, hfits⟩ := hhead.exists_lead hvalid
    rw [first_of_lead (hb.symm ▸ hlead)]
    exact (piecesFrom_continuation hfits rest).trans (by rw [Char.ofNat_toNat])

/-- Writing is undone by reading. -/
theorem pieces_encode (text : List Char) : pieces (encode text) = text.map some := by
  induction text with
  | nil => rfl
  | cons c text ih =>
    rw [pieces, encode_cons, piecesFrom_utf8EncodeChar, List.map_cons, ← ih, pieces]

/-- Different texts are written differently. -/
theorem encode_inj {s t : List Char} : encode s = encode t ↔ s = t := by
  constructor
  · intro h
    have hpieces := congrArg pieces h
    rw [pieces_encode, pieces_encode] at hpieces
    exact (List.map_inj_right fun _ _ => Option.some.inj).mp hpieces
  · exact congrArg encode

/-! ### What is read was written -/

/-- Pieces of a byte sequence: the characters that are written in it, and what is
between them. -/
inductive Reads : List UInt8 → List (Option Char) → Prop
  | done : Reads [] []
  /-- A character stands as it is written. -/
  | char (c : Char) {bytes : List UInt8} {pieces : List (Option Char)} (h : Reads bytes pieces) :
    Reads (String.utf8EncodeChar c ++ bytes) (some c :: pieces)
  /-- Some bytes are no character. -/
  | junk {chunk bytes : List UInt8} {pieces : List (Option Char)} (hne : chunk ≠ [])
    (h : Reads bytes pieces) : Reads (chunk ++ bytes) (none :: pieces)

/-- The bytes that were read are how all numbers begin that a pending character
can become. -/
structure Pending.Holds (pending : Pending) (read : List UInt8) : Prop where
  ne_nil : read ≠ []
  bounded : pending.Bounded
  spells : ∀ v, pending.Fits v → String.utf8EncodeChar (Char.ofNat v) =
    read ++ continuation v (pending.more + 1)

section Holds

variable {pending : Pending} {b : UInt8} {read : List UInt8}

theorem Lead.holds (h : Lead b.toNat pending) : pending.Holds [b] where
  ne_nil := List.cons_ne_nil _ _
  bounded := h.bounded
  spells v hv := by
    obtain ⟨hvalid, hhead⟩ := h.head hv
    rw [utf8EncodeChar_of_head hvalid hhead, UInt8.ofNat_toNat]
    rfl

theorem Pending.Holds.next (h : pending.Holds read) (hb : pending.low ≤ b ∧ b ≤ pending.high)
    {more : Nat} (hmore : pending.more = more + 1) : (pending.next b more).Holds (read ++ [b]) where
  ne_nil := by simp
  bounded := pending.bounded_next b more
  spells v hv := by
    obtain ⟨hfits, hbytes⟩ := h.bounded.fits hb (hmore ▸ hv.bits_eq)
    rw [h.spells v hfits, hbytes, hmore, List.append_assoc]
    rfl

theorem Pending.Holds.last (h : pending.Holds read) (hb : pending.low ≤ b ∧ b ≤ pending.high)
    (hmore : pending.more = 0) :
    String.utf8EncodeChar (Char.ofNat (pending.bitsWith b)) = read ++ [b] := by
  obtain ⟨hfits, hbytes⟩ := h.bounded.fits hb
    (by rw [hmore, Nat.pow_zero, Nat.div_one] : pending.bitsWith b / 64 ^ pending.more = _)
  rw [h.spells _ hfits, hbytes, hmore, continuation]

end Holds

/-- Reading finds pieces, at the beginning of a character and inside of one. -/
theorem reads_piecesFrom (bytes : List UInt8) :
    Reads bytes (piecesFrom none bytes) ∧ ∀ pending read, pending.Holds read →
      Reads (read ++ bytes) (piecesFrom (some pending) bytes) := by
  induction bytes with
  | nil => exact ⟨.done, fun pending read h => .junk h.ne_nil .done⟩
  | cons b bytes ih =>
    obtain ⟨hnone, hsome⟩ := ih
    have hfirst : Reads (b :: bytes) (piecesFrom none (b :: bytes)) := by
      rw [piecesFrom]
      obtain ⟨hone, hfirst⟩ | ⟨pending, hlead, hfirst⟩ | ⟨hfirst, -⟩ := first_cases b
      · have hbytes : String.utf8EncodeChar (Char.ofNat b.toNat) = [b] := by
          rw [utf8EncodeChar_of_head (.inl (by omega)) (.one hone), UInt8.ofNat_toNat]
          rfl
        have hchar := hnone.char (Char.ofNat b.toNat)
        rw [hbytes] at hchar
        rw [hfirst]
        exact hchar
      · rw [hfirst]
        exact hsome pending [b] hlead.holds
      · rw [hfirst]
        exact .junk (List.cons_ne_nil b []) hnone
    refine ⟨hfirst, fun pending read h => ?_⟩
    by_cases hb : pending.low ≤ b ∧ b ≤ pending.high
    · cases hmore : pending.more with
      | zero =>
        rw [piecesFrom_last _ hb hmore, List.append_cons, ← h.last hb hmore]
        exact hnone.char _
      | succ more =>
        rw [piecesFrom_next _ hb hmore, List.append_cons]
        exact hsome _ _ (h.next hb hmore)
    · rw [piecesFrom_other _ hb]
      exact .junk h.ne_nil hfirst

/-- **What is read as a character is written there.** -/
theorem reads_pieces (bytes : List UInt8) : Reads bytes (pieces bytes) := (reads_piecesFrom bytes).1

/-- Bytes that are read as characters throughout are how these are written. -/
theorem Reads.encode_eq {bytes : List UInt8} {pieces : List (Option Char)} (h : Reads bytes pieces)
    (hall : pieces.all Option.isSome) : encode (pieces.map (·.getD replacementCharacter)) = bytes := by
  induction h with
  | done => rfl
  | char c _ ih =>
    rw [List.all_cons, Bool.and_eq_true] at hall
    rw [List.map_cons, encode_cons, ih hall.2, Option.getD_some]
  | junk hne _ _ => cases hall

/-- What is valid is read without loss. -/
theorem encode_decodeLossy {bytes : List UInt8} (h : isValid bytes) :
    encode (decodeLossy bytes) = bytes := (reads_pieces bytes).encode_eq h

/-- **Valid sequences are the forms of texts.** -/
theorem isValid_iff {bytes : List UInt8} : isValid bytes ↔ ∃ text, encode text = bytes := by
  constructor
  · exact fun h => ⟨decodeLossy bytes, encode_decodeLossy h⟩
  · rintro ⟨text, rfl⟩
    rw [isValid, pieces_encode]
    simp

/-! ### Bytes that are characters -/

section Ascii

variable {b : UInt8}

/-- A byte below 0x80 is a character of its own, behind whole characters and
behind one that is pending. -/
theorem piecesFrom_append_cons (hb : b.toNat ≤ 0x7F) (bytes rest : List UInt8) :
    piecesFrom none (bytes ++ b :: rest) =
      piecesFrom none bytes ++ some (Char.ofNat b.toNat) :: piecesFrom none rest ∧
    ∀ pending : Pending, pending.Bounded → piecesFrom (some pending) (bytes ++ b :: rest) =
      piecesFrom (some pending) bytes ++ some (Char.ofNat b.toNat) :: piecesFrom none rest := by
  induction bytes with
  | nil =>
    have hhere : piecesFrom none (b :: rest) =
        some (Char.ofNat b.toNat) :: piecesFrom none rest := by
      rw [piecesFrom, first_of_le hb]
    refine ⟨hhere, fun pending hpending => ?_⟩
    have hother : ¬(pending.low ≤ b ∧ b ≤ pending.high) := by
      have hmin := hpending.1
      rw [UInt8.le_iff_toNat_le]
      omega
    rw [List.nil_append, piecesFrom_other _ hother, hhere]
    rfl
  | cons a bytes ih =>
    obtain ⟨hnone, hsome⟩ := ih
    have hfirst : piecesFrom none (a :: bytes ++ b :: rest) =
        piecesFrom none (a :: bytes) ++ some (Char.ofNat b.toNat) :: piecesFrom none rest := by
      rw [List.cons_append, piecesFrom, piecesFrom]
      obtain ⟨-, hfirst⟩ | ⟨pending, hlead, hfirst⟩ | ⟨hfirst, -⟩ := first_cases a
      · rw [hfirst, hnone]
        rfl
      · rw [hfirst]
        exact hsome pending hlead.bounded
      · rw [hfirst, hnone]
        rfl
    refine ⟨hfirst, fun pending hpending => ?_⟩
    by_cases ha : pending.low ≤ a ∧ a ≤ pending.high
    · cases hmore : pending.more with
      | zero =>
        rw [List.cons_append, piecesFrom_last _ ha hmore, piecesFrom_last _ ha hmore, hnone]
        rfl
      | succ more =>
        rw [List.cons_append, piecesFrom_next _ ha hmore, piecesFrom_next _ ha hmore]
        exact hsome _ (pending.bounded_next a more)
    · rw [List.cons_append, piecesFrom_other _ ha, piecesFrom_other _ ha, ← List.cons_append, hfirst]
      rfl

theorem pieces_append_cons (hb : b.toNat ≤ 0x7F) (bytes rest : List UInt8) :
    pieces (bytes ++ b :: rest) = pieces bytes ++ some (Char.ofNat b.toNat) :: pieces rest :=
  (piecesFrom_append_cons hb bytes rest).1

theorem isValid_append_cons (hb : b.toNat ≤ 0x7F) {bytes rest : List UInt8} :
    isValid (bytes ++ b :: rest) ↔ isValid bytes ∧ isValid rest := by
  rw [isValid, pieces_append_cons hb, List.all_append, List.all_cons]
  simp [isValid]

/-- What is read stands in the bytes. -/
theorem Reads.mem {bytes : List UInt8} {pieces : List (Option Char)} (h : Reads bytes pieces)
    {c : Char} (hc : some c ∈ pieces) (hb : b ∈ String.utf8EncodeChar c) : b ∈ bytes := by
  induction h with
  | done => cases hc
  | char d _ ih =>
    rcases List.mem_cons.mp hc with hd | hc
    · cases hd
      exact List.mem_append_left _ hb
    · exact List.mem_append_right _ (ih hc)
  | junk hne _ ih =>
    exact List.mem_append_right _ (ih (List.mem_of_ne_of_mem (Option.some_ne_none c) hc))

/-- A byte below 0x80 is read where it stands, and nowhere else. -/
theorem mem_decodeLossy_iff (hb : b.toNat ≤ 0x7F) {bytes : List UInt8} :
    Char.ofNat b.toNat ∈ decodeLossy bytes ↔ b ∈ bytes := by
  constructor
  · intro hmem
    obtain ⟨piece, hpiece, hc⟩ := List.mem_map.mp hmem
    cases piece with
    | none =>
      have hcode := congrArg Char.toNat hc
      rw [toNat_ofNat (.inl (by omega))] at hcode
      have hreplacement : replacementCharacter.toNat = 0xFFFD := rfl
      rw [Option.getD_none, hreplacement] at hcode
      omega
    | some c =>
      rw [Option.getD_some] at hc
      have hbytes := utf8EncodeChar_of_head (.inl (by omega)) (.one hb)
      rw [← hc, UInt8.ofNat_toNat] at hbytes
      exact (reads_pieces bytes).mem hpiece (hbytes ▸ List.mem_cons_self)
  · intro hmem
    obtain ⟨front, rest, rfl⟩ := List.append_of_mem hmem
    rw [decodeLossy, pieces_append_cons hb]
    simp

/-- A byte below 0x80 is written for its character, and for no other. -/
theorem mem_encode_iff (hb : b.toNat ≤ 0x7F) {text : List Char} :
    b ∈ encode text ↔ Char.ofNat b.toNat ∈ text := by
  rw [← mem_decodeLossy_iff hb, decodeLossy, pieces_encode]
  simp

end Ascii

end PathVeil.Utf8
