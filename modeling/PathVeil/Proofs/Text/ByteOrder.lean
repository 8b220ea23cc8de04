import Mathlib.Algebra.Group.Nat.Defs
import PathVeil.Text.Utf8

/-!
# PathVeil.Proofs.Text.ByteOrder

The order of texts is the order of their UTF-8 bytes: of two texts, the one that
comes first when they are compared character by character also does when their
forms are compared byte by byte (`Utf8.encode_lt_encode`).

## Proof shape

A character is a first byte and some digits in base 64 behind it. The first byte
rises with the number of digits and, among characters of equally many, with what
the digits leave over (`Head.first_lt`). So of two characters the lower one
differs at the first byte, or else at the first digit that differs, and nothing
that follows can change that (`utf8EncodeChar_append_lt`). The texts are then
compared at their first different character.
-/

namespace PathVeil.Utf8

/-! ### The bytes of one character -/

/-- The low digits of a number in base 64, as the bytes behind a first byte. -/
def continuation (v : Nat) : Nat → List UInt8
  | 0 => []
  | count + 1 => UInt8.ofNat (v / 64 ^ count % 64 + 0x80) :: continuation v count

/-- The first byte for a number, and how many bytes come behind it. Each count has
a stretch of the numbers and of the first bytes to itself. -/
inductive Head : Nat → Nat → Nat → Prop
  | one {v : Nat} (h : v ≤ 0x7F) : Head v v 0
  | two {v : Nat} (h : 0x7F < v ∧ v ≤ 0x7FF) : Head v (v / 64 + 0xC0) 1
  | three {v : Nat} (h : 0x7FF < v ∧ v ≤ 0xFFFF) : Head v (v / 64 ^ 2 + 0xE0) 2
  | four {v : Nat} (h : 0xFFFF < v ∧ v < 0x110000) : Head v (v / 64 ^ 3 + 0xF0) 3

theorem toNat_lt (c : Char) : c.toNat < 0x110000 := by
  have h := c.valid
  rw [UInt32.isValidChar, Nat.isValidChar] at h
  rw [Char.toNat]
  omega

/-- A character is written as its first byte and its low digits. -/
theorem exists_head (c : Char) :
    ∃ first count, Head c.toNat first count ∧
      String.utf8EncodeChar c = UInt8.ofNat first :: continuation c.toNat count := by
  have hmax := toNat_lt c
  rw [Char.toNat] at *
  unfold String.utf8EncodeChar
  generalize c.val.toNat = v at hmax
  dsimp only
  split
  case isTrue hone => exact ⟨_, _, .one hone, rfl⟩
  case isFalse hone =>
    split
    case isTrue htwo =>
      refine ⟨_, _, .two ⟨by omega, htwo⟩, ?_⟩
      rw [Nat.mod_eq_of_lt (by omega : v / 64 < 32)]
      simp [continuation]
    case isFalse htwo =>
      split
      case isTrue hthree =>
        refine ⟨_, _, .three ⟨by omega, hthree⟩, ?_⟩
        rw [Nat.mod_eq_of_lt (by omega : v / 4096 < 16)]
        simp [continuation]
      case isFalse hthree =>
        refine ⟨_, _, .four ⟨by omega, hmax⟩, ?_⟩
        rw [Nat.mod_eq_of_lt (by omega : v / 262144 < 8)]
        simp [continuation]

/-! ### Comparing two characters -/

/-- The first bytes of two numbers are in their order. If they are the same, the
low digits, of which there are equally many, are. -/
theorem Head.first_lt {v w m n j k : Nat} (hv : Head v m j) (hw : Head w n k) (h : v < w) :
    (m < n ∧ n < 256) ∨ (m = n ∧ j = k ∧ v % 64 ^ j < w % 64 ^ j) := by
  cases hv <;> cases hw <;> omega

theorem ofNat_lt_ofNat {m n : Nat} (h : m < n) (hn : n < 256) :
    UInt8.ofNat m < UInt8.ofNat n := by
  have hm : m < 256 := Nat.lt_trans h hn
  rw [UInt8.lt_iff_toNat_lt, UInt8.toNat_ofNat_of_lt' hm, UInt8.toNat_ofNat_of_lt' hn]
  exact h

/-- The low digits are in the order of the numbers that they make up. -/
theorem continuation_append_lt {v w count : Nat} (h : v % 64 ^ count < w % 64 ^ count)
    (s t : List UInt8) : continuation v count ++ s < continuation w count ++ t := by
  induction count with
  | zero => simp [Nat.mod_one] at h
  | succ count ih =>
    rw [continuation, continuation, List.cons_append, List.cons_append, List.cons_lt_cons_iff]
    rw [Nat.pow_succ, Nat.mod_mul, Nat.mod_mul] at h
    have hpos : 0 < 64 ^ count := Nat.pow_pos (by omega)
    have hv := Nat.mod_lt v hpos
    have hw := Nat.mod_lt w hpos
    rcases Nat.lt_trichotomy (v / 64 ^ count % 64) (w / 64 ^ count % 64) with hlt | heq | hgt
    · exact Or.inl (ofNat_lt_ofNat (by omega) (by omega))
    · rw [heq] at h ⊢
      exact Or.inr ⟨rfl, ih (by omega)⟩
    · -- A higher digit cannot be made up for by those behind it.
      have hstep := Nat.mul_le_mul_left (64 ^ count) (Nat.succ_le_of_lt hgt)
      rw [Nat.mul_succ] at hstep
      omega

/-- Of two characters the lower one has the lower bytes, whatever follows them. -/
theorem utf8EncodeChar_append_lt {c d : Char} (h : c < d) (s t : List UInt8) :
    String.utf8EncodeChar c ++ s < String.utf8EncodeChar d ++ t := by
  obtain ⟨m, j, hc, hbytesc⟩ := exists_head c
  obtain ⟨n, k, hd, hbytesd⟩ := exists_head d
  rw [hbytesc, hbytesd, List.cons_append, List.cons_append, List.cons_lt_cons_iff]
  rcases hc.first_lt hd h with ⟨hfirst, hn⟩ | ⟨rfl, rfl, hlow⟩
  · exact Or.inl (ofNat_lt_ofNat hfirst hn)
  · exact Or.inr ⟨rfl, continuation_append_lt hlow s t⟩

/-! ### Comparing two texts -/

/-- **Character order is byte order.** -/
theorem encode_lt_encode {s t : List Char} (h : s < t) : encode s < encode t := by
  induction h with
  | @nil c text =>
    obtain ⟨first, count, -, hbytes⟩ := exists_head c
    rw [encode_nil, encode_cons, hbytes]
    exact List.nil_lt_cons ..
  | rel hchar => exact utf8EncodeChar_append_lt hchar _ _
  | cons _ ih => exact List.append_left_lt ih

end PathVeil.Utf8
