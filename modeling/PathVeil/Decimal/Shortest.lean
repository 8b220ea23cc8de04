/-!
# PathVeil.Decimal.Shortest

Decimal numbers as double-precision values, and the fewest digits that read
back as the same value. All arithmetic is exact.

* `Binary.ofRatio` — the double-precision value nearest to a fraction;
* `Binary.digits` — the shortest decimal that reads back as a value, and of
  those the nearest;
* `Decimal.text` — a decimal number as it is written after that round trip,
  without an exponent.
-/

namespace PathVeil

/-- The value `mantissa · 2 ^ exponent`. -/
structure Binary where
  mantissa : Nat
  exponent : Int
  deriving DecidableEq, Repr

namespace Binary

/-- The exponent of the smallest positive value. -/
def minExponent : Int := -1074

/-- The number of bits of a full mantissa. -/
def precision : Nat := 53

/-- A factor `2 ^ e` as a numerator and a denominator. -/
def powerOfTwo (e : Int) : Nat × Nat := (Nat.pow 2 e.toNat, Nat.pow 2 (-e).toNat)

/-- The quotient, rounded to the nearest number; a tie goes to the even one. -/
def roundDiv (num den : Nat) : Nat :=
  let q := num / den
  let twice := 2 * (num % den)
  if twice < den then q else if den < twice then q + 1 else q + q % 2

/-- The value nearest to a fraction. -/
def ofRatio (num den : Nat) : Binary :=
  if num = 0 then ⟨0, minExponent⟩
  else
    -- The quotient has `bits` or `bits + 1` bits in front of the point.
    let bits : Int := (num.log2 : Int) - (den.log2 : Int)
    let short (e : Int) : Bool :=
      let (up, down) := powerOfTwo e
      num * down < Nat.pow 2 precision * (den * up)
    let e := bits - precision
    let e := max minExponent (if short e then e else e + 1)
    let (up, down) := powerOfTwo e
    ⟨roundDiv (num * down) (den * up), e⟩

/-- The least exponent `k` from `start` on, in at most `fuel` steps, for which the
fraction is below `10 ^ k`. -/
def decimalMagnitude (num den : Nat) (start : Int) : Nat → Int
  | 0 => start
  | fuel + 1 =>
    if num * Nat.pow 10 (-start).toNat < den * Nat.pow 10 start.toNat then start
    else decimalMagnitude num den (start + 1) fuel

/-- The first of the grids with 1, 2, … digits that has a point which reads
back, and that point. -/
def findDigits (low value high den : Nat) (closed : Bool) (magnitude : Int) :
    Nat → Nat → Nat × Int
  | count, 0 => (value, magnitude - count)
  | count, fuel + 1 =>
    let grid := magnitude - count
    let up := Nat.pow 10 grid.toNat
    let down := Nat.pow 10 (-grid).toNat
    -- A grid point `n` stands for `n · up / down`.
    let scaled (n : Nat) : Nat := n * up * den
    let inside (n : Nat) : Bool :=
      if closed then low * down ≤ scaled n && scaled n ≤ high * down
      else low * down < scaled n && scaled n < high * down
    let below := value * down / (up * den)
    let above := below + 1
    match inside below && below != 0, inside above with
    | false, false => findDigits low value high den closed magnitude (count + 1) fuel
    | true, false => (below, grid)
    | false, true => (above, grid)
    | true, true =>
      if value * down - scaled below ≤ scaled above - value * down then (below, grid) else (above, grid)

/-- The shortest decimal that reads back as the value, as `n · 10 ^ e`. -/
def digits (b : Binary) : Nat × Int :=
  if b.mantissa = 0 then (0, 0)
  else
    let (up, down) := powerOfTwo b.exponent
    let den := 4 * down
    let value := 4 * b.mantissa * up
    -- Below a power of two the values lie twice as close.
    let narrow := b.mantissa = Nat.pow 2 (precision - 1) ∧ b.exponent ≠ minExponent
    let low := value - (if narrow then 1 else 2) * up
    let high := value + 2 * up
    let magnitude := decimalMagnitude value den (-330) 700
    findDigits low value high den (b.mantissa % 2 == 0) magnitude 1 20

end Binary

/-- The number `± mantissa · 10 ^ exponent`. -/
structure Decimal where
  negative : Bool := false
  mantissa : Nat
  exponent : Int
  deriving DecidableEq, Repr

namespace Decimal

/-- The double-precision value nearest to the number, without its sign. -/
def toBinary (d : Decimal) : Binary :=
  .ofRatio (d.mantissa * Nat.pow 10 d.exponent.toNat) (Nat.pow 10 (-d.exponent).toNat)

/-- Digits with the point put in, and a zero behind the point if there is
nothing else. -/
def positional (n : Nat) (e : Int) : String :=
  if 0 ≤ e then
    toString (n * Nat.pow 10 e.toNat) ++ ".0"
  else
    let places := (-e).toNat
    let all := Nat.toDigits 10 n
    let all := List.replicate (places + 1 - all.length) '0' ++ all
    String.ofList (all.take (all.length - places)) ++ "." ++
      String.ofList (all.drop (all.length - places))

/-- The number after a round trip through double precision. -/
def text (d : Decimal) : String :=
  let (n, e) := d.toBinary.digits
  (if d.negative then "-" else "") ++ positional n e

end Decimal

end PathVeil
