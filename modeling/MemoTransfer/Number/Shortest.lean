import MemoTransfer.Number.Binary64

/-!
# Shortest decimals

`shortest b` is the decimal with the fewest digits that reads back as the magnitude `b`, and of
several with that number of digits the one nearest to its value. The search tries one digit, two
digits and so on; on the grid of decimals with a given number of digits only the two neighbours of
the value need a look. A decimal found by the search reads back by construction, and where none is
found the value itself is written out.
-/

namespace MemoTransfer.Number

/-- The value `digits * 10 ^ exponent`. -/
structure Decimal where
  digits : Nat
  exponent : Int
  deriving DecidableEq, Repr

namespace Decimal

/-- The same value without zeros at the end of its digits. -/
def strip (d : Decimal) : Decimal :=
  go (natDigits d.digits).length d
where
  /-- Drops at most `n` zeros. -/
  go : Nat → Decimal → Decimal
    | 0, d => d
    | n + 1, d =>
      if d.digits ≠ 0 && d.digits % 10 = 0 then go n ⟨d.digits / 10, d.exponent + 1⟩ else d

end Decimal

namespace Binary64

/-- The value of a magnitude, written out. -/
def exactDecimal (b : Nat) : Decimal := ⟨magnitudeUnits b * 5 ^ 1074, -1074⟩

/-- The place of the first digit of a magnitude other than zero: the largest power of ten that its
value reaches. -/
def leadingPlace (b : Nat) : Int :=
  (natDigits (magnitudeUnits b * 10 ^ 400 / 2 ^ 1074)).length - 401

/-- The multiples of `10 ^ place` next to the value of a magnitude, the nearer one first; of two
equally near ones the even one comes first. -/
def neighbours (b : Nat) (place : Int) : List Decimal :=
  let num := magnitudeUnits b * 10 ^ (-place).toNat
  let den := 2 ^ 1074 * 10 ^ place.toNat
  let below := num / den
  let near := divToNearest num den
  if near = below then [⟨below, place⟩, ⟨below + 1, place⟩]
  else [⟨below + 1, place⟩, ⟨below, place⟩]

/-- The decimal reads as the magnitude. -/
def readsBack (b : Nat) (d : Decimal) : Bool := decimalMagnitude d.digits d.exponent = b

/-- The shortest decimal that reads back as the magnitude. -/
def shortest (b : Nat) : Decimal :=
  let lead := leadingPlace b
  let candidates := (List.range 17).flatMap fun n : Nat => neighbours b (lead - n)
  ((candidates.find? (readsBack b)).getD (exactDecimal b)).strip

/-! ## Writing a number -/

/-- The digits of a decimal with a point after the first `whole` of them; zeros fill the places
between the digits and the point. A whole number gets one zero after its point. -/
def placePoint (ds : List Char) (whole : Int) : List Char :=
  if whole ≤ 0 then
    ['0', '.'] ++ List.replicate (-whole).toNat '0' ++ ds
  else
    let n := whole.toNat
    if ds.length ≤ n then ds ++ List.replicate (n - ds.length) '0' ++ ['.', '0']
    else ds.take n ++ '.' :: ds.drop n

/-- The digits with a point after the first one and, with its sign, the power of ten that this
point asks for. -/
def scientific (ds : List Char) (power : Int) : List Char :=
  let fraction := if ds.length ≤ 1 then [] else '.' :: ds.drop 1
  let sign := if power < 0 then '-' else '+'
  ds.take 1 ++ fraction ++ 'e' :: sign :: natDigits power.natAbs

/-- A magnitude in its shortest digits: with a point among them when the value is zero or lies
between `10 ^ (-5)` and `10 ^ 16`, and with a power of ten otherwise. -/
def magnitudeDigits (b : Nat) : List Char :=
  if b = 0 then ['0', '.', '0']
  else
    let d := shortest b
    let ds := natDigits d.digits
    let power := ds.length + d.exponent - 1
    if -5 ≤ power && power < 16 then placePoint ds (power + 1) else scientific ds power

/-- A finite number as text. -/
def digits (x : Binary64) : List Char :=
  if x.isNegative then '-' :: magnitudeDigits x.magnitude else magnitudeDigits x.magnitude

end Binary64

end MemoTransfer.Number
