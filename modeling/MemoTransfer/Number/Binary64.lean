import MemoTransfer.Number.Numeral

/-!
# Binary floating-point numbers of 64 bits

A number is its 64 bits. Without the sign bit the bits of a finite number count the numbers from
zero up: `magnitudeUnits b` is the value of magnitude `b` in units of the least positive number,
`2 ^ (-1074)`, and `nearestMagnitude` is the magnitude nearest to a quotient, of two equally near
ones the even one. `ofDecimal?` reads a decimal in this way and refuses a value beyond the largest
finite number.
-/

namespace MemoTransfer.Number

/-- A binary floating-point number, as its bits. -/
structure Binary64 where
  bits : UInt64
  deriving DecidableEq, Repr

namespace Binary64

/-- The magnitudes from here on are infinite or no number. -/
def magnitudeBound : Nat := 2047 * 2 ^ 52

/-- The sign bit is set. -/
def isNegative (x : Binary64) : Bool := 2 ^ 63 ≤ x.bits.toNat

/-- The bits without the sign bit. -/
def magnitude (x : Binary64) : Nat := x.bits.toNat % 2 ^ 63

/-- The number is neither infinite nor the result of an undefined operation. -/
def isFinite (x : Binary64) : Bool := x.magnitude < magnitudeBound

/-- The number with the given sign and magnitude. -/
def ofMagnitude (negative : Bool) (magnitude : Nat) : Binary64 :=
  ⟨UInt64.ofNat (magnitude + if negative then 2 ^ 63 else 0)⟩

/-- Positive zero. -/
def zero : Binary64 := ⟨0⟩

instance : Inhabited Binary64 := ⟨zero⟩

/-! ## Rounding -/

/-- The quotient rounded to the nearest integer, a half to the even one. -/
def divToNearest (num den : Nat) : Nat :=
  let q := num / den
  let r := num % den
  if 2 * r < den || (2 * r = den && q % 2 = 0) then q else q + 1

/-- The value of a magnitude in units of the least positive number. -/
def magnitudeUnits (b : Nat) : Nat :=
  let step := b / 2 ^ 52 - 1
  (b - step * 2 ^ 52) * 2 ^ step

/-- The magnitude nearest to `num / den`, as if there were no largest one. A magnitude `b` with
`step = b / 2 ^ 52 - 1` has a significand of 53 bits in units of `2 ^ step`. -/
def nearestMagnitude (num den : Nat) : Nat :=
  let units := num * 2 ^ 1074
  let step := Nat.log2 (units / den) - 52
  step * 2 ^ 52 + divToNearest units (den * 2 ^ step)

/-- The magnitude nearest to `digits * 10 ^ exponent`. Beyond four hundred places on either side
of the point every number is infinite or zero, and the power need not be computed. -/
def decimalMagnitude (digits : Nat) (exponent : Int) : Nat :=
  let places := (natDigits digits).length + exponent
  if digits = 0 || places < -400 then 0
  else if 400 < places then magnitudeBound
  else if 0 ≤ exponent then nearestMagnitude (digits * 10 ^ exponent.toNat) 1
  else nearestMagnitude digits (10 ^ (-exponent).toNat)

/-- The finite number nearest to `± digits * 10 ^ exponent`, if there is one. -/
def ofDecimal? (negative : Bool) (digits : Nat) (exponent : Int) : Option Binary64 :=
  let b := decimalMagnitude digits exponent
  if b < magnitudeBound then some (ofMagnitude negative b) else none

example : ofDecimal? false 1 0 = some ⟨0x3FF0000000000000⟩ := by decide +kernel
example : ofDecimal? true 0 5 = some ⟨0x8000000000000000⟩ := by decide +kernel
example : ofDecimal? false 3 (-324) = some ⟨1⟩ := by decide +kernel
example : ofDecimal? false 2 (-324) = some ⟨0⟩ := by decide +kernel
example : ofDecimal? false 17976931348623157 292 = some ⟨0x7FEFFFFFFFFFFFFF⟩ := by decide +kernel
example : ofDecimal? false 18 307 = none := by decide +kernel

end Binary64

end MemoTransfer.Number
