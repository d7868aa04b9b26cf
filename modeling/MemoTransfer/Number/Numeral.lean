/-!
# Decimal numerals

Whole numbers as decimal digits: `natDigits` and `intDigits` write them, `readNat?`, `readInt64?`
and `readUInt64?` read them. A reader takes ASCII digits only, at least one of them, and refuses a
value outside its range. What is written is read back (`readNat?_natDigits`).
-/

-- Powers are those of the core library, also in a module that knows of others.
attribute [instance (20000), default_instance 20000] instPowNat

namespace MemoTransfer.Number

/-- The decimal digits of a natural number, without leading zeros. -/
def natDigits (n : Nat) : List Char := Nat.toDigits 10 n

/-- The decimal digits of an integer, after a minus if it is negative. -/
def intDigits : Int → List Char
  | .ofNat n => natDigits n
  | .negSucc n => '-' :: natDigits (n + 1)

/-- A natural number as a text. -/
def natText (n : Nat) : String := String.ofList (natDigits n)

/-- An integer as a text. -/
def intText (n : Int) : String := String.ofList (intDigits n)

/-- The digits of a number, filled up with zeros in front to the given width. -/
def padded (width n : Nat) : List Char :=
  let ds := natDigits n
  List.replicate (width - ds.length) '0' ++ ds

/-- The value of a list of decimal digits. -/
def digitsValue (ds : List Char) : Nat := Nat.ofDigitChars 10 ds 0

/-- The value of a hexadecimal digit. -/
def hexValue? (c : Char) : Option Nat :=
  if c.isDigit then some (c.toNat - 48)
  else if 'a' ≤ c ∧ c ≤ 'f' then some (c.toNat - 87)
  else if 'A' ≤ c ∧ c ≤ 'F' then some (c.toNat - 55)
  else none

/-- Reads one or more digits. -/
def readNat? (cs : List Char) : Option Nat :=
  if cs.isEmpty || !cs.all Char.isDigit then none else some (digitsValue cs)

/-- Reads an integer of 64 bits with an optional sign. -/
def readInt64? (cs : List Char) : Option Int := do
  let n ← match cs with
    | '-' :: ds => (readNat? ds).map fun n => -(n : Int)
    | '+' :: ds => (readNat? ds).map Int.ofNat
    | ds => (readNat? ds).map Int.ofNat
  if -2 ^ 63 ≤ n ∧ n < 2 ^ 63 then some n else none

/-- Reads a natural number of 64 bits with an optional plus. -/
def readUInt64? (cs : List Char) : Option UInt64 := do
  let n ← match cs with
    | '+' :: ds => readNat? ds
    | ds => readNat? ds
  if n < 2 ^ 64 then some (UInt64.ofNat n) else none

theorem all_isDigit_natDigits (n : Nat) : (natDigits n).all Char.isDigit = true := by
  rw [List.all_eq_true]
  intro c hc
  exact Nat.isDigit_of_mem_toDigits (by decide) (by decide) hc

theorem natDigits_ne_nil (n : Nat) : natDigits n ≠ [] := Nat.toDigits_ne_nil

theorem digitsValue_natDigits (n : Nat) : digitsValue (natDigits n) = n :=
  Nat.ofDigitChars_ten_toDigits

theorem readNat?_natDigits (n : Nat) : readNat? (natDigits n) = some n := by
  have h : (natDigits n).isEmpty = false := by
    simpa using natDigits_ne_nil n
  simp [readNat?, h, all_isDigit_natDigits, digitsValue_natDigits]

end MemoTransfer.Number
