import MemoTransfer.Json.Reader.Basic

/-!
# Reading numbers

A numeral is a sign, digits, digits after a point and a power of ten. Without the last two it is an
integer if 64 bits can hold it; minus zero and every other numeral is a floating-point number, the
one nearest to the value.
-/

namespace MemoTransfer.Json

open MemoTransfer.Number

/-- The parts of a numeral. -/
structure Numeral where
  negative : Bool
  whole : List Char
  fraction : Option (List Char)
  power : Option Int
  deriving DecidableEq, Repr

/-- The value of a numeral. -/
inductive Magnitude
  | integer (value : Int)
  | floating (value : Binary64)
  deriving DecidableEq, Repr

/-- The number as it is named in a fault. -/
def Magnitude.found : Magnitude → Found
  | .integer n => .integer n
  | .floating x => .floating x

/-- The integer that a numeral without point and power stands for, if 64 bits can hold it. -/
def Numeral.integer? (n : Numeral) : Option Int :=
  if n.fraction.isSome || n.power.isSome then none
  else
    let size := digitsValue n.whole
    if n.negative then
      if 1 ≤ size ∧ size ≤ 2 ^ 63 then some (-(size : Int)) else none
    else if size < 2 ^ 64 then some size else none

/-- The nearest floating-point number, if it is finite. -/
def Numeral.floating? (n : Numeral) : Option Binary64 :=
  let fraction := n.fraction.getD []
  Binary64.ofDecimal? n.negative (digitsValue (n.whole ++ fraction))
    (n.power.getD 0 - fraction.length)

/-- The value of a numeral. -/
def Numeral.value (n : Numeral) : Except Fault Magnitude :=
  match n.integer? with
  | some i => .ok (.integer i)
  | none =>
    match n.floating? with
    | some x => .ok (.floating x)
    | none => .error .numberOutOfRange

namespace Reader

/-- The digits that come next. -/
def digitRun : Reader (List Char) := do
  let bs ← get
  set (bs.dropWhile isDigitByte)
  return (bs.takeWhile isDigitByte).map Char.ofUInt8

/-- At least one digit; `ended` is the fault at the end of the text. -/
def someDigits (ended : Fault) : Reader (List Char) := do
  match ← digitRun with
  | [] => if (← get).isEmpty then throw ended else throw .badNumber
  | ds => return ds

/-- The next character, without skipping white space. -/
def nextIs (c : Char) : Reader Bool := do
  return (← get).head?.map Char.ofUInt8 = some c

/-- Takes the next character if it is the given one. -/
def take? (c : Char) : Reader Bool := do
  if ← nextIs c then
    advance
    return true
  else return false

/-- The digits before a point: a zero comes alone. -/
def wholeDigits (ended : Fault) : Reader (List Char) := do
  let ds ← someDigits ended
  if ds.head? = some '0' ∧ ds.length ≠ 1 then throw .badNumber
  return ds

/-- The digits after a point. -/
def fractionDigits (ended : Fault) : Reader (Option (List Char)) := do
  if ← take? '.' then return some (← someDigits ended) else return none

/-- The power of ten after a letter `e`. -/
def power (ended : Fault) : Reader (Option Int) := do
  let isGiven ← if ← take? 'e' then pure true else take? 'E'
  if isGiven then
    let isNegative ← if ← take? '+' then pure false else take? '-'
    let size : Int := digitsValue (← someDigits ended)
    return some (if isNegative then -size else size)
  else return none

/-- A numeral. -/
def numeral (ended : Fault) : Reader Numeral := do
  let negative ← take? '-'
  let whole ← wholeDigits ended
  let fraction ← fractionDigits ended
  return ⟨negative, whole, fraction, ← power ended⟩

/-- A number. -/
def number : Reader Magnitude := do
  (← numeral (.ended .value)).value

end Reader

end MemoTransfer.Json
