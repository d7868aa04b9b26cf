import MemoTransfer.Json.Reader.Numeral
import MemoTransfer.Json.Reader.Text

/-!
# Readers of one kind of value

Each reads a value of one kind and refuses every other. The fault of a value of another kind shows
the value, so that a number or a string is read before it is refused, and a fault of its form comes
first.
-/

namespace MemoTransfer.Json.Reader

open MemoTransfer.Number

/-- Refuses the next value, which is not of the expected kind; its first character is given. -/
def refuse {α : Type} (expected : String) (c : Char) : Reader α := do
  if c = 'n' then
    null
    throw (.wrongKind .null expected)
  else if c = 't' then
    yes
    throw (.wrongKind (.boolean true) expected)
  else if c = 'f' then
    no
    throw (.wrongKind (.boolean false) expected)
  else if c = '-' ∨ c.isDigit then
    throw (.wrongKind (← number).found expected)
  else if c = '"' then
    advance
    throw (.wrongKind (.text (← stringBody)) expected)
  else if c = '[' then throw (.wrongKind .list expected)
  else if c = '{' then throw (.wrongKind .object expected)
  else throw .expectedValue

/-- The first character of the next value. -/
def start : Reader Char := do
  match ← peek with
  | some c => return c
  | none => throw (.ended .value)

/-- A boolean. -/
def boolean : Reader Bool := do
  let c ← start
  if c = 't' then
    yes
    return true
  else if c = 'f' then
    no
    return false
  else refuse "a boolean" c

/-- A string of the expected kind. -/
def textOf (expected : String) : Reader String := do
  let c ← start
  if c = '"' then
    advance
    stringBody
  else refuse expected c

/-- A string. -/
def text : Reader String := textOf "a string"

/-- A number of the expected kind. -/
def numberOf (expected : String) : Reader Magnitude := do
  let c ← start
  if c = '-' ∨ c.isDigit then number else refuse expected c

/-- An integer between two bounds. -/
def integerOf (expected : String) (least most : Int) : Reader Int := do
  match ← numberOf expected with
  | .integer n =>
    if least ≤ n ∧ n ≤ most then return n else throw (.wrongInteger n expected)
  | .floating x => throw (.wrongKind (.floating x) expected)

/-- A signed integer of 64 bits. -/
def int64 : Reader Int64 := do
  return Int64.ofInt (← integerOf "i64" (-2 ^ 63) (2 ^ 63 - 1))

/-- A natural number of 32 bits. -/
def uint32 : Reader UInt32 := do
  return UInt32.ofNat (← integerOf "u32" 0 (2 ^ 32 - 1)).toNat

/-- A natural number of 64 bits. -/
def uint64 : Reader UInt64 := do
  return UInt64.ofNat (← integerOf "u64" 0 (2 ^ 64 - 1)).toNat

/-- A floating-point number; an integer stands for the nearest one. -/
def floating : Reader Binary64 := do
  match ← numberOf "f64" with
  | .floating x => return x
  | .integer n =>
    match Binary64.ofDecimal? (n < 0) n.natAbs 0 with
    | some x => return x
    | none => throw .numberOutOfRange

/-- A value or `null`. -/
def optional {α : Type} (r : Reader α) : Reader (Option α) := do
  if (← peek) = some 'n' then
    null
    return none
  else return some (← r)

/-- A list. -/
def list {α : Type} (item : Reader α) : Reader (List α) := do
  let c ← start
  if c = '[' then
    advance
    items item
  else refuse "a sequence" c

/-- A string that its own format turns into a value or refuses with a reason. -/
def parsed {α : Type} (expected : String) (parse : String → Except String α) : Reader α := do
  match parse (← textOf expected) with
  | .ok v => return v
  | .error reason => throw (.refused reason)

/-- One of several names, or an object whose only member has such a name and holds `null`. -/
def oneOf {α : Type} (known : List (String × α)) : Reader α := do
  let c ← start
  if c = '"' then
    advance
    named (← stringBody)
  else if c = '{' then
    advance
    match ← peek with
    | some '"' => advance
    | some _ => throw .keyNotString
    | none => throw (.ended .object)
    let v ← named (← stringBody)
    colon
    unit
    match ← peek with
    | some '}' =>
      advance
      return v
    | some _ => throw .expectedValue
    | none => throw (.ended .object)
  else throw .expectedValue
where
  /-- The value with the name. -/
  named (name : String) : Reader α :=
    match known.lookup name with
    | some v => pure v
    | none => throw (.unknownName name (known.map (·.1)))
  /-- The value `null` and no other. -/
  unit : Reader Unit := do
    let c ← start
    if c = 'n' then null else refuse "unit" c

end MemoTransfer.Json.Reader
