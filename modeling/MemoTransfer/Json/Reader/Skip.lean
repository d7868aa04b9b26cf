import MemoTransfer.Json.Reader.Numeral
import MemoTransfer.Json.Reader.Text

/-!
# Skipping a value

Takes one value of any kind from a text without keeping it. The values that enclose the current one
are kept in a list, so that they may nest without limit. Numerals are checked for their form and not
for their size, and the bytes of strings not at all.
-/

namespace MemoTransfer.Json

/-- A value that encloses the one being skipped. -/
inductive Enclosure
  | list
  | object
  deriving DecidableEq, Repr

/-- The mark that closes an enclosure. -/
def Enclosure.mark : Enclosure → Char
  | .list => ']'
  | .object => '}'

/-- The fault of a text that ends in an enclosure. -/
def Enclosure.ended : Enclosure → Fault
  | .list => .ended .list
  | .object => .ended .object

/-- The fault of a mark that neither continues nor closes an enclosure. -/
def Enclosure.expectedComma : Enclosure → Fault
  | .list => .expectedCommaOrBracket
  | .object => .expectedCommaOrBrace

namespace Reader

/-- Skips the name of a member and its colon. -/
def skipName : Reader Unit := do
  match ← peek with
  | some '"' =>
    advance
    skipString
    colon
  | some _ => throw .keyNotString
  | none => throw (.ended .object)

/-- Skips a value that is no list and no object; its first character is given. -/
def skipScalar (c : Char) : Reader Unit := do
  if c = 'n' then null
  else if c = 't' then yes
  else if c = 'f' then no
  else if c = '"' then
    advance
    skipString
  else if c = '-' ∨ c.isDigit then
    let _ ← numeral .badNumber
  else throw .expectedValue

/-- Where skipping stands. -/
inductive Skipping
  /-- A value comes next. -/
  | value
  /-- A value has ended. -/
  | rest
  deriving DecidableEq, Repr

/-- Enters a list or an object behind its opening mark: the next thing to skip, and the enclosures
around it. -/
def enter (e : Enclosure) (around : List Enclosure) : Reader (Skipping × List Enclosure) := do
  match ← peek with
  | none => throw e.ended
  | some c =>
    if c = e.mark then
      advance
      return (.rest, around)
    else
      if e = .object then skipName
      return (.value, e :: around)

/-- Skips the next part: a scalar, an opening mark, or the comma or closing mark after a value. -/
def skipPart (s : Skipping) (around : List Enclosure) : Reader (Skipping × List Enclosure) := do
  match s, around with
  | .rest, [] => return (.rest, [])
  | .rest, e :: outer =>
    match ← peek with
    | none => throw e.ended
    | some c =>
      if c = ',' then
        advance
        if e = .object then skipName
        return (.value, e :: outer)
      else if c = e.mark then
        advance
        return (.rest, outer)
      else throw e.expectedComma
  | .value, around =>
    match ← peek with
    | none => throw (.ended .value)
    | some '[' =>
      advance
      enter .list around
    | some '{' =>
      advance
      enter .object around
    | some c =>
      skipScalar c
      return (.rest, around)

/-- Skips parts until the value has ended; each part takes at least one byte. -/
def skipParts : Nat → Skipping → List Enclosure → Reader Unit
  | _, .rest, [] => pure ()
  | 0, _, _ => throw (.ended .value)
  | n + 1, s, around => do
    let (s, around) ← skipPart s around
    skipParts n s around

/-- Skips one value. -/
def skipValue : Reader Unit := do
  skipParts ((← get).length + 1) .value []

end Reader

end MemoTransfer.Json
