import MemoTransfer.Json.Value
import MemoTransfer.Text.Utf8

/-!
# Readers

A reader takes a value from the front of a JSON text, given as bytes, and leaves the rest. White
space before a value or a mark is skipped when the reader looks for it. A reader of one kind of
value refuses a value of another kind with a fault that names both (`refuse`).
-/

namespace MemoTransfer.Json

/-- A reader of a value from the front of a text. -/
abbrev Reader (α : Type) := StateT Bytes (Except Fault) α

/-- The characters that may stand between the parts of a text. -/
def isSpace (b : UInt8) : Bool := b = 0x20 || b = 0x09 || b = 0x0A || b = 0x0D

/-- The text without the white space at its front. -/
def skipSpace (bs : Bytes) : Bytes := bs.dropWhile isSpace

/-- A byte that is an ASCII digit. -/
def isDigitByte (b : UInt8) : Bool := (Char.ofUInt8 b).isDigit

namespace Reader

/-- The next character after white space, which stays unread; nothing at the end of the text. -/
def peek : Reader (Option Char) := do
  modify skipSpace
  return (← get).head?.map Char.ofUInt8

/-- Drops one byte. -/
def advance : Reader Unit := modify (List.drop 1)

/-- Reads the letters of a word. -/
def letters : List Char → Reader Unit
  | [] => pure ()
  | c :: cs => do
    match ← get with
    | [] => throw (.ended .value)
    | b :: rest =>
      if Char.ofUInt8 b = c then
        set rest
        letters cs
      else throw .expectedWord

/-- The word `null`. -/
def null : Reader Unit := letters ['n', 'u', 'l', 'l']

/-- The word `true`. -/
def yes : Reader Unit := letters ['t', 'r', 'u', 'e']

/-- The word `false`. -/
def no : Reader Unit := letters ['f', 'a', 'l', 's', 'e']

/-- The colon after the name of a member. -/
def colon : Reader Unit := do
  match ← peek with
  | some ':' => advance
  | some _ => throw .expectedColon
  | none => throw (.ended .object)

/-- Whether another item follows in a list. A comma stands before every item but the first; the
closing bracket stays unread. -/
def moreItems (isFirst : Bool) : Reader Bool := do
  match ← peek with
  | none => throw (.ended .list)
  | some ']' => return false
  | some c =>
    if isFirst then return true
    else if c = ',' then
      advance
      match ← peek with
      | none => throw (.ended .value)
      | some ']' => throw .trailingComma
      | some _ => return true
    else throw .expectedCommaOrBracket

/-- Whether another member follows in an object, whose name is then next. The closing brace stays
unread. -/
def moreMembers (isFirst : Bool) : Reader Bool := do
  match ← peek with
  | none => throw (.ended .object)
  | some '}' => return false
  | some c =>
    if isFirst then
      if c = '"' then return true else throw .keyNotString
    else if c = ',' then
      advance
      match ← peek with
      | none => throw (.ended .value)
      | some '"' => return true
      | some '}' => throw .trailingComma
      | some _ => throw .keyNotString
    else throw .expectedCommaOrBrace

/-- The end of a list whose items have been taken one by one. -/
def closeList : Reader Unit := do
  match ← peek with
  | none => throw (.ended .list)
  | some ']' => advance
  | some ',' =>
    advance
    if (← peek) = some ']' then throw .trailingComma else throw .trailingCharacters
  | some _ => throw .trailingCharacters

/-- All items of a list, from behind its opening bracket to its closing one. Each item takes at
least one byte, so that the length of the text bounds their number. -/
def items {α : Type} (item : Reader α) : Reader (List α) := do
  go (← get).length true []
where
  /-- At most `n` items. -/
  go : Nat → Bool → List α → Reader (List α)
    | 0, _, _ => throw (.ended .list)
    | n + 1, isFirst, taken => do
      if ← moreItems isFirst then
        let v ← item
        go n false (v :: taken)
      else
        advance
        return taken.reverse

/-- Reads a whole text, after which only white space may stand. -/
def run {α : Type} (r : Reader α) (bs : Bytes) : Except Fault α := do
  let (v, rest) ← StateT.run r bs
  if (skipSpace rest).isEmpty then return v else throw .trailingCharacters

end Reader

end MemoTransfer.Json
