import MemoTransfer.Json.Relaxed.Gap
import MemoTransfer.Json.Relaxed.Numeral

/-!
# Reading a relaxed text

A relaxed JSON text is more than strict JSON in its gaps, strings and numbers; besides, a comma may
follow the last item of a list and the last member of an object, and the name of a member may go
without quotes. Such a name is made of letters, digits, low lines, dollar signs, characters beyond
ASCII and escapes of code points; it begins with no digit, and with no word that stands for a value.
-/

namespace MemoTransfer.Json.Relaxed

/-- Reads a part from the front of a text. -/
abbrev Scan (α : Type) := StateT (List Char) Option α

/-- The next character after a gap, which stays unread. -/
def next : Scan Char := do
  modify skipGaps
  (← get).head?

/-- Drops the next character, which is the given one. -/
def mark (c : Char) : Scan Unit := do
  if (← next) = c then modify (List.drop 1) else failure

/-! ## Names -/

/-- The character may stand in a name without quotes. -/
def isNameChar (c : Char) : Bool :=
  c.isAlphanum || c = '_' || c = '$' || 0x80 ≤ c.toNat && !isGap c

/-- The pieces of a name without quotes; `taken` are those so far, the last one first. -/
def namePieces : Nat → List Spelled → Scan (List Spelled)
  | 0, taken => return taken.reverse
  | n + 1, taken => do
    match ← get with
    | '\\' :: 'u' :: cs =>
      match codeEscape? cs with
      | some (piece, rest) =>
        set rest
        namePieces n (piece :: taken)
      | none => return taken.reverse
    | c :: cs =>
      if isNameChar c then
        set cs
        namePieces n (.ofChar c :: taken)
      else return taken.reverse
    | [] => return taken.reverse

/-- A name without quotes. -/
def bareName : Scan Spelled := do
  let cs ← get
  if cs.head?.any Char.isDigit || (constant? (word cs)).isSome then failure
  match ← namePieces cs.length [] with
  | [] => failure
  | pieces => return .ofPieces pieces

/-- A string after its opening quote. -/
def stringAfter (quote : Char) : Scan Spelled := do
  modify (List.drop 1)
  let (s, rest) ← string? quote (← get)
  set rest
  return s

/-- The name of a member and its colon. -/
def memberName : Scan Spelled := do
  let c ← next
  let name ← if c = '"' || c = '\'' then stringAfter c else bareName
  mark ':'
  return name

/-! ## Values -/

/-- The parts of a list or an object up to its closing mark, which is dropped; `taken` are those so
far, the last one first. A comma stands between two parts and may stand after the last one. Each
part takes at least one character, so that the length of the text bounds their number. -/
def parts {α : Type} (closing : Char) (part : Scan α) : Nat → List α → Scan (List α)
  | 0, _ => failure
  | n + 1, taken => do
    if (← next) = closing then
      mark closing
      return taken.reverse
    let v ← part
    if (← next) = closing then
      mark closing
      return (v :: taken).reverse
    mark ','
    parts closing part n (v :: taken)

/-- The parts of a list or an object, from its opening mark on. -/
def partsAfter {α : Type} (closing : Char) (part : Scan α) : Scan (List α) := do
  modify (List.drop 1)
  parts closing part (← get).length []

/-- A value with at most `depth` lists and objects one in another. -/
def value (depth : Nat) : Scan Relaxed := do
  let c ← next
  if c = '[' then
    match depth with
    | 0 => failure
    | depth + 1 => return .list (← partsAfter ']' (value depth))
  else if c = '{' then
    match depth with
    | 0 => failure
    | depth + 1 =>
      return .object (← partsAfter '}' do
        let name ← memberName
        return (name, ← value depth))
  else if c = '"' || c = '\'' then return .text (← stringAfter c)
  else
    let (v, rest) ← scalar? (← get)
    set rest
    return v

/-- The value of a whole text, if it is relaxed JSON of at most the given depth. -/
def read? (depth : Nat) (cs : List Char) : Option Relaxed := do
  let (v, rest) ← (value depth).run cs
  if (skipGaps rest).isEmpty then some v else none

end MemoTransfer.Json.Relaxed
