import MemoTransfer.Json.Printer

/-!
# Strings of a relaxed text

A relaxed string may stand between single quotes, may hold controls and line breaks, and knows more
escapes than a strict one: a null, a vertical tab, a code point with two hexadecimal digits, and a
line break that is passed over. `Spelled` is such a string together with its strict spelling, in
which only what strict JSON lacks is written anew.
-/

namespace MemoTransfer.Json

/-- A string: its strict spelling between the quotes, and the code points that it stands for, among
which half of a surrogate pair may stand alone. -/
structure Spelled where
  spelling : List Char
  codes : List Nat
  deriving DecidableEq, Repr

namespace Spelled

/-- A character that stands for itself. -/
def ofChar (c : Char) : Spelled := ⟨escapeChar c, [c.toNat]⟩

/-- A line break that is passed over. -/
def lineBreak : Spelled := ⟨[], []⟩

/-- The string made of the pieces. A line break that is passed over at the end leaves a null
character behind. -/
def ofPieces (pieces : List Spelled) : Spelled where
  spelling := pieces.flatMap spelling
  codes := pieces.flatMap codes ++ if pieces.getLast? = some lineBreak then [0] else []

/-- The string stands for the text. -/
def isText (s : Spelled) (t : String) : Bool := s.codes = t.toList.map Char.toNat

/-- The string names the member: the two agree up to the first null character. -/
def names (s : Spelled) (name : String) : Bool :=
  s.codes.takeWhile (· ≠ 0) = name.toList.map Char.toNat

/-- The string between quotes. -/
def chars (s : Spelled) : List Char := '"' :: s.spelling ++ ['"']

end Spelled

namespace Relaxed

open MemoTransfer.Number

/-! ## Escapes -/

/-- The value of the given number of hexadecimal digits at the front of a text. -/
def hexCode? (width : Nat) (cs : List Char) : Option Nat := do
  let ds ← (cs.take width).mapM hexValue?
  if ds.length = width then some (ds.foldl (fun n d => n * 16 + d) 0) else none

/-- The second half of a pair of surrogates, if the first half is one and an escape of the second
half comes next. -/
def lowHalf? (high : Nat) : List Char → Option Nat
  | '\\' :: 'u' :: cs =>
    if 0xD800 ≤ high ∧ high ≤ 0xDBFF then
      (hexCode? 4 cs).filter fun low => 0xDC00 ≤ low ∧ low ≤ 0xDFFF
    else none
  | _ => none

/-- An escape of a code point with four hexadecimal digits, or of a pair of surrogates, and what
follows it. -/
def codeEscape? (cs : List Char) : Option (Spelled × List Char) := do
  let high ← hexCode? 4 cs
  match lowHalf? high (cs.drop 4) with
  | some low =>
    let code := 0x10000 + (high - 0xD800) * 0x400 + (low - 0xDC00)
    return (⟨'\\' :: 'u' :: cs.take 10, [code]⟩, cs.drop 10)
  | none => return (⟨'\\' :: 'u' :: cs.take 4, [high]⟩, cs.drop 4)

/-- What an escape stands for, after its backslash, and what follows it. -/
def escape? : List Char → Option (Spelled × List Char)
  | [] => none
  | 'u' :: cs => codeEscape? cs
  | 'x' :: cs =>
    (hexCode? 2 cs).map fun n => (⟨'\\' :: 'u' :: '0' :: '0' :: cs.take 2, [n]⟩, cs.drop 2)
  | '0' :: cs =>
    if cs.head?.any Char.isDigit then none else some (⟨['\\', 'u', '0', '0', '0', '0'], [0]⟩, cs)
  | '\r' :: '\n' :: cs => some (.lineBreak, cs)
  | c :: cs =>
    let short (code : Nat) : Option (Spelled × List Char) := some (⟨['\\', c], [code]⟩, cs)
    match c with
    | '"' | '\\' | '/' => short c.toNat
    | 'b' => short 8
    | 'f' => short 12
    | 'n' => short 10
    | 'r' => short 13
    | 't' => short 9
    | 'v' => some (⟨['\\', 'u', '0', '0', '0', 'b'], [11]⟩, cs)
    | '\'' => some (⟨['\''], [39]⟩, cs)
    | '\n' | '\r' | '\u2028' | '\u2029' => some (.lineBreak, cs)
    | _ => none

/-! ## Strings -/

/-- The pieces of a string up to its closing quote, which is dropped, and what follows; `taken` are
the pieces so far, the last one first. Every step takes a character, so that the length of the text
bounds their number. -/
def pieces? (quote : Char) : Nat → List Spelled → List Char → Option (List Spelled × List Char)
  | 0, _, _ => none
  | _ + 1, _, [] => none
  | n + 1, taken, c :: cs =>
    if c = quote then some (taken.reverse, cs)
    else if c = '\\' then
      match escape? cs with
      | some (piece, rest) => pieces? quote n (piece :: taken) rest
      | none => none
    else pieces? quote n (.ofChar c :: taken) cs

/-- The rest of a string after its opening quote, and what follows it. -/
def string? (quote : Char) (cs : List Char) : Option (Spelled × List Char) :=
  (pieces? quote cs.length [] cs).map fun (pieces, rest) => (.ofPieces pieces, rest)

example : string? '\'' "a\"\\x41\\v'b".toList =
    some (⟨"a\\\"\\u0041\\u000b".toList, [97, 34, 65, 11]⟩, ['b']) := by decide +kernel

end Relaxed

end MemoTransfer.Json
