import MemoTransfer.Number.Numeral
import MemoTransfer.Text.Utf8

/-!
# Base64

Bytes as a text of 64 letters, four for every three bytes, with equals signs in the places that the
last bytes do not fill. Reading is strict: the text must be exactly what writing gives, and the
first departure from that is named with its place.
-/

namespace MemoTransfer.Text.Base64

open MemoTransfer.Number

/-- Why a text is not in base64. -/
inductive Fault
  /-- A byte that cannot stand at this place. -/
  | badSymbol (byte : UInt8) (place : Nat)
  /-- The text ends after the first letter of a group. -/
  | badLength (length : Nat)
  /-- The last group has fewer than four letters and signs. -/
  | badPadding
  /-- The last letter has bits that belong to no byte. -/
  | badLastSymbol (byte : UInt8) (place : Nat)
  deriving DecidableEq, Repr

/-- The wording of a fault. -/
def Fault.message : Fault → String
  | .badSymbol byte place =>
    "Invalid symbol " ++ natText byte.toNat ++ ", offset " ++ natText place ++ "."
  | .badLength length => "Invalid input length: " ++ natText length
  | .badPadding => "Invalid padding"
  | .badLastSymbol byte place =>
    "Invalid last symbol " ++ natText byte.toNat ++ ", offset " ++ natText place ++ "."

/-- The letter of a number below 64. -/
def letter (n : Nat) : Char :=
  if n < 26 then Char.ofNat (n + 0x41)
  else if n < 52 then Char.ofNat (n - 26 + 0x61)
  else if n < 62 then Char.ofNat (n - 52 + 0x30)
  else if n = 62 then '+' else '/'

/-- The number of a letter. -/
def value? (byte : UInt8) : Option Nat :=
  let n := byte.toNat
  if 0x41 ≤ n ∧ n ≤ 0x5A then some (n - 0x41)
  else if 0x61 ≤ n ∧ n ≤ 0x7A then some (n - 0x61 + 26)
  else if 0x30 ≤ n ∧ n ≤ 0x39 then some (n - 0x30 + 52)
  else if n = 0x2B then some 62
  else if n = 0x2F then some 63
  else none

/-- The code of the equals sign. -/
def pad : UInt8 := 0x3D

/-- The text of some bytes. -/
def encode : Bytes → List Char
  | [] => []
  | [a] => [letter (a.toNat / 4), letter (a.toNat % 4 * 16), '=', '=']
  | [a, b] =>
    [letter (a.toNat / 4), letter (a.toNat % 4 * 16 + b.toNat / 16), letter (b.toNat % 16 * 4), '=']
  | a :: b :: c :: rest =>
    letter (a.toNat / 4) :: letter (a.toNat % 4 * 16 + b.toNat / 16) ::
      letter (b.toNat % 16 * 4 + c.toNat / 64) :: letter (c.toNat % 64) :: encode rest

/-- The numbers of letters from a place on, or the first byte that is no letter. -/
def values (place : Nat) : Bytes → Except Fault (List Nat)
  | [] => .ok []
  | b :: bs =>
    match value? b with
    | none => .error (.badSymbol b place)
    | some v => do return v :: (← values (place + 1) bs)

/-- The bytes that the letters of one group fill. -/
def groupBytes : List Nat → Bytes
  | [a, b] => [UInt8.ofNat (a * 4 + b / 16)]
  | [a, b, c] => [UInt8.ofNat (a * 4 + b / 16), UInt8.ofNat (b % 16 * 16 + c / 4)]
  | [a, b, c, d] =>
    [UInt8.ofNat (a * 4 + b / 16), UInt8.ofNat (b % 16 * 16 + c / 4), UInt8.ofNat (c % 4 * 64 + d)]
  | _ => []

/-- The letters of one group leave no bits over. -/
def fillsBytes : List Nat → Bool
  | [_, b] => b % 16 = 0
  | [_, _, c] => c % 4 = 0
  | _ => true

/-- The last group of a text, at its place. -/
def decodeLast (place : Nat) (bs : Bytes) : Except Fault Bytes := do
  let letters := bs.takeWhile (· ≠ pad)
  let signs := bs.dropWhile (· ≠ pad)
  let vs ← values place letters
  if !signs.isEmpty && (letters.length < 2 || !signs.all (· = pad)) then
    throw (.badSymbol pad (place + letters.length))
  if bs.isEmpty then return []
  if letters.length < 2 then throw (.badLength (place + letters.length))
  if bs.length ≠ 4 then throw .badPadding
  if fillsBytes vs then return groupBytes vs
  else throw (.badLastSymbol (letters.getLastD 0) (place + letters.length - 1))

/-- The groups of a text from a place on; only the last one may hold equals signs. -/
def decodeFrom (place : Nat) : Bytes → Except Fault Bytes
  | a :: b :: c :: d :: e :: rest => do
    let vs ← values place [a, b, c, d]
    return groupBytes vs ++ (← decodeFrom (place + 4) (e :: rest))
  | bs => decodeLast place bs

/-- The bytes that a text stands for. A single byte after the last whole group is looked at before
all others. -/
def decode (text : Bytes) : Except Fault Bytes :=
  match text.getLast? with
  | some b =>
    if text.length % 4 = 1 ∧ b ≠ pad ∧ (value? b).isNone then
      .error (.badSymbol b (text.length - 1))
    else decodeFrom 0 text
  | none => .ok []

example : encode [1, 2] = ['A', 'Q', 'I', '='] := by decide +kernel
example : decode (Utf8.encode "AQI=") = .ok [1, 2] := by rfl
example : decode (Utf8.encode "AR==") = .error (.badLastSymbol 0x52 1) := by rfl

end MemoTransfer.Text.Base64
