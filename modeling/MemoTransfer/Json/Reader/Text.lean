import MemoTransfer.Json.Reader.Basic

/-!
# Reading strings

The text between two quotes. An escape stands for one character; a character beyond the first
65536 may be escaped as two halves. The bytes must be UTF-8 once the escapes are replaced. A string
whose value does not matter is skipped with fewer checks: neither the halves of an escape nor UTF-8
matter then.
-/

namespace MemoTransfer.Json

/-- The value of a hexadecimal digit. -/
def hexDigit? (b : UInt8) : Option Nat :=
  if (Char.ofUInt8 b).isDigit then some (b.toNat - 0x30)
  else if 0x61 ≤ b ∧ b ≤ 0x66 then some (b.toNat - 0x61 + 10)
  else if 0x41 ≤ b ∧ b ≤ 0x46 then some (b.toNat - 0x41 + 10)
  else none

/-- The value of four hexadecimal digits. -/
def hexUnit (bs : Bytes) : Except Fault (Nat × Bytes) :=
  match bs with
  | a :: b :: c :: d :: rest =>
    match hexDigit? a, hexDigit? b, hexDigit? c, hexDigit? d with
    | some a, some b, some c, some d => .ok (((a * 16 + b) * 16 + c) * 16 + d, rest)
    | _, _, _, _ => .error .badEscape
  | _ => .error (.ended .string)

/-- The character that a letter after a backslash stands for. -/
def shortEscape? (b : UInt8) : Option Char :=
  match Char.ofUInt8 b with
  | '"' => some '"'
  | '\\' => some '\\'
  | '/' => some '/'
  | 'b' => some '\x08'
  | 'f' => some '\x0c'
  | 'n' => some '\n'
  | 'r' => some '\r'
  | 't' => some '\t'
  | _ => none

/-- The second half of an escaped pair, after its first half. -/
def lowHalf (bs : Bytes) : Except Fault (Nat × Bytes) :=
  match bs with
  | [] => .error (.ended .string)
  | b :: bs =>
    if Char.ofUInt8 b ≠ '\\' then .error .incompleteSurrogatePair
    else
      match bs with
      | [] => .error (.ended .string)
      | b :: bs =>
        if Char.ofUInt8 b ≠ 'u' then .error .incompleteSurrogatePair
        else do
          let (low, rest) ← hexUnit bs
          if 0xDC00 ≤ low ∧ low ≤ 0xDFFF then return (low, rest) else throw .loneSurrogate

/-- The character that an escape stands for, after its backslash. -/
def escaped (bs : Bytes) : Except Fault (Char × Bytes) :=
  match bs with
  | [] => .error (.ended .string)
  | b :: bs =>
    if Char.ofUInt8 b = 'u' then do
      let (unit, rest) ← hexUnit bs
      if 0xDC00 ≤ unit ∧ unit ≤ 0xDFFF then throw .loneSurrogate
      else if 0xD800 ≤ unit ∧ unit ≤ 0xDBFF then
        let (low, rest) ← lowHalf rest
        return (Char.ofNat (0x10000 + (unit - 0xD800) * 0x400 + (low - 0xDC00)), rest)
      else return (Char.ofNat unit, rest)
    else
      match shortEscape? b with
      | some c => .ok (c, bs)
      | none => .error .badEscape

/-- The bytes of a string up to its closing quote, which is dropped; `taken` are the bytes so far,
the last one first. Every step takes a byte, so that the length of the text bounds their number. -/
def stringBytes : Nat → Bytes → Bytes → Except Fault (Bytes × Bytes)
  | 0, _, _ => .error (.ended .string)
  | _ + 1, _, [] => .error (.ended .string)
  | n + 1, taken, b :: bs =>
    if Char.ofUInt8 b = '"' then .ok (taken.reverse, bs)
    else if Char.ofUInt8 b = '\\' then
      match escaped bs with
      | .ok (c, rest) => stringBytes n ((Utf8.encode (String.singleton c)).reverse ++ taken) rest
      | .error fault => .error fault
    else if b < 0x20 then .error .controlCharacter
    else stringBytes n (b :: taken) bs

/-- Skips a string after its opening quote. -/
def skipStringBytes : Nat → Bytes → Except Fault Bytes
  | 0, _ => .error (.ended .string)
  | _ + 1, [] => .error (.ended .string)
  | n + 1, b :: bs =>
    if Char.ofUInt8 b = '"' then .ok bs
    else if Char.ofUInt8 b = '\\' then
      match bs with
      | [] => .error (.ended .string)
      | e :: bs =>
        if Char.ofUInt8 e = 'u' then
          match hexUnit bs with
          | .ok (_, rest) => skipStringBytes n rest
          | .error fault => .error fault
        else if (shortEscape? e).isSome then skipStringBytes n bs
        else .error .badEscape
    else if b < 0x20 then .error .controlCharacter
    else skipStringBytes n bs

namespace Reader

/-- The rest of a string after its opening quote. -/
def stringBody : Reader String := do
  let bs ← get
  let (taken, rest) ← stringBytes bs.length [] bs
  set rest
  match Utf8.decode? taken with
  | some s => return s
  | none => throw .badCodePoint

/-- Skips the rest of a string after its opening quote. -/
def skipString : Reader Unit := do
  let bs ← get
  set (← skipStringBytes bs.length bs)

/-- The name of the next member of an object, if there is one. -/
def memberName (isFirst : Bool) : Reader (Option String) := do
  if ← moreMembers isFirst then
    advance
    return some (← stringBody)
  else return none

/-- Goes through the members of an object, from behind its opening brace up to its closing one,
which stays unread. Each member takes at least one byte, so that the length of the text bounds
their number. -/
def members {σ : Type} (member : σ → String → Reader σ) (start : σ) : Reader σ := do
  go (← get).length true start
where
  /-- At most `n` members. -/
  go : Nat → Bool → σ → Reader σ
    | 0, _, _ => throw (.ended .object)
    | n + 1, isFirst, s => do
      match ← memberName isFirst with
      | some name => go n false (← member s name)
      | none => return s

end Reader

end MemoTransfer.Json
