import MemoTransfer.Calendar.Instant
import MemoTransfer.Text.Blank

/-!
# Reading an instant

Reads a written date and time with an offset from universal time. White space may stand before
every number and mark, a `T`, a `t` or one space stands between date and time, digits of the second
beyond the ninth are dropped, and the offset is `Z`, `UTC` or a signed hour and minute. What
`Instant.text` writes is read back. A text is refused for the first reason that reading meets from
left to right; whether the calendar has the date is asked at the end.
-/

namespace MemoTransfer.Calendar

open MemoTransfer.Number MemoTransfer.Text

/-- Why a text is no date and time. -/
inductive TimeFault
  /-- A character that cannot stand where it does. -/
  | invalid
  /-- The text ends too early. -/
  | premature
  /-- A number is too large, or the calendar lacks the date. -/
  | outOfRange
  /-- More text follows. -/
  | trailing
  /-- Universal time has no such moment in its range. -/
  | impossible
  deriving DecidableEq, Repr

/-- The wording of a fault. -/
def TimeFault.message : TimeFault → String
  | .invalid => "input contains invalid characters"
  | .premature => "premature end of input"
  | .outOfRange => "input is out of range"
  | .trailing => "trailing input"
  | .impossible => "no possible date and time matching input"

/-- A reader of a part of a written time: its value and the text after it. -/
abbrev TimeReader (α : Type) := StateT (List Char) (Except TimeFault) α

namespace TimeReader

/-- Skips white space. -/
def blanks : TimeReader Unit := modify trimStart

/-- The given character. -/
def mark (c : Char) : TimeReader Unit := do
  match ← get with
  | [] => throw .premature
  | d :: rest => if d = c then set rest else throw .invalid

/-- A number of one to `most` digits, or of any number of digits without a bound. -/
def digits (most : Option Nat) : TimeReader (List Char) := do
  let cs ← get
  let run := cs.takeWhile Char.isDigit
  let ds := match most with
    | some n => run.take n
    | none => run
  if cs.isEmpty then throw .premature
  else if ds.isEmpty then throw .invalid
  else
    set (cs.drop ds.length)
    return ds

/-- A number of one or two digits between two bounds, after white space. -/
def twoDigits (least most : Nat) : TimeReader Nat := do
  blanks
  let n := digitsValue (← digits (some 2))
  if least ≤ n ∧ n ≤ most then return n else throw .outOfRange

/-- A year: up to four digits, or any number of them after a sign; a year has 32 bits. -/
def year : TimeReader Int := do
  blanks
  let y : Int ← match ← get with
    | '-' :: rest => do
      set rest
      pure (-(digitsValue (← digits none) : Int))
    | '+' :: rest => do
      set rest
      pure (digitsValue (← digits none) : Int)
    | _ => do
      pure (digitsValue (← digits (some 4)) : Int)
  if -2 ^ 31 ≤ y ∧ y < 2 ^ 31 then return y else throw .outOfRange

/-- A date. -/
def date : TimeReader Date := do
  let y ← year
  blanks
  mark '-'
  let m ← twoDigits 1 12
  blanks
  mark '-'
  let d ← twoDigits 1 31
  return ⟨y, m, d⟩

/-- The mark between date and time. -/
def separator : TimeReader Unit := do
  match ← get with
  | [] => throw .premature
  | c :: rest => if c = 'T' ∨ c = 't' ∨ c = ' ' then set rest else throw .invalid

/-- The nanoseconds after a point, if there is one. -/
def fraction : TimeReader Nat := do
  match ← get with
  | '.' :: rest =>
    set rest
    let ds ← digits (some 9)
    modify (List.dropWhile Char.isDigit)
    return digitsValue ds * 10 ^ (9 - ds.length)
  | _ => return 0

/-- A time of day: its second and the nanoseconds. Second 60 is kept in second 59. -/
def timeOfDay : TimeReader (Nat × Nat) := do
  let h ← twoDigits 0 23
  blanks
  mark ':'
  let m ← twoDigits 0 59
  blanks
  mark ':'
  let s ← twoDigits 0 60
  let nanos ← fraction
  let minutes := h * 60 + m
  return if s = 60 then (minutes * 60 + 59, nanos + 10 ^ 9) else (minutes * 60 + s, nanos)

/-- Two characters that are digits, the first of them at most `tens`. An offset is measured in
bytes, so one character beyond ASCII is long enough to be wrong. -/
def offsetDigits (cs : List Char) : Except TimeFault (Nat × List Char) :=
  match cs with
  | a :: b :: rest =>
    if a.isDigit && b.isDigit then .ok (digitsValue [a, b], rest) else .error .invalid
  | [a] => .error (if a.toNat < 128 then .premature else .invalid)
  | [] => .error .premature

/-- The minutes of an offset. -/
def offsetMinutes : TimeReader Nat := do
  let (m, rest) ← offsetDigits (← get)
  if m < 60 then
    set rest
    return m
  else throw .outOfRange

/-- The text begins with `UTC`, in small or capital letters. -/
def namesUniversalTime : List Char → Bool
  | a :: b :: c :: _ => [a, b, c].map Char.toUpper = ['U', 'T', 'C']
  | _ => false

/-- An offset from universal time in seconds. -/
def offset : TimeReader Int := do
  blanks
  let cs ← get
  if namesUniversalTime cs then
    set (cs.drop 3)
    return 0
  match cs with
  | [] => throw .premature
  | c :: rest =>
    if c = 'Z' ∨ c = 'z' then
      set rest
      return 0
    else if c = '+' ∨ c = '-' ∨ c = '\u2212' then
      let (h, rest) ← offsetDigits rest
      set (rest.dropWhile fun c => c = ':' || isBlank c)
      let m ← offsetMinutes
      let seconds : Int := (h * 60 + m) * 60
      return if c = '+' then seconds else -seconds
    else throw .invalid

/-- The end of the text, after white space. -/
def finish : TimeReader Unit := do
  blanks
  if !(← get).isEmpty then throw .trailing

end TimeReader

/-- The instant at a second of a date and an offset. -/
def Instant.ofLocal (date : Date) (second nanos : Nat) (offset : Int) :
    Except TimeFault Instant := do
  unless date.isValid && -262143 ≤ date.year && date.year ≤ 262142 do throw .outOfRange
  unless -86400 < offset && offset < 86400 do throw .outOfRange
  match Instant.ofParts? (date.toDays * 86400 + second - offset) nanos with
  | some t => return t
  | none => throw .impossible

/-- Date, separator, time of day and offset. -/
def TimeReader.instant : TimeReader Instant := do
  let d ← date
  separator
  let (second, nanos) ← timeOfDay
  let o ← offset
  finish
  Instant.ofLocal d second nanos o

/-- Reads a whole text as an instant. -/
def Instant.read (s : String) : Except TimeFault Instant :=
  (TimeReader.instant.run s.toList).map (·.1)

example : ((Instant.read "2024-03-01T12:30:45Z").map (·.seconds)).toOption = some 1709296245 := by
  decide +kernel

end MemoTransfer.Calendar
