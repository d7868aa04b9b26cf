import MemoTransfer.Calendar.Date
import MemoTransfer.Number.Numeral

/-!
# Instants

A moment in universal time with nanoseconds, in the years -262143 to 262142. A leap second is kept
in the second before it, as nanoseconds from one thousand million on, and only a second 59 can hold
one. `Instant.text` writes a moment with a date, a time and the letter `Z`; `ofUnix` makes one of
whole seconds.
-/

namespace MemoTransfer.Calendar

open MemoTransfer.Number

/-- The first second that an instant can name. -/
def firstSecond : Int := -8334601228800

/-- The last second that an instant can name. -/
def lastSecond : Int := 8210266876799

/-- Seconds from 1970-01-01T00:00:00Z and nanoseconds after them. -/
structure Instant where
  seconds : Int
  nanos : Nat
  first_le : firstSecond ≤ seconds
  le_last : seconds ≤ lastSecond
  nanos_lt : nanos < 2 * 10 ^ 9
  leap : 10 ^ 9 ≤ nanos → seconds % 60 = 59
  deriving DecidableEq

namespace Instant

/-- The instant with these seconds and nanoseconds, if there is one. -/
def ofParts? (seconds : Int) (nanos : Nat) : Option Instant :=
  if h : (firstSecond ≤ seconds ∧ seconds ≤ lastSecond) ∧ nanos < 2 * 10 ^ 9 ∧
      (10 ^ 9 ≤ nanos → seconds % 60 = 59) then
    some ⟨seconds, nanos, h.1.1, h.1.2, h.2.1, h.2.2⟩
  else none

/-- The beginning of the count of seconds. -/
def epoch : Instant := ⟨0, 0, by decide, by decide, by decide, by decide⟩

instance : Inhabited Instant := ⟨epoch⟩

/-- The instant that many seconds after 1970, or the epoch if it is out of range. -/
def ofUnix (seconds : Int) : Instant := (ofParts? seconds 0).getD epoch

theorem ofParts?_seconds_nanos (t : Instant) : ofParts? t.seconds t.nanos = some t := by
  unfold ofParts?
  rw [dif_pos ⟨⟨t.first_le, t.le_last⟩, t.nanos_lt, t.leap⟩]

theorem seconds_ofUnix {s : Int} (h : firstSecond ≤ s ∧ s ≤ lastSecond) :
    (ofUnix s).seconds = s := by
  have hn : ¬(10 ^ 9 ≤ 0) := by decide
  unfold ofUnix ofParts?
  rw [dif_pos ⟨h, by decide, fun k => absurd k hn⟩]
  rfl

/-! ## Its parts -/

/-- The date in universal time. -/
def date (t : Instant) : Date := Date.ofDays (t.seconds / 86400)

/-- The seconds since midnight. -/
def secondOfDay (t : Instant) : Nat := (t.seconds % 86400).toNat

/-- The hour, from 0 to 23. -/
def hour (t : Instant) : Nat := t.secondOfDay / 3600

/-- The minute, from 0 to 59. -/
def minute (t : Instant) : Nat := t.secondOfDay / 60 % 60

/-- The second, from 0 to 60: a leap second is number 60. -/
def second (t : Instant) : Nat :=
  t.secondOfDay % 60 + if 10 ^ 9 ≤ t.nanos then 1 else 0

/-- The nanoseconds within the second. -/
def fraction (t : Instant) : Nat := t.nanos % 10 ^ 9

/-! ## Written forms -/

/-- A year: four digits from 0 to 9999, otherwise a sign and at least four digits. -/
def yearDigits (year : Int) : List Char :=
  if 0 ≤ year ∧ year ≤ 9999 then padded 4 year.toNat
  else (if year < 0 then '-' else '+') :: padded 4 year.natAbs

/-- The fraction of a second, after a point: none, three, six or nine digits, as few as lose
nothing. -/
def fractionDigits (fraction : Nat) : List Char :=
  if fraction = 0 then []
  else if fraction % 10 ^ 6 = 0 then '.' :: padded 3 (fraction / 10 ^ 6)
  else if fraction % 10 ^ 3 = 0 then '.' :: padded 6 (fraction / 10 ^ 3)
  else '.' :: padded 9 fraction

/-- Date and time with a `T` between them. -/
def dateTimeDigits (t : Instant) : List Char :=
  let d := t.date
  yearDigits d.year ++ '-' :: padded 2 d.month ++ '-' :: padded 2 d.day ++
    'T' :: padded 2 t.hour ++ ':' :: padded 2 t.minute ++ ':' :: padded 2 t.second ++
    fractionDigits t.fraction

/-- The instant as a text that ends in `Z`. -/
def text (t : Instant) : String := String.ofList (t.dateTimeDigits ++ ['Z'])

/-- The instant as a text that ends in the offset `+00:00`. -/
def offsetText (t : Instant) : String :=
  String.ofList (t.dateTimeDigits ++ ['+', '0', '0', ':', '0', '0'])

/-- The digits of date and time with an underscore between them, without marks: a name that sorts
by time. -/
def compactDigits (t : Instant) : List Char :=
  let d := t.date
  yearDigits d.year ++ padded 2 d.month ++ padded 2 d.day ++
    '_' :: padded 2 t.hour ++ padded 2 t.minute ++ padded 2 t.second

/-- The instant to the minute, as in a listing. -/
def minuteText (t : Instant) : String :=
  let d := t.date
  String.ofList (yearDigits d.year ++ '-' :: padded 2 d.month ++ '-' :: padded 2 d.day ++
    ' ' :: padded 2 t.hour ++ ':' :: padded 2 t.minute)

example : (ofUnix 1709296245).text = "2024-03-01T12:30:45Z" := by decide +kernel

end Instant

end MemoTransfer.Calendar
