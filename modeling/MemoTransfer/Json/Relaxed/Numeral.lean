import MemoTransfer.Json.Relaxed.Tree

/-!
# Numbers and words of a relaxed text

A relaxed number may have a plus sign, may lack the digits on one side of its point, and may be
hexadecimal. The words for infinity and for what is no number are known in any case; the first
stands for a numeral beyond all floating-point numbers, the second for null.
-/

namespace MemoTransfer.Json.Relaxed

open MemoTransfer.Number

/-- Digits, or a zero in the place of none. -/
def orZero (digits : List Char) : List Char := if digits.isEmpty then ['0'] else digits

/-- The digits before the point. A zero stands alone. -/
def whole : List Char → List Char × List Char
  | '0' :: cs => (['0'], cs)
  | cs => cs.span Char.isDigit

/-- The point and the digits after it, if they come next. -/
def fraction? : List Char → Option (List Char) × List Char
  | '.' :: cs => ((cs.span Char.isDigit).1, (cs.span Char.isDigit).2)
  | cs => (none, cs)

/-- A power of ten, if it comes next. -/
def power : List Char → List Char × List Char
  | e :: cs =>
    let sign := cs.takeWhile fun c => c = '+' || c = '-'
    let digits := (cs.drop sign.length).takeWhile Char.isDigit
    if (e = 'e' || e = 'E') && sign.length ≤ 1 && !digits.isEmpty then
      (e :: sign ++ digits, cs.drop (sign.length + digits.length))
    else ([], e :: cs)
  | [] => ([], [])

/-- A decimal number without its sign, and what follows it. -/
def decimal? (cs : List Char) : Option (List Char × List Char) :=
  let (before, cs) := whole cs
  match fraction? cs with
  | (none, cs) =>
    if before.isEmpty then none
    else
      let (power, cs) := power cs
      some (before ++ power, cs)
  | (some after, cs) =>
    if before.isEmpty && after.isEmpty then none
    else
      let (power, cs) := power cs
      some (orZero before ++ '.' :: orZero after ++ power, cs)

/-- The digits of a hexadecimal number without its sign, and what follows it. -/
def hexadecimal? : List Char → Option (List Nat × List Char)
  | '0' :: x :: cs =>
    let digits := cs.takeWhile fun c => (hexValue? c).isSome
    if (x = 'x' || x = 'X') && !digits.isEmpty then
      some (digits.filterMap hexValue?, cs.drop digits.length)
    else none
  | _ => none

/-- The letters and digits at the front of a text. -/
def word (cs : List Char) : List Char := cs.takeWhile Char.isAlphanum

/-- The word in small letters is among the given ones. -/
def isOneOf (names : List String) (w : List Char) : Bool :=
  names.contains (String.ofList (w.map Char.toLower))

/-- The word stands for infinity. -/
def isInfinite (w : List Char) : Bool := isOneOf ["inf", "infinity"] w

/-- The numeral of infinity. -/
def infinite : List Char := ['9', 'e', '9', '9', '9']

/-- The value that a word stands for. -/
def constant? (w : List Char) : Option Relaxed :=
  if isInfinite w then some (.number infinite)
  else if isOneOf ["nan", "qnan", "snan"] w then some .null
  else
    match String.ofList w with
    | "null" => some .null
    | "true" => some (.boolean true)
    | "false" => some (.boolean false)
    | _ => none

/-- A number after its sign, and what follows it. -/
def unsigned? (negative : Bool) (cs : List Char) : Option (Relaxed × List Char) :=
  let sign := if negative then ['-'] else []
  match hexadecimal? cs with
  | some (digits, rest) =>
    let n := digits.foldl (fun n d => n * 16 + d) 0
    some (if n < 2 ^ 64 then .number (sign ++ natDigits n) else .outsized negative, rest)
  | none => (decimal? cs).map fun (numeral, rest) => (.number (sign ++ numeral), rest)

/-- A signed number after its sign, which may be infinity, and what follows it. -/
def signed? (negative : Bool) (cs : List Char) : Option (Relaxed × List Char) :=
  if isInfinite (word cs) then
    some (.number ((if negative then ['-'] else []) ++ infinite), cs.drop (word cs).length)
  else unsigned? negative cs

/-- A value that is no list, no object and no string, and what follows it. -/
def scalar? : List Char → Option (Relaxed × List Char)
  | '+' :: cs => signed? false cs
  | '-' :: cs => signed? true cs
  | cs =>
    match constant? (word cs) with
    | some v => some (v, cs.drop (word cs).length)
    | none => unsigned? false cs

end MemoTransfer.Json.Relaxed
