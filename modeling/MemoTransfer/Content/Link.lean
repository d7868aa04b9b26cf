import MemoTransfer.Content.Pattern
import MemoTransfer.Text.Blank

/-!
# Links

A link is an address that begins with `http://` or `https://`, or a text in brackets followed by a
target in parentheses.
-/

namespace MemoTransfer.Content

open MemoTransfer.Text

/-- The text behind some characters that it begins with. -/
def dropLead? : List Char → List Char → Option (List Char)
  | [], cs => some cs
  | _ :: _, [] => none
  | l :: ls, c :: cs => if l = c then dropLead? ls cs else none

/-- The length of an address: its scheme and at least one more character, up to white space. -/
def address? (scheme : List Char) (cs : List Char) : Option Nat := do
  let body := (← dropLead? scheme cs).takeWhile fun c => !isBlank c
  if body.isEmpty then none else some (scheme.length + body.length)

/-- The length of a bracketed text with a target. -/
def bracketed? (cs : List Char) : Option Nat := do
  let cs ← dropLead? ['['] cs
  let text := cs.takeWhile (· ≠ ']')
  let cs ← dropLead? [']', '('] (cs.drop text.length)
  let target := cs.takeWhile (· ≠ ')')
  if target.isEmpty || (cs.drop target.length).isEmpty then none
  else some (text.length + target.length + 4)

/-- A link. -/
def linkMatch : Pattern Unit := fun _ cs =>
  (address? ['h', 't', 't', 'p', ':', '/', '/'] cs <|>
    address? ['h', 't', 't', 'p', 's', ':', '/', '/'] cs <|> bracketed? cs).map fun n => ((), n)

/-- The prose text contains a link. -/
def hasLink (cs : List Char) : Bool := linkMatch.occursIn cs

end MemoTransfer.Content
