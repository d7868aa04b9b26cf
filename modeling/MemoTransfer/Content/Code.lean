import MemoTransfer.Content.Pattern

/-!
# Code in a text

Two forms of code: fenced code stands between two runs of three grave accents and may go over many
lines, inline code is a run of other characters on one line between two single ones. The prose of a
text is what is left when a space takes the place of fenced code, and then of inline code.
-/

namespace MemoTransfer.Content

/-- The mark of code. -/
def tick : Char := '\x60'

/-- The number of characters before the next fence, if there is one. -/
def lengthToFence? : List Char → Option Nat
  | [] => none
  | c :: cs =>
    if (c :: cs).take 3 = [tick, tick, tick] then some 0
    else (lengthToFence? cs).map (· + 1)

/-- Fenced code, as short as possible. -/
def fencedCode : Pattern Unit := fun _ cs =>
  if cs.take 3 = [tick, tick, tick] then
    (lengthToFence? (cs.drop 3)).map fun n => ((), n + 6)
  else none

/-- Inline code. -/
def inlineCode : Pattern Unit := fun _ cs =>
  match cs with
  | [] => none
  | c :: cs =>
    if c = tick then
      let code := cs.takeWhile fun d => d ≠ tick && d ≠ '\n'
      if !code.isEmpty && (cs.drop code.length).head? = some tick then some ((), code.length + 2)
      else none
    else none

/-- The text contains code. -/
def hasCode (cs : List Char) : Bool := fencedCode.occursIn cs || inlineCode.occursIn cs

/-- The text without its code. -/
def prose (cs : List Char) : List Char := inlineCode.blankAll (fencedCode.blankAll cs)

end MemoTransfer.Content
