/-!
# Patterns in a text

A pattern looks at a place of a text, with the character before it and the text from it on, and says
what it finds there and how long that is. The matches of a pattern are taken from left to right; the
search goes on behind a match, so that matches do not overlap.
-/

namespace MemoTransfer.Content

/-- What stands at a place: a value and a number of characters, at least one. The character before
the place is absent at the start of the text. -/
abbrev Pattern (α : Type) := Option Char → List Char → Option (α × Nat)

namespace Pattern

variable {α : Type}

/-- What the pattern finds from a place on, the first `skip` characters left out. -/
def findFrom (p : Pattern α) : Nat → Option Char → List Char → List α
  | _, _, [] => []
  | skip + 1, _, c :: cs => p.findFrom skip (some c) cs
  | 0, before, c :: cs =>
    match p before (c :: cs) with
    | some (a, length) => a :: p.findFrom (length - 1) (some c) cs
    | none => p.findFrom 0 (some c) cs

/-- What the pattern finds in a text, from left to right. -/
def findAll (p : Pattern α) (cs : List Char) : List α := p.findFrom 0 none cs

/-- The text from a place on with a space for each match, the first `skip` characters left out. -/
def blankFrom (p : Pattern α) : Nat → Option Char → List Char → List Char
  | _, _, [] => []
  | skip + 1, _, c :: cs => p.blankFrom skip (some c) cs
  | 0, before, c :: cs =>
    match p before (c :: cs) with
    | some (_, length) => ' ' :: p.blankFrom (length - 1) (some c) cs
    | none => c :: p.blankFrom 0 (some c) cs

/-- The text with a space in the place of each match. -/
def blankAll (p : Pattern α) (cs : List Char) : List Char := p.blankFrom 0 none cs

/-- The pattern matches somewhere. -/
def occursIn (p : Pattern α) (cs : List Char) : Bool := !(p.findAll cs).isEmpty

end Pattern

end MemoTransfer.Content
