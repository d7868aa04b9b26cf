import MemoTransfer.Content.Pattern
import MemoTransfer.Text.Blank
import MemoTransfer.Text.Letter

/-!
# Tags

A tag is a number sign and a run of letters, numbers, underscores, hyphens and slashes, at the start
of a text or after white space.
-/

namespace MemoTransfer.Content

open MemoTransfer.Text

/-- The character can be part of a tag. -/
def isTagChar (c : Char) : Bool :=
  isLetterOrNumber c || c = '_' || c = '-' || c = '/'

/-- A tag behind its number sign. -/
def tagBody (cs : List Char) : Option String :=
  match cs with
  | [] => none
  | c :: cs =>
    if c = '#' then
      let tag := cs.takeWhile isTagChar
      if tag.isEmpty then none else some (String.ofList tag)
    else none

/-- A tag together with the white space before it; at the start of the text none is needed. -/
def tagMatch : Pattern String := fun before cs =>
  match if before.isNone then tagBody cs else none with
  | some tag => some (tag, tag.length + 1)
  | none =>
    match cs with
    | [] => none
    | c :: cs => if isBlank c then (tagBody cs).map fun tag => (tag, tag.length + 2) else none

/-- The tags of a prose text, each once, in the order of their first places. -/
def tags (cs : List Char) : List String := (tagMatch.findAll cs).eraseDups

end MemoTransfer.Content
