import MemoTransfer.Content.Pattern
import MemoTransfer.Text.Blank

/-!
# Tasks

A task stands at the start of a line, after any white space: a list mark, a space and a box, which
is empty while the task is open. The white space may contain line breaks.
-/

namespace MemoTransfer.Content

open MemoTransfer.Text

/-- Whether a task is done. -/
inductive Box
  | unticked
  | ticked
  deriving DecidableEq, Repr

/-- A list mark, a space and a box. -/
def taskBody (cs : List Char) : Option Box :=
  match cs with
  | mark :: ' ' :: '[' :: box :: ']' :: _ =>
    if mark = '-' || mark = '*' || mark = '+' then
      if box = ' ' then some .unticked
      else if box = 'x' || box = 'X' then some .ticked
      else none
    else none
  | _ => none

/-- A task together with the white space before it, at the start of a line. -/
def taskMatch : Pattern Box := fun before cs =>
  if before = none || before = some '\n' then
    (taskBody (trimStart cs)).map fun box => (box, cs.length - (trimStart cs).length + 5)
  else none

/-- The boxes of the tasks of a prose text. -/
def tasks (cs : List Char) : List Box := taskMatch.findAll cs

end MemoTransfer.Content
