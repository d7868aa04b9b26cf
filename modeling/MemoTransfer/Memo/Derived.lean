import MemoTransfer.Content.Code
import MemoTransfer.Content.Link
import MemoTransfer.Content.Tag
import MemoTransfer.Content.Task
import MemoTransfer.Memo.Basic

/-!
# The payload of a text

What a memo's text says of itself: the tags, links and tasks of its prose, and whether it contains
code. A memo that is written here and one that is imported with the same text have the same.
-/

namespace MemoTransfer

/-- What a text contains. -/
def Property.ofContent (content : String) : Property :=
  let text := content.toList
  let boxes := Content.tasks (Content.prose text)
  { hasLink := Content.hasLink (Content.prose text)
    hasTaskList := !boxes.isEmpty
    hasCode := Content.hasCode text
    hasIncompleteTasks := boxes.contains .unticked }

/-- The payload of a text that was written at a location. -/
def Payload.ofContent (content : String) (location : Option Location) : Payload where
  tags := Content.tags (Content.prose content.toList)
  property := .ofContent content
  location := location

end MemoTransfer
