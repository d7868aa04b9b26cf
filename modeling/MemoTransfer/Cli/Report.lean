import MemoTransfer.Calendar.Instant
import MemoTransfer.Cli.Style
import MemoTransfer.Memo.Basic
import MemoTransfer.Transfer.Envelope

/-!
# Reports

The lines that are printed for a list of memos, an export and an import.
-/

namespace MemoTransfer.Cli

open MemoTransfer.Calendar MemoTransfer.Number

/-- The number of characters that are shown of a memo. -/
def previewLength : Nat := 48

/-- The first line of a text. -/
def firstLine (cs : List Char) : List Char :=
  let line := cs.takeWhile (· ≠ '\n')
  if line.length < cs.length && line.getLast? = some '\r' then line.dropLast else line

/-- The beginning of a memo's first line. -/
def preview (content : String) : String :=
  let line := firstLine content.toList
  if previewLength < line.length then String.ofList (line.take previewLength) ++ "…"
  else String.ofList line

/-- A time in a list; a number if no instant names it. -/
def listedTime (seconds : Int) : String :=
  match Instant.ofParts? seconds 0 with
  | some t => t.minuteText
  | none => intText seconds

/-- Visibility and marks of a memo. -/
def memoFlags (memo : Memo) : String :=
  memo.visibility.name ++ (if memo.pinned then " pinned" else "") ++
    (if memo.rowStatus = .archived then " archived" else "")

/-- The line of a memo in a list. -/
def memoLine (s : Style) (memo : Memo) : String :=
  "  " ++ s.shortUid memo.uid ++ " " ++ s.dim (listedTime memo.createdTs) ++ " " ++
    s.label (memoFlags memo) ++ " " ++ preview memo.content

/-- The lines of a list of memos. -/
def memoLines (s : Style) (memos : List Memo) : List String :=
  if memos.isEmpty then ["No memos."]
  else s.header ("Memos (" ++ natText memos.length ++ "):") :: memos.map (memoLine s)

/-- The line of an export. -/
def exportLine (s : Style) (memoCount sizeBytes : Nat) (writtenTo : String) : String :=
  s.success "Exported" ++ " " ++ s.figure (natText memoCount) ++ " memos (" ++
    s.figure (natText sizeBytes) ++ " bytes) to " ++ writtenTo

/-- A counter in a line of its own, if it is not zero. -/
def counterLines (s : Style) (name : String) (count : UInt32) : List String :=
  if 0 < count then ["  " ++ name ++ " " ++ s.figure (natText count.toNat)] else []

/-- The lines of an import. -/
def importLines (s : Style) (r : ImportResponse) (validateOnly : Bool) : List String :=
  let count (n : UInt32) : String := s.figure (natText n.toNat)
  let verb := if validateOnly then "Validated" else "Imported"
  [s.success verb ++ " " ++ count r.importedCount ++ " of " ++ count r.totalMemos ++ " memos"] ++
    (if validateOnly then []
      else ["  created " ++ count r.createdCount ++ ", updated " ++ count r.updatedCount]) ++
    counterLines s "skipped" r.skippedCount ++
    counterLines s "validation errors" r.validationErrors ++
    ["  " ++ s.dim ("took " ++ natText r.durationMs.toNat ++ " ms")] ++
    r.warnings.map (fun w => s.warning "warning:" ++ " " ++ w) ++
    r.errors.map (fun e => s.error "error:" ++ " " ++ e)

end MemoTransfer.Cli
