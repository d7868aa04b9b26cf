import MemoTransfer.Transfer.Export
import MemoTransfer.Transfer.Import

/-!
# What a user does with a store

Writing, listing, archiving and deleting one's own memos, and exporting and importing them. A user
acts under a name. The time and the text key of a new memo come from outside.
-/

namespace MemoTransfer

open MemoTransfer.Calendar

namespace Store

/-- The user with the name, who must be known. -/
def session (s : Store) (username : String) : Except Error User :=
  match s.user? username with
  | some user => .ok user
  | none => .error (.identity ("unknown user " ++ username))

/-- Writes a memo, with the same payload as one that is imported with this content. -/
def addMemo (s : Store) (user : User) (content : String) (visibility : Visibility)
    (pinned : Bool) (uid : String) (now : Int) : Except Error (Memo × Store) := do
  checkLength content (← s.contentLimit)
  s.createMemo {
    id := 0
    uid := uid
    creatorId := user.id
    rowStatus := .normal
    content := content
    visibility := visibility
    pinned := pinned
    payload := .ofContent content none
    createdTs := now
    updatedTs := now
    displayTs := none }

/-- The memos of a user. -/
def memosOf (s : Store) (user : User) : Except Error (List Memo) :=
  s.listMemos (.byCreator user.id)

/-- The memo with the text key, if it is the user's. -/
def ownedMemo (s : Store) (user : User) (uid : String) : Except Error Memo := do
  match ← s.getMemo { uid := some uid, creatorId := some user.id } with
  | some memo => return memo
  | none => throw (.memoNotFound uid)

/-- Archives a memo of the user. -/
def archiveMemo (s : Store) (user : User) (uid : String) : Except Error Store := do
  let memo ← s.ownedMemo user uid
  s.updateMemo { id := memo.id, rowStatus := some .archived }

/-- Deletes a memo of the user. -/
def removeMemo (s : Store) (user : User) (uid : String) : Except Error Store := do
  let memo ← s.ownedMemo user uid
  return s.deleteMemo memo.id

/-- Exports the memos of the user with the name. -/
def exportAs (s : Store) (username : String) (request : ExportRequest) (exportedAt : Instant) :
    Except Error (ExportResponse × List SkippedMemo) :=
  ((exportMemos memoStore (s.session username) request exportedAt).run s).1

/-- Imports a snapshot for the user with the name. What was written stays written. -/
def importAs (s : Store) (username : String) (request : ImportRequest) (now : Int) :
    Except Error ImportReport × Store :=
  (importMemos memoStore (s.session username) request .deferred now).run s

/-- Imports a snapshot for the user with the name into a store that is only read: nothing is
written, and each record that would be is rejected. -/
def importReadOnly (s : Store) (username : String) (request : ImportRequest) (now : Int) :
    Except Error ImportReport × Store :=
  (importMemos memoStore.readOnly (s.session username) request .deferred now).run s

end Store

end MemoTransfer
