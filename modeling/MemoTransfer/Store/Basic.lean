import MemoTransfer.Memo.Related
import MemoTransfer.Memo.Written

/-!
# The store

A store keeps users, memos, attachments, relations and settings as rows of tables, in the order in
which they were put in. The rows of users, memos and attachments are numbered from 1, and a number
is never given twice, so that a table also keeps its last one. A row of a memo holds its status,
visibility and payload as text; a text that has no meaning reads as the default.
-/

namespace MemoTransfer

/-- A row of the table of memos. -/
structure MemoRow where
  id : MemoId
  uid : String
  creatorId : UserId
  rowStatus : String
  content : String
  visibility : String
  pinned : Bool
  payload : String
  createdTs : Int
  updatedTs : Int
  displayTs : Option Int
  deriving DecidableEq, Repr

/-- The memo of a row. -/
def MemoRow.memo (r : MemoRow) : Memo where
  id := r.id
  uid := r.uid
  creatorId := r.creatorId
  rowStatus := (RowStatus.ofName? r.rowStatus).getD default
  content := r.content
  visibility := (Visibility.ofName? r.visibility).getD default
  pinned := r.pinned
  payload := .read r.payload
  createdTs := r.createdTs
  updatedTs := r.updatedTs
  displayTs := r.displayTs

/-- The row of a memo with the given number. -/
def MemoRow.ofMemo (id : MemoId) (m : Memo) : MemoRow where
  id := id
  uid := m.uid
  creatorId := m.creatorId
  rowStatus := m.rowStatus.name
  content := m.content
  visibility := m.visibility.name
  pinned := m.pinned
  payload := m.payload.write
  createdTs := m.createdTs
  updatedTs := m.updatedTs
  displayTs := m.displayTs

/-- The row with the given parts replaced. -/
def MemoRow.patch (r : MemoRow) (p : MemoPatch) : MemoRow :=
  { r with
    content := p.content.getD r.content
    visibility := (p.visibility.map Visibility.name).getD r.visibility
    pinned := p.pinned.getD r.pinned
    rowStatus := (p.rowStatus.map RowStatus.name).getD r.rowStatus
    payload := (p.payload.map Payload.write).getD r.payload
    createdTs := p.createdTs.getD r.createdTs
    updatedTs := p.updatedTs.getD r.updatedTs
    displayTs := p.displayTs <|> r.displayTs }

/-- The tables of a store. -/
structure Store where
  users : List User := []
  lastUser : UserId := 0
  memos : List MemoRow := []
  lastMemo : MemoId := 0
  attachments : List Attachment := []
  lastAttachment : Int := 0
  relations : List Relation := []
  settings : List (String × String) := []
  deriving DecidableEq

namespace Store

/-- The store without any row. -/
def empty : Store := {}

/-! ## Looking rows up -/

/-- The user with the name. -/
def user? (s : Store) (username : String) : Option User :=
  s.users.find? (·.username = username)

/-- The row of the memo with the text key. -/
def rowByUid? (s : Store) (uid : String) : Option MemoRow := s.memos.find? (·.uid = uid)

/-- The memo has a row. -/
def hasMemo (s : Store) (id : MemoId) : Bool := s.memos.any (·.id = id)

/-- The attachments of a memo, in the order of their numbers. -/
def attachmentsOf (s : Store) (id : MemoId) : List Attachment :=
  s.attachments.filter (·.memoId = some id)

/-- The relations that start at a memo, in the order in which they were put in. -/
def relationsOf (s : Store) (id : MemoId) : List Relation := s.relations.filter (·.memoId = id)

/-- The memo is a comment on another one. -/
def isComment (s : Store) (id : MemoId) : Bool := (s.relationsOf id).any (·.kind = .comment)

/-- The value of a setting. -/
def setting? (s : Store) (name : String) : Option String := s.settings.lookup name

end Store

end MemoTransfer
