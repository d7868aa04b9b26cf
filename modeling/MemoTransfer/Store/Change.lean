import MemoTransfer.Error
import MemoTransfer.Number.Numeral
import MemoTransfer.Store.Basic

/-!
# Changing the store

Each change either gives the store after it, with what it has to report, or an error, and then the
store stays as it was. The names of users and the text keys of memos and attachments are unique; the
creator of a memo and the memo of an attachment must have rows.
-/

namespace MemoTransfer

open MemoTransfer.Number

/-- The error of a row whose key is taken. -/
def Error.notUnique (column : String) : Error := .database ("UNIQUE constraint failed: " ++ column)

/-- The error of a row that refers to a row which is not there. -/
def Error.noReferent : Error := .database "FOREIGN KEY constraint failed"

/-- The error of a change of a store that is only read. -/
def Error.notWritable : Error := .database "attempt to write a readonly database"

namespace Store

/-! ## Users -/

/-- Puts a user in. -/
def createUser (s : Store) (username : String) : Except Error (User × Store) :=
  if (s.user? username).isSome then .error (.notUnique "users.username")
  else
    let user : User := ⟨s.lastUser + 1, username⟩
    .ok (user, { s with users := s.users ++ [user], lastUser := user.id })

/-- The user with the name, who is put in if there is none. -/
def ensureUser (s : Store) (username : String) : User × Store :=
  match s.user? username with
  | some user => (user, s)
  | none =>
    let user : User := ⟨s.lastUser + 1, username⟩
    (user, { s with users := s.users ++ [user], lastUser := user.id })

/-! ## Memos -/

/-- Puts a memo in, under a new number. -/
def createMemo (s : Store) (m : Memo) : Except Error (Memo × Store) :=
  if (s.rowByUid? m.uid).isSome then .error (.memoAlreadyExists m.uid)
  else if !s.users.any (·.id = m.creatorId) then .error .noReferent
  else
    let row := MemoRow.ofMemo (s.lastMemo + 1) m
    .ok (row.memo, { s with memos := s.memos ++ [row], lastMemo := row.id })

/-- Changes parts of a memo. A change of nothing asks for no memo. -/
def updateMemo (s : Store) (p : MemoPatch) : Except Error Store :=
  if p.isEmpty then .ok s
  else if !s.hasMemo p.id then .error (.memoNotFound ("id " ++ intText p.id))
  else .ok { s with memos := s.memos.map fun r => if r.id = p.id then r.patch p else r }

/-- Removes a memo and the relations from it and to it. Its attachments stay without a memo. -/
def deleteMemo (s : Store) (id : MemoId) : Store :=
  { s with
    relations := s.relations.filter fun r => r.memoId ≠ id && r.relatedId ≠ id
    attachments := s.attachments.map fun a =>
      if a.memoId = some id then { a with memoId := none } else a
    memos := s.memos.filter (·.id ≠ id) }

/-! ## Attachments and relations -/

/-- Puts an attachment in, under a new number. -/
def createAttachment (s : Store) (uid : String) (memoId : Option MemoId)
    (filename mimeType : String) (size : Int64) : Except Error (Int × Store) :=
  if s.attachments.any (·.uid = uid) then .error (.notUnique "attachments.uid")
  else if memoId.any fun id => !s.hasMemo id then .error .noReferent
  else
    let a : Attachment := ⟨s.lastAttachment + 1, uid, memoId, filename, mimeType, size⟩
    .ok (a.id, { s with attachments := s.attachments ++ [a], lastAttachment := a.id })

/-- Puts a relation in, unless it is there. Its memos need no rows. -/
def createRelation (s : Store) (r : Relation) : Store :=
  let r := { r with kind := RelationKind.ofName r.kind.name }
  if r ∈ s.relations then s else { s with relations := s.relations ++ [r] }

/-! ## Settings -/

/-- Gives a setting a value. -/
def setSetting (s : Store) (name value : String) : Store :=
  if (s.setting? name).isSome then
    { s with settings := s.settings.map fun p => if p.1 = name then (name, value) else p }
  else { s with settings := s.settings ++ [(name, value)] }

/-- The setting that holds the greatest length of a content in bytes. -/
def contentLimitName : String := "memo_content_length_limit"

/-- The limit while none is set. -/
def defaultContentLimit : Nat := 8192

/-- The greatest length of a content in bytes. -/
def contentLimit (s : Store) : Except Error Nat :=
  match s.setting? contentLimitName with
  | none => .ok defaultContentLimit
  | some value =>
    match readUInt64? value.toList with
    | some n => .ok n.toNat
    | none => .error (.invalidSetting contentLimitName value)

/-- Sets the greatest length of a content in bytes. -/
def setContentLimit (s : Store) (limit : Nat) : Store :=
  s.setSetting contentLimitName (natText limit)

end Store

end MemoTransfer
