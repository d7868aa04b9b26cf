import MemoTransfer.Json.Reader.Value
import MemoTransfer.Store.Basic

/-!
# Stored stores

A store as the bytes of a file: a signature, and the tables in JSON, each row as the list of its
columns. The signature is no UTF-8, so that no text is taken for a store. An empty file is an empty
store.
-/

namespace MemoTransfer

open MemoTransfer.Json

/-- A column that may be empty. -/
def columnIfSome : Option Int → Value
  | some n => .integer n
  | none => .null

/-- The content of a column that may be empty. -/
def readColumn : Value → Option (Option Int)
  | .integer n => some (some n)
  | .null => some none
  | _ => none

/-- The written form of a row. -/
def MemoRow.toJson (r : MemoRow) : Value :=
  .list [.integer r.id, .text r.uid, .integer r.creatorId, .text r.rowStatus, .text r.content,
    .text r.visibility, .boolean r.pinned, .text r.payload, .integer r.createdTs,
    .integer r.updatedTs, columnIfSome r.displayTs]

/-- Reads a row. -/
def MemoRow.ofJson? : Value → Option MemoRow
  | .list [.integer id, .text uid, .integer creatorId, .text rowStatus, .text content,
      .text visibility, .boolean pinned, .text payload, .integer createdTs, .integer updatedTs,
      displayTs] => do
    return ⟨id, uid, creatorId, rowStatus, content, visibility, pinned, payload, createdTs,
      updatedTs, ← readColumn displayTs⟩
  | _ => none

/-- The written form of a user. -/
def User.toJson (u : User) : Value := .list [.integer u.id, .text u.username]

/-- Reads a user. -/
def User.ofJson? : Value → Option User
  | .list [.integer id, .text username] => some ⟨id, username⟩
  | _ => none

/-- The written form of an attachment. -/
def Attachment.toJson (a : Attachment) : Value :=
  .list [.integer a.id, .text a.uid, columnIfSome a.memoId, .text a.filename, .text a.mimeType,
    .integer a.size.toInt]

/-- Reads an attachment. -/
def Attachment.ofJson? : Value → Option Attachment
  | .list [.integer id, .text uid, memoId, .text filename, .text mimeType, .integer size] => do
    return ⟨id, uid, ← readColumn memoId, filename, mimeType, Int64.ofInt size⟩
  | _ => none

/-- The written form of a relation. -/
def Relation.toJson (r : Relation) : Value :=
  .list [.integer r.memoId, .integer r.relatedId, .text r.kind.name]

/-- Reads a relation. -/
def Relation.ofJson? : Value → Option Relation
  | .list [.integer memoId, .integer relatedId, .text kind] =>
    some ⟨memoId, relatedId, .ofName kind⟩
  | _ => none

/-- The written form of a setting. -/
def settingToJson (s : String × String) : Value := .list [.text s.1, .text s.2]

/-- Reads a setting. -/
def settingOfJson? : Value → Option (String × String)
  | .list [.text name, .text value] => some (name, value)
  | _ => none

namespace Store

/-- What a file begins with. -/
def signature : Bytes := 0xFF :: Utf8.encode "memo store 1\n"

/-- The written form of a store. -/
def toJson (s : Store) : Value :=
  .list [.list (s.users.map User.toJson), .integer s.lastUser,
    .list (s.memos.map MemoRow.toJson), .integer s.lastMemo,
    .list (s.attachments.map Attachment.toJson), .integer s.lastAttachment,
    .list (s.relations.map Relation.toJson), .list (s.settings.map settingToJson)]

/-- Reads a store. -/
def ofJson? : Value → Option Store
  | .list [.list users, .integer lastUser, .list memos, .integer lastMemo, .list attachments,
      .integer lastAttachment, .list relations, .list settings] => do
    return ⟨← users.mapM User.ofJson?, lastUser, ← memos.mapM MemoRow.ofJson?, lastMemo,
      ← attachments.mapM Attachment.ofJson?, lastAttachment, ← relations.mapM Relation.ofJson?,
      ← settings.mapM settingOfJson?⟩
  | _ => none

/-- The bytes of a store. -/
def toBytes (s : Store) : Bytes := signature ++ Utf8.encode s.toJson.compact

/-- The store that the bytes hold. -/
def ofBytes? (bs : Bytes) : Option Store :=
  if bs.isEmpty then some empty
  else if signature.isPrefixOf bs then
    match (Reader.value 8).run (bs.drop signature.length) with
    | .ok v => ofJson? v
    | .error _ => none
  else none

end Store

end MemoTransfer
