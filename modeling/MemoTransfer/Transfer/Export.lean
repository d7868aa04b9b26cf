import MemoTransfer.Snapshot.Written
import MemoTransfer.Store.MemoStore
import MemoTransfer.Text.Blank
import MemoTransfer.Transfer.Envelope

/-!
# Export

An export writes the memos of one user that match a request into a snapshot. Comments are left out,
and so is a memo whose attachments or relations cannot be looked up; the others are not touched by
that. A relation to a memo that is gone is dropped.
-/

namespace MemoTransfer

open MemoTransfer.Calendar

variable {m : Type → Type} [Monad m]

/-- The name of the file of an export. -/
def exportFilename (exportedAt : Instant) : String :=
  "memos_export_" ++ String.ofList exportedAt.compactDigits ++ ".json"

/-- The query for the memos of an export; a blank filter is none. -/
def ExportRequest.query (request : ExportRequest) (owner : UserId) : MemoQuery where
  creatorId := some owner
  rowStatus := if request.excludeArchived then some .normal else none
  filter := request.filter.filter fun f => !f.toList.all Text.isBlank
  excludeComments := true

/-- The exchanged form of a relation, unless its target is gone. -/
def relationRef? (store : MemoStore m) (r : Relation) :
    ExceptT Error m (Option RelationRef) := do
  let related ← store.getMemo (.byId r.relatedId)
  return related.map fun memo => ⟨memo.uid, r.kind.name⟩

/-- The record of a memo, with attachments and relations as asked for. -/
def exportMemo (store : MemoStore m) (request : ExportRequest) (memo : Memo) :
    ExceptT Error m MemoRecord := do
  let attachments ←
    if request.includeAttachments then store.listAttachments memo.id else pure []
  let relations ← if request.includeRelations then store.listRelations memo.id else pure []
  let refs ← relations.mapM (relationRef? store)
  return { MemoRecord.ofMemo memo with
    attachments := attachments.map .ofAttachment
    relations := refs.filterMap id }

/-- A memo that was left out of a snapshot, and why. -/
structure SkippedMemo where
  id : MemoId
  error : Error
  deriving DecidableEq, Repr

/-- The record of a memo, or why it is left out. -/
def exportEntry (store : MemoStore m) (request : ExportRequest) (memo : Memo) :
    m (Except SkippedMemo MemoRecord) := do
  match ← (exportMemo store request memo).run with
  | .ok record => return .ok record
  | .error e => return .error ⟨memo.id, e⟩

/-- The records of a user's memos, and the memos that were left out. -/
def buildSnapshot (store : MemoStore m) (user : User) (request : ExportRequest)
    (exportedAt : Instant) : ExceptT Error m (Snapshot × List SkippedMemo) := do
  let memos ← store.listMemos (request.query user.id)
  let entries ← memos.mapM fun memo => ExceptT.lift (exportEntry store request memo)
  let records := entries.filterMap Except.toOption
  let skipped := entries.filterMap fun entry =>
    match entry with
    | .ok _ => none
    | .error memo => some memo
  return (.ofRecords exportedAt records, skipped)

/-- The response that carries a snapshot. -/
def ExportResponse.ofSnapshot (snapshot : Snapshot) (format : String) : ExportResponse where
  data := snapshot.encode
  format := format
  filename := exportFilename snapshot.exportedAt
  memoCount := UInt32.ofNat (min snapshot.records.length (2 ^ 32 - 1))
  sizeBytes := UInt64.ofNat snapshot.encode.length

/-- Exports a user's memos. -/
def exportMemos (store : MemoStore m) (user : Except Error User) (request : ExportRequest)
    (exportedAt : Instant) : ExceptT Error m (ExportResponse × List SkippedMemo) := do
  let user ← user
  let format ← resolveFormat request.format
  let (snapshot, skipped) ← buildSnapshot store user request exportedAt
  return (.ofSnapshot snapshot format, skipped)

end MemoTransfer
