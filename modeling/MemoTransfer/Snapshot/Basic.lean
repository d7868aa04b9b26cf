import MemoTransfer.Calendar.Instant
import MemoTransfer.Error
import MemoTransfer.Memo.Related

/-!
# Snapshots

A snapshot is what is exchanged between stores: the time of the export and a record for every memo.
A record names memos by their text keys only, never by the numbers of a store. It keeps the
visibility as text, so that a name that this version does not know can be reported by an import.
-/

namespace MemoTransfer

open MemoTransfer.Calendar

/-- A file that went with a memo. -/
structure AttachmentRef where
  uid : String
  filename : String
  mimeType : String
  size : Int64
  deriving DecidableEq

/-- A relation to the memo with a text key. -/
structure RelationRef where
  relatedUid : String
  kind : String
  deriving DecidableEq, Repr

/-- A memo in a snapshot. -/
structure MemoRecord where
  uid : String
  content : String
  visibility : String
  pinned : Bool
  createdAt : Instant
  updatedAt : Instant
  displayTime : Option Instant
  tags : List String
  location : Option Location
  attachments : List AttachmentRef
  relations : List RelationRef
  deriving DecidableEq

/-- Memos at the time of an export. -/
structure Snapshot where
  version : String
  exportedAt : Instant
  records : List MemoRecord
  deriving DecidableEq

namespace Snapshot

/-- The only version that is written and imported. -/
def currentVersion : String := "1.0"

/-- A snapshot of the current version. -/
def ofRecords (exportedAt : Instant) (records : List MemoRecord) : Snapshot :=
  ⟨currentVersion, exportedAt, records⟩

/-- Refuses every other version. -/
def checkVersion (s : Snapshot) : Except Error Unit :=
  if s.version = currentVersion then .ok () else .error (.unsupportedVersion s.version)

end Snapshot

/-- The exchanged form of an attachment. -/
def AttachmentRef.ofAttachment (a : Attachment) : AttachmentRef :=
  ⟨a.uid, a.filename, a.mimeType, a.size⟩

/-- The exchanged form of a memo, without attachments and relations. A time that no instant can
name becomes the epoch. -/
def MemoRecord.ofMemo (m : Memo) : MemoRecord where
  uid := m.uid
  content := m.content
  visibility := m.visibility.name
  pinned := m.pinned
  createdAt := .ofUnix m.createdTs
  updatedAt := .ofUnix m.updatedTs
  displayTime := m.displayTs.map .ofUnix
  tags := m.payload.tags
  location := m.payload.location
  attachments := []
  relations := []

end MemoTransfer
