import MemoTransfer.Calendar.Reader
import MemoTransfer.Memo.Written
import MemoTransfer.Snapshot.Basic

/-!
# Written snapshots

The bytes of a snapshot: JSON on several lines. `Snapshot.encode` leaves out the members of a record
that are absent or empty; `Snapshot.decode` takes them back as absent or empty, takes members in any
order and skips those it does not know. Records may also go by the name `memos`, and the target of a
relation by `related_memo_uid`.
-/

namespace MemoTransfer

open MemoTransfer.Json MemoTransfer.Calendar

/-- A member that is left out when there is no value. -/
def memberIfSome {α : Type} (name : String) (toJson : α → Value) :
    Option α → List (String × Value)
  | some v => [(name, toJson v)]
  | none => []

/-- A list that is left out when it is empty. -/
def memberIfAny {α : Type} (name : String) (toJson : α → Value) (items : List α) :
    List (String × Value) :=
  if items.isEmpty then [] else [(name, .list (items.map toJson))]

/-! ## Times -/

/-- The written form of an instant. -/
def Calendar.Instant.toJson (t : Instant) : Value := .text t.text

/-- Reads an instant. -/
def Calendar.Instant.reader : Reader Instant :=
  .parsed "an RFC 3339 formatted date and time string" fun s =>
    (Instant.read s).mapError TimeFault.message

/-! ## Attachments and relations -/

namespace AttachmentRef

/-- The written form of an attachment. -/
def toJson (a : AttachmentRef) : Value :=
  .object [("uid", .text a.uid), ("filename", .text a.filename), ("type", .text a.mimeType),
    ("size", .integer a.size.toInt)]

/-- The parts of an attachment found so far. -/
structure Draft where
  uid : Option String := none
  filename : Option String := none
  mimeType : Option String := none
  size : Option Int64 := none

/-- How an attachment is read. -/
def record : Record Draft AttachmentRef where
  title := "struct AttachmentRef"
  members :=
    [.of "uid" .text Draft.uid (fun d v => { d with uid := some v }) true,
     .of "filename" .text Draft.filename (fun d v => { d with filename := some v }) true,
     .of "type" .text Draft.mimeType (fun d v => { d with mimeType := some v }) true,
     .of "size" .int64 Draft.size (fun d v => { d with size := some v }) true]
  blank := {}
  build d := do
    return ⟨← needed "uid" d.uid, ← needed "filename" d.filename, ← needed "type" d.mimeType,
      ← needed "size" d.size⟩

end AttachmentRef

namespace RelationRef

/-- The written form of a relation. -/
def toJson (r : RelationRef) : Value :=
  .object [("related_uid", .text r.relatedUid), ("type", .text r.kind)]

/-- The parts of a relation found so far. -/
structure Draft where
  relatedUid : Option String := none
  kind : Option String := none

/-- How a relation is read. -/
def record : Record Draft RelationRef where
  title := "struct RelationRef"
  members :=
    [(Member.of "related_uid" .text Draft.relatedUid
        (fun d v => { d with relatedUid := some v }) true).orNamed "related_memo_uid",
     .of "type" .text Draft.kind (fun d v => { d with kind := some v }) true]
  blank := {}
  build d := do return ⟨← needed "related_uid" d.relatedUid, ← needed "type" d.kind⟩

end RelationRef

/-! ## Records -/

namespace MemoRecord

/-- The written form of a record. -/
def toJson (m : MemoRecord) : Value :=
  .object ([("uid", .text m.uid), ("content", .text m.content),
      ("visibility", .text m.visibility), ("pinned", .boolean m.pinned),
      ("created_at", m.createdAt.toJson), ("updated_at", m.updatedAt.toJson)] ++
    memberIfSome "display_time" Instant.toJson m.displayTime ++
    memberIfAny "tags" .text m.tags ++
    memberIfSome "location" Location.toJson m.location ++
    memberIfAny "attachments" AttachmentRef.toJson m.attachments ++
    memberIfAny "relations" RelationRef.toJson m.relations)

/-- The parts of a record found so far. -/
structure Draft where
  uid : Option String := none
  content : Option String := none
  visibility : Option String := none
  pinned : Option Bool := none
  createdAt : Option Instant := none
  updatedAt : Option Instant := none
  displayTime : Option (Option Instant) := none
  tags : Option (List String) := none
  location : Option (Option Location) := none
  attachments : Option (List AttachmentRef) := none
  relations : Option (List RelationRef) := none

/-- How a record is read. -/
def record : Record Draft MemoRecord where
  title := "struct SnapshotMemo"
  members :=
    [.of "uid" .text Draft.uid (fun d v => { d with uid := some v }) true,
     .of "content" .text Draft.content (fun d v => { d with content := some v }) true,
     .of "visibility" .text Draft.visibility (fun d v => { d with visibility := some v }) false,
     .of "pinned" .boolean Draft.pinned (fun d v => { d with pinned := some v }) false,
     .of "created_at" Instant.reader Draft.createdAt
       (fun d v => { d with createdAt := some v }) true,
     .of "updated_at" Instant.reader Draft.updatedAt
       (fun d v => { d with updatedAt := some v }) true,
     .of "display_time" (.optional Instant.reader) Draft.displayTime
       (fun d v => { d with displayTime := some v }) false,
     .of "tags" (.list .text) Draft.tags (fun d v => { d with tags := some v }) false,
     .of "location" (.optional Location.record.reader) Draft.location
       (fun d v => { d with location := some v }) false,
     .of "attachments" (.list AttachmentRef.record.reader) Draft.attachments
       (fun d v => { d with attachments := some v }) false,
     .of "relations" (.list RelationRef.record.reader) Draft.relations
       (fun d v => { d with relations := some v }) false]
  blank := {}
  build d := do
    return {
      uid := ← needed "uid" d.uid
      content := ← needed "content" d.content
      visibility := d.visibility.getD ""
      pinned := d.pinned.getD false
      createdAt := ← needed "created_at" d.createdAt
      updatedAt := ← needed "updated_at" d.updatedAt
      displayTime := d.displayTime.getD none
      tags := d.tags.getD []
      location := d.location.getD none
      attachments := d.attachments.getD []
      relations := d.relations.getD [] }

end MemoRecord

/-! ## Snapshots -/

namespace Snapshot

/-- The written form of a snapshot. -/
def toJson (s : Snapshot) : Value :=
  .object [("version", .text s.version), ("exported_at", s.exportedAt.toJson),
    ("records", .list (s.records.map MemoRecord.toJson))]

/-- The parts of a snapshot found so far. -/
structure Draft where
  version : Option String := none
  exportedAt : Option Instant := none
  records : Option (List MemoRecord) := none

/-- How a snapshot is read. -/
def record : Record Draft Snapshot where
  title := "struct Snapshot"
  members :=
    [.of "version" .text Draft.version (fun d v => { d with version := some v }) true,
     .of "exported_at" Instant.reader Draft.exportedAt
       (fun d v => { d with exportedAt := some v }) true,
     (Member.of "records" (.list MemoRecord.record.reader) Draft.records
       (fun d v => { d with records := some v }) false).orNamed "memos"]
  blank := {}
  build d := do
    return ⟨← needed "version" d.version, ← needed "exported_at" d.exportedAt,
      d.records.getD []⟩

/-- The bytes of a snapshot. -/
def encode (s : Snapshot) : Bytes := Utf8.encode s.toJson.pretty

/-- The snapshot that the bytes hold. Its version is not looked at. -/
def decode (bs : Bytes) : Except Error Snapshot :=
  (record.reader.run bs).mapError .malformedSnapshot

end Snapshot

end MemoTransfer
