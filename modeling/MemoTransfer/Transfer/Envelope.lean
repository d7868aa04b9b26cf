import MemoTransfer.Error
import MemoTransfer.Json.Reader.Record
import MemoTransfer.Json.Reader.Value
import MemoTransfer.Text.Base64
import MemoTransfer.Transfer.Outcome

/-!
# Envelopes

The requests and responses of an export and an import, and their JSON forms, in which the bytes of a
snapshot are written in base64. The options of an import are written beside the data.
-/

namespace MemoTransfer

open MemoTransfer.Json MemoTransfer.Text

/-! ## Format -/

/-- The only format of a snapshot. -/
def jsonFormat : String := "json"

/-- The format that a request asks for; none means the only one. -/
def resolveFormat (format : String) : Except Error String :=
  if format = "" ∨ format = jsonFormat then .ok jsonFormat else .error (.unsupportedFormat format)

/-! ## Data -/

/-- The written form of bytes. -/
def dataToJson (bs : Bytes) : Value := .text (String.ofList (Base64.encode bs))

/-- Reads bytes. -/
def dataReader : Reader Bytes :=
  .parsed "a string" fun s => (Base64.decode (Utf8.encode s)).mapError Base64.Fault.message

/-! ## Export -/

/-- What an export is asked for. -/
structure ExportRequest where
  format : String := ""
  filter : Option String := none
  excludeArchived : Bool := false
  includeAttachments : Bool := false
  includeRelations : Bool := false
  deriving DecidableEq, Repr

namespace ExportRequest

/-- The written form of a request. -/
def toJson (r : ExportRequest) : Value :=
  .object [("format", .text r.format), ("filter", (r.filter.map .text).getD .null),
    ("exclude_archived", .boolean r.excludeArchived),
    ("include_attachments", .boolean r.includeAttachments),
    ("include_relations", .boolean r.includeRelations)]

/-- The parts of a request found so far. -/
structure Draft where
  format : Option String := none
  filter : Option (Option String) := none
  excludeArchived : Option Bool := none
  includeAttachments : Option Bool := none
  includeRelations : Option Bool := none

/-- How a request is read. -/
def record : Record Draft ExportRequest where
  title := "struct ExportRequest"
  members :=
    [.of "format" .text Draft.format (fun d v => { d with format := some v }) false,
     .of "filter" (.optional .text) Draft.filter (fun d v => { d with filter := some v }) false,
     .of "exclude_archived" .boolean Draft.excludeArchived
       (fun d v => { d with excludeArchived := some v }) false,
     .of "include_attachments" .boolean Draft.includeAttachments
       (fun d v => { d with includeAttachments := some v }) false,
     .of "include_relations" .boolean Draft.includeRelations
       (fun d v => { d with includeRelations := some v }) false]
  blank := {}
  build d := .ok ⟨d.format.getD "", d.filter.getD none, d.excludeArchived.getD false,
    d.includeAttachments.getD false, d.includeRelations.getD false⟩

end ExportRequest

/-- What an export gives. -/
structure ExportResponse where
  data : Bytes
  format : String
  filename : String
  memoCount : UInt32
  sizeBytes : UInt64
  deriving DecidableEq

namespace ExportResponse

/-- The written form of a response. -/
def toJson (r : ExportResponse) : Value :=
  .object [("data", dataToJson r.data), ("format", .text r.format),
    ("filename", .text r.filename), ("memo_count", .integer r.memoCount.toNat),
    ("size_bytes", .integer r.sizeBytes.toNat)]

/-- The parts of a response found so far. -/
structure Draft where
  data : Option Bytes := none
  format : Option String := none
  filename : Option String := none
  memoCount : Option UInt32 := none
  sizeBytes : Option UInt64 := none

/-- How a response is read. -/
def record : Record Draft ExportResponse where
  title := "struct ExportResponse"
  members :=
    [.of "data" dataReader Draft.data (fun d v => { d with data := some v }) true,
     .of "format" .text Draft.format (fun d v => { d with format := some v }) true,
     .of "filename" .text Draft.filename (fun d v => { d with filename := some v }) true,
     .of "memo_count" .uint32 Draft.memoCount (fun d v => { d with memoCount := some v }) true,
     .of "size_bytes" .uint64 Draft.sizeBytes (fun d v => { d with sizeBytes := some v }) true]
  blank := {}
  build d := do
    return ⟨← needed "data" d.data, ← needed "format" d.format, ← needed "filename" d.filename,
      ← needed "memo_count" d.memoCount, ← needed "size_bytes" d.sizeBytes⟩

end ExportResponse

/-! ## Import -/

/-- How an import goes about its records. -/
structure ImportOptions where
  /-- Stored memos are changed to what the snapshot says. -/
  overwriteExisting : Bool := false
  /-- Nothing is written. -/
  validateOnly : Bool := false
  /-- Memos keep the times of the snapshot. -/
  preserveTimestamps : Bool := true
  skipAttachments : Bool := false
  skipRelations : Bool := false
  deriving DecidableEq, Repr

namespace ImportOptions

/-- The members of the written form of the options. -/
def toMembers (o : ImportOptions) : List (String × Value) :=
  [("overwrite_existing", .boolean o.overwriteExisting),
    ("validate_only", .boolean o.validateOnly),
    ("preserve_timestamps", .boolean o.preserveTimestamps),
    ("skip_attachments", .boolean o.skipAttachments),
    ("skip_relations", .boolean o.skipRelations)]

/-- The parts of the options found so far. -/
structure Draft where
  overwriteExisting : Option Bool := none
  validateOnly : Option Bool := none
  preserveTimestamps : Option Bool := none
  skipAttachments : Option Bool := none
  skipRelations : Option Bool := none

/-- A switch among the options: where a draft keeps it. -/
structure Switch where
  name : String
  get : Draft → Option Bool
  put : Draft → Bool → Draft

/-- The switches in order. -/
def switches : List Switch :=
  [⟨"overwrite_existing", Draft.overwriteExisting,
      fun d v => { d with overwriteExisting := some v }⟩,
    ⟨"validate_only", Draft.validateOnly, fun d v => { d with validateOnly := some v }⟩,
    ⟨"preserve_timestamps", Draft.preserveTimestamps,
      fun d v => { d with preserveTimestamps := some v }⟩,
    ⟨"skip_attachments", Draft.skipAttachments,
      fun d v => { d with skipAttachments := some v }⟩,
    ⟨"skip_relations", Draft.skipRelations, fun d v => { d with skipRelations := some v }⟩]

/-- The options of a draft. -/
def ofDraft (d : Draft) : ImportOptions :=
  ⟨d.overwriteExisting.getD false, d.validateOnly.getD false, d.preserveTimestamps.getD true,
    d.skipAttachments.getD false, d.skipRelations.getD false⟩

/-- How options on their own are read. -/
def record : Record Draft ImportOptions where
  title := "struct ImportOptions"
  members := switches.map fun s => .of s.name .boolean s.get s.put false
  blank := {}
  build d := .ok (ofDraft d)

/-- Takes a member that stands beside the data into a draft; one that is no switch is left alone. -/
def takeMember (d : Draft) (member : String × Value) : Except Fault Draft :=
  match switches.find? (·.name = member.1) with
  | none => .ok d
  | some s =>
    if (s.get d).isSome then .error (.repeatedMember s.name)
    else
      match member.2 with
      | .boolean b => .ok (s.put d b)
      | v => .error (.wrongKind v.found "a boolean")

/-- The options among the members that stand beside the data. -/
def ofMembers (members : List (String × Value)) : Except Fault ImportOptions := do
  return ofDraft (← members.foldlM takeMember {})

end ImportOptions

/-- What an import is asked for. -/
structure ImportRequest where
  data : Bytes
  format : String := ""
  options : ImportOptions := {}
  deriving DecidableEq

namespace ImportRequest

/-- The written form of a request. -/
def toJson (r : ImportRequest) : Value :=
  .object ([("data", dataToJson r.data), ("format", .text r.format)] ++ r.options.toMembers)

/-- The parts of a request found so far, and the members that stand beside them, the last first. -/
structure Draft where
  data : Option Bytes := none
  format : Option String := none
  beside : List (String × Value) := []

/-- How deep the lists and objects of a member beside the data may nest. -/
def depthLimit : Nat := 127

/-- Reads the member with the name into a draft. -/
def readMember (d : Draft) (name : String) : Reader Draft := do
  if name = "data" then
    if d.data.isSome then throw (.repeatedMember "data")
    Reader.colon
    return { d with data := some (← dataReader) }
  else if name = "format" then
    if d.format.isSome then throw (.repeatedMember "format")
    Reader.colon
    return { d with format := some (← Reader.text) }
  else
    Reader.colon
    return { d with beside := (name, ← Reader.value depthLimit) :: d.beside }

/-- The request of a draft. -/
def build (d : Draft) : Except Fault ImportRequest := do
  return ⟨← needed "data" d.data, d.format.getD "", ← ImportOptions.ofMembers d.beside.reverse⟩

/-- Reads a request. It is always an object. -/
def reader : Reader ImportRequest := do
  let c ← Reader.start
  if c = '{' then
    Reader.advance
    let r ← build (← Reader.members readMember {})
    Reader.advance
    return r
  else Reader.refuse "struct ImportRequest" c

end ImportRequest

/-- What an import gives. -/
structure ImportResponse where
  importedCount : UInt32
  skippedCount : UInt32
  validationErrors : UInt32
  errors : List String
  warnings : List String
  totalMemos : UInt32
  createdCount : UInt32
  updatedCount : UInt32
  attachmentsImported : UInt32
  relationsImported : UInt32
  durationMs : UInt64
  deriving DecidableEq, Repr

namespace ImportResponse

/-- The response that reports a summary. -/
def ofSummary (s : Summary) : ImportResponse where
  importedCount := s.importedCount
  skippedCount := s.skippedCount
  validationErrors := s.validationErrors
  errors := s.errors
  warnings := s.warnings
  totalMemos := s.totalMemos
  createdCount := s.createdCount
  updatedCount := s.updatedCount
  attachmentsImported := s.attachmentsImported
  relationsImported := s.relationsImported
  durationMs := s.durationMs

/-- The written form of a response, in which some counters form a summary of their own. -/
def toJson (r : ImportResponse) : Value :=
  .object [("imported_count", .integer r.importedCount.toNat),
    ("skipped_count", .integer r.skippedCount.toNat),
    ("validation_errors", .integer r.validationErrors.toNat),
    ("errors", .texts r.errors), ("warnings", .texts r.warnings),
    ("summary", .object [("total_memos", .integer r.totalMemos.toNat),
      ("created_count", .integer r.createdCount.toNat),
      ("updated_count", .integer r.updatedCount.toNat),
      ("attachments_imported", .integer r.attachmentsImported.toNat),
      ("relations_imported", .integer r.relationsImported.toNat),
      ("duration_ms", .integer r.durationMs.toNat)])]

end ImportResponse

end MemoTransfer
