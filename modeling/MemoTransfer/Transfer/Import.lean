import MemoTransfer.Memo.Derived
import MemoTransfer.Snapshot.Written
import MemoTransfer.Store.MemoStore
import MemoTransfer.Transfer.Envelope
import MemoTransfer.Transfer.References

/-!
# Import

An import goes through the records of a snapshot in order. For each it decides whether the memo is
created, updated or rejected, and carries the decision out (`reconcile`); a rejected record does not
stop the ones after it. A problem of the whole request, namely an unknown user, another format,
bytes that are no snapshot or another version, fails the import before any record is looked at.
-/

namespace MemoTransfer

open MemoTransfer.Calendar

variable {m : Type → Type} [Monad m]

/-- The error of a failed step of an import. -/
def Error.during (step : String) (e : Error) : Error :=
  .importFailed ("failed to " ++ step ++ ": " ++ e.message)

/-- Carries out a step; its error names the step. -/
def importStep {α : Type} (step : String) (act : ExceptT Error m α) : ExceptT Error m α :=
  act.adapt (Error.during step)

namespace MemoRecord

/-- The visibility of a record, and a warning if its name is unknown. -/
def knownVisibility (r : MemoRecord) : Visibility × List String :=
  match Visibility.ofName? r.visibility with
  | some v => (v, [])
  | none =>
    (.ownerOnly, ["Unknown visibility " ++ r.visibility ++ " for memo " ++ r.uid ++
      ", defaulting to PRIVATE"])

/-- The times of creation and of the last change: those of the record, or the given one. -/
def times (r : MemoRecord) (options : ImportOptions) (now : Int) : Int × Int :=
  if options.preserveTimestamps then (r.createdAt.seconds, r.updatedAt.seconds) else (now, now)

/-- The new memo of a record. -/
def toMemo (r : MemoRecord) (owner : UserId) (options : ImportOptions) (now : Int) : Memo where
  id := 0
  uid := r.uid
  creatorId := owner
  rowStatus := .normal
  content := r.content
  visibility := r.knownVisibility.1
  pinned := r.pinned
  payload := .ofContent r.content r.location
  createdTs := (r.times options now).1
  updatedTs := (r.times options now).2
  displayTs := r.displayTime.map (·.seconds)

/-- The change of a stored memo to what the record says. Unlike a new memo it takes over the tags of
the record, and its own times stay unless those of the record are kept. -/
def toPatch (r : MemoRecord) (id : MemoId) (options : ImportOptions) : MemoPatch where
  id := id
  content := some r.content
  visibility := some r.knownVisibility.1
  pinned := some r.pinned
  payload := some { Payload.ofContent r.content r.location with tags := r.tags }
  createdTs := if options.preserveTimestamps then some r.createdAt.seconds else none
  updatedTs := if options.preserveTimestamps then some r.updatedAt.seconds else none
  displayTs := r.displayTime.map (·.seconds)

end MemoRecord

/-- Refuses a content with more than `limit` bytes. -/
def checkLength (content : String) (limit : Nat) : Except Error Unit :=
  if limit < byteLength content then .error (.contentTooLong limit) else .ok ()

/-- Decides whether a record may be imported: the memo that it would change, if it is stored. -/
def examine (store : MemoStore m) (r : MemoRecord) (options : ImportOptions) :
    ExceptT Error m (Option Memo) := do
  let existing ← importStep "check for existing memo" (store.getMemo (.byUid r.uid))
  if existing.isSome && !options.overwriteExisting then throw (.memoAlreadyExists r.uid)
  let limit ← importStep "get content length limit" store.contentLimit
  checkLength r.content limit
  return existing

/-- Writes the memo of an accepted record. -/
def writeMemo (store : MemoStore m) (owner : UserId) (r : MemoRecord) (options : ImportOptions)
    (now : Int) (existing : Option Memo) : ExceptT Error m Disposition := do
  match existing with
  | some memo =>
    importStep "update existing memo" (store.updateMemo (r.toPatch memo.id options))
    return .updated
  | none =>
    let _ ← importStep "create memo" (store.createMemo (r.toMemo owner options now))
    return .created

/-- What references have come in, and the warnings of those that have not. -/
structure Arrivals where
  count : UInt32 := 0
  warnings : List String := []
  deriving DecidableEq, Repr

/-- Brings in references, unless there are none or they are to be skipped. -/
def bringIn {α : Type} (skip : Bool) (refs : List α) (importRefs : List α → m ReferenceResult) :
    m Arrivals := do
  if skip || refs.isEmpty then return {}
  else
    match ← importRefs refs with
    | .imported n => return { count := n }
    | .notImported message => return { warnings := [message] }

/-- Imports one record: what was done, and the warnings. -/
def importRecord (store : MemoStore m) (owner : UserId) (r : MemoRecord)
    (options : ImportOptions) (references : ReferenceImporter m) (now : Int) :
    ExceptT Error m (Imported × List String) := do
  let existing ← examine store r options
  let warnings := r.knownVisibility.2
  if options.validateOnly then return (⟨.validated, 0, 0⟩, warnings)
  else
    let disposition ← writeMemo store owner r options now existing
    let attachments ← ExceptT.lift
      (bringIn options.skipAttachments r.attachments (references.importAttachments r.uid))
    let relations ← ExceptT.lift
      (bringIn options.skipRelations r.relations (references.importRelations r.uid))
    return (⟨disposition, attachments.count, relations.count⟩,
      warnings ++ attachments.warnings ++ relations.warnings)

/-- A record that was not imported, and why. -/
structure Rejection where
  uid : String
  error : Error
  deriving DecidableEq, Repr

/-- How a rejection is reported in a response. -/
def Rejection.reason (r : Rejection) : String :=
  "Failed to import memo " ++ r.uid ++ ": " ++ r.error.message

/-- What became of a record. -/
abbrev Verdict := Except Rejection (Imported × List String)

/-- The outcome that reports a verdict. -/
def Verdict.outcome : Verdict → Outcome Imported
  | .ok (imported, warnings) => .withWarnings imported warnings
  | .error rejection => .reject rejection.reason

/-- Imports one record and catches its error. `now` stamps the memo if the times of the record are
not kept. -/
def reconcile (store : MemoStore m) (owner : UserId) (options : ImportOptions)
    (references : ReferenceImporter m) (now : Int) (r : MemoRecord) : m Verdict := do
  match ← (importRecord store owner r options references now).run with
  | .ok result => return .ok result
  | .error e => return .error ⟨r.uid, e⟩

/-! ## The whole snapshot -/

/-- What became of the records of a snapshot, in order. -/
structure ImportReport where
  verdicts : List Verdict
  validateOnly : Bool

namespace ImportReport

/-- The summary of an import that took so many nanoseconds. -/
def summary (report : ImportReport) (elapsed : Nat) : Summary :=
  .ofOutcomes (report.verdicts.map Verdict.outcome) report.validateOnly elapsed

/-- The response to the request. -/
def response (report : ImportReport) (elapsed : Nat) : ImportResponse :=
  .ofSummary (report.summary elapsed)

/-- The rejected records, in order. -/
def rejections (report : ImportReport) : List Rejection :=
  report.verdicts.filterMap fun v =>
    match v with
    | .ok _ => none
    | .error rejection => some rejection

end ImportReport

/-- The snapshot that a request brings. -/
def ImportRequest.snapshot (request : ImportRequest) : Except Error Snapshot := do
  let _ ← resolveFormat request.format
  let snapshot ← Snapshot.decode request.data
  snapshot.checkVersion
  return snapshot

/-- Imports a snapshot for a user. -/
def importMemos (store : MemoStore m) (user : Except Error User) (request : ImportRequest)
    (references : ReferenceImporter m) (now : Int) : ExceptT Error m ImportReport := do
  let user ← user
  let snapshot ← request.snapshot
  let verdicts ← snapshot.records.mapM fun r =>
    ExceptT.lift (reconcile store user.id request.options references now r)
  return ⟨verdicts, request.options.validateOnly⟩

end MemoTransfer
