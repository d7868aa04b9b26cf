import MemoTransfer.Proofs.Transfer.Courses
import MemoTransfer.Proofs.Transfer.Importing

/-!
# What an import accounts for

The import of a snapshot takes one course after another, so that its calls are those of its passages
(`records_noted`). It fails only for a problem of the whole request, and then it has called nothing;
otherwise its response accounts for each record and for each call that has written a memo
(`importMemos_accounts`), whatever the store and the reference importer answer.
-/

namespace MemoTransfer

variable {σ : Type}

/-! ## Passages -/

theorem Rejection.exists_reason (rejection : Rejection) : ∃ cause,
    rejection.reason = "Failed to import memo " ++ rejection.uid ++ ": " ++ cause :=
  ⟨rejection.error.message, rfl⟩

/-- What has become of a record, and the calls that were made for it. -/
structure Passage where
  record : MemoRecord
  verdict : Verdict
  calls : List Call

namespace Passage

/-- The record was rejected. -/
def rejected (p : Passage) : Bool := p.verdict.rejection?.isSome

/-- The passage is a course, whose error is caught. -/
def Follows (p : Passage) (owner : UserId) (options : ImportOptions) (now : Int) : Prop :=
  ∃ x, p.verdict = x.mapError (Rejection.mk p.record.uid) ∧
    Course p.record owner options now x p.calls

/-- What the calls of a passage say of its record. -/
structure IsSparing (p : Passage) (options : ImportOptions) : Prop where
  /-- At most one call writes. -/
  once : p.calls.countP Call.isWrite ≤ 1
  /-- None does in a dry run. -/
  dry : options.validateOnly = true → p.calls.countP Call.isWrite = 0
  /-- None does for a content that is longer than the limit that was answered meanwhile. -/
  short : ∀ limit, .contentLimit (.ok limit) ∈ p.calls → limit < byteLength p.record.content →
    p.calls.countP Call.isWrite = 0

variable {p : Passage} {owner : UserId} {options : ImportOptions} {now : Int}

theorem Follows.isSparing (h : p.Follows owner options now) : p.IsSparing options := by
  obtain ⟨x, -, course⟩ := h
  exact ⟨course.countP_isWrite_le, course.countP_isWrite_of_dry,
    fun limit => course.countP_isWrite_of_long⟩

theorem Follows.countP_hasCreated (h : p.Follows owner options now) :
    p.calls.countP Call.hasCreated =
      if p.verdict.disposition? = some .created then 1 else 0 := by
  obtain ⟨x, verdict, course⟩ := h
  rw [verdict]
  exact course.countP_eq (fun _ => Call.isWrite_of_hasCreated) (by decide) Written.hasCreated_iff

theorem Follows.countP_hasUpdated (h : p.Follows owner options now) :
    p.calls.countP Call.hasUpdated =
      if p.verdict.disposition? = some .updated then 1 else 0 := by
  obtain ⟨x, verdict, course⟩ := h
  rw [verdict]
  exact course.countP_eq (fun _ => Call.isWrite_of_hasUpdated) (by decide) Written.hasUpdated_iff

/-- A rejection names its record. -/
theorem Follows.uid_of_rejection? (h : p.Follows owner options now) {rejection : Rejection}
    (rejected : p.verdict.rejection? = some rejection) : rejection.uid = p.record.uid := by
  obtain ⟨x, verdict, -⟩ := h
  rw [verdict] at rejected
  cases x with
  | error e =>
    cases rejected
    rfl
  | ok imported => cases rejected

/-- The calls that were counted once for each verdict. -/
theorem countP_flatMap_calls {f : Call → Bool} {done : Disposition} {passages : List Passage}
    (h : ∀ p ∈ passages,
      p.calls.countP f = if p.verdict.disposition? = some done then 1 else 0) :
    (passages.flatMap calls).countP f =
      (passages.map verdict).countP (·.disposition? = some done) := by
  induction passages with
  | nil => rfl
  | cons p passages ih =>
    rw [List.forall_mem_cons] at h
    rw [List.flatMap_cons, List.countP_append, h.1, ih h.2, List.map_cons, List.countP_cons,
      Nat.add_comm]
    simp

/-- The reasons of the rejections, one for each passage that was rejected. -/
theorem forall₂_reasons {passages : List Passage}
    (h : ∀ p ∈ passages, p.Follows owner options now) :
    List.Forall₂ (fun p error => ∃ cause,
        error = "Failed to import memo " ++ p.record.uid ++ ": " ++ cause)
      (passages.filter rejected)
      (((passages.map verdict).filterMap Verdict.rejection?).map Rejection.reason) := by
  induction passages with
  | nil => exact .nil
  | cons p passages ih =>
    rw [List.forall_mem_cons] at h
    cases reported : p.verdict.rejection? with
    | none =>
      rw [List.filter_cons_of_neg (by simp [rejected, reported]), List.map_cons,
        List.filterMap_cons_none reported]
      exact ih h.2
    | some rejection =>
      rw [List.filter_cons_of_pos (by simp [rejected, reported]), List.map_cons,
        List.filterMap_cons_some reported, List.map_cons]
      have reason := rejection.exists_reason
      rw [h.1.uid_of_rejection? reported] at reason
      exact .cons reason (ih h.2)

end Passage

/-! ## The records of a snapshot -/

section

variable (store : MemoStore (StateM σ)) (references : ReferenceImporter (StateM σ))
  (owner : UserId) (options : ImportOptions) (now : Int)

theorem reconcile_noted (r : MemoRecord) (s : σ) : ∃ verdict t calls,
    Noted (ExceptT.lift (reconcile store owner options references now r))
        (ExceptT.lift (reconcile store.watched owner options references.watched now r)) s
        (.ok verdict) t calls ∧
      Passage.Follows ⟨r, verdict, calls⟩ owner options now := by
  obtain ⟨x, t, calls, noted, course⟩ := importRecord_noted store references r owner options now s
  exact ⟨_, t, calls, .lift (reconcile_run_of_ends noted.plain) fun before =>
    reconcile_run_of_ends (noted.watched before), x, rfl, course⟩

/-- **Records are imported in passages**, one after another. -/
theorem records_noted (records : List MemoRecord) (s : σ) : ∃ (passages : List Passage) (t : σ),
    Noted (records.mapM fun r => ExceptT.lift (reconcile store owner options references now r))
        (records.mapM fun r =>
          ExceptT.lift (reconcile store.watched owner options references.watched now r)) s
        (.ok (passages.map Passage.verdict)) t (passages.flatMap Passage.calls) ∧
      passages.map Passage.record = records ∧ ∀ p ∈ passages, p.Follows owner options now := by
  induction records generalizing s with
  | nil => exact ⟨[], s, .pure _ _, rfl, by simp⟩
  | cons r records ih =>
    obtain ⟨verdict, t, calls, first, follows⟩ :=
      reconcile_noted store references owner options now r s
    obtain ⟨passages, u, rest, same, all⟩ := ih t
    refine ⟨⟨r, verdict, calls⟩ :: passages, u, ?_, by simp [same],
      List.forall_mem_cons.2 ⟨follows, all⟩⟩
    rw [List.mapM_cons, List.mapM_cons]
    exact first.bind (rest.bind_quiet (.pure _ _))

end

/-! ## The whole request -/

/-- The error of a failed computation. -/
def errorOf? {α : Type} : Except Error α → Option Error
  | .error e => some e
  | .ok _ => none

/-- The problem of the whole request: the first of an unknown user, another format, bytes that are
no snapshot, and another version. -/
def ImportRequest.fault? (request : ImportRequest) (user : Except Error User) : Option Error :=
  errorOf? user <|> errorOf? (resolveFormat request.format) <|>
    errorOf? (Snapshot.decode request.data) <|>
    errorOf? (Snapshot.decode request.data >>= Snapshot.checkVersion)

/-- A request without a problem brings a snapshot for a known user. -/
theorem ImportRequest.fault?_eq (request : ImportRequest) (user : Except Error User) :
    request.fault? user = (errorOf? user <|> errorOf? request.snapshot) := by
  unfold fault? snapshot
  cases resolveFormat request.format with
  | error e => rfl
  | ok format =>
    cases Snapshot.decode request.data with
    | error e => rfl
    | ok snapshot =>
      show (errorOf? user <|> errorOf? snapshot.checkVersion) =
        (errorOf? user <|> errorOf? (snapshot.checkVersion >>= fun _ => pure snapshot))
      cases snapshot.checkVersion <;> rfl

/-- What a response says of passages. -/
structure ImportResponse.AccountsFor (response : ImportResponse) (options : ImportOptions)
    (passages : List Passage) : Prop where
  total : response.totalMemos.toNat = passages.length
  /-- Each record is imported or skipped. -/
  divided : response.importedCount.toNat + response.skippedCount.toNat = passages.length
  /-- One error for each record that was rejected, in order. -/
  errors : List.Forall₂ (fun p error => ∃ cause,
      error = "Failed to import memo " ++ p.record.uid ++ ": " ++ cause)
    (passages.filter Passage.rejected) response.errors
  skipped : response.skippedCount.toNat = response.errors.length
  /-- The calls that have created a memo. -/
  created : response.createdCount.toNat = (passages.flatMap Passage.calls).countP Call.hasCreated
  /-- The calls that have updated one. -/
  updated : response.updatedCount.toNat = (passages.flatMap Passage.calls).countP Call.hasUpdated
  validation : response.validationErrors =
    if options.validateOnly then response.skippedCount else 0

theorem ImportReport.accountsFor {report : ImportReport} {passages : List Passage}
    {owner : UserId} {options : ImportOptions} {now : Int}
    (verdicts : passages.map Passage.verdict = report.verdicts)
    (mode : report.validateOnly = options.validateOnly)
    (follows : ∀ p ∈ passages, p.Follows owner options now) (few : passages.length < 2 ^ 32)
    (elapsed : Nat) : (report.response elapsed).AccountsFor options passages := by
  have length : report.verdicts.length = passages.length := by
    rw [← verdicts, List.length_map]
  have divided := report.length_accepted_add_length_rejections
  have counted {n : Nat} (h : n ≤ passages.length) : (UInt32.ofNat n).toNat = n :=
    UInt32.toNat_ofNat_of_lt' (Nat.lt_of_le_of_lt h few)
  have created := Passage.countP_flatMap_calls fun p hp => (follows p hp).countP_hasCreated
  have updated := Passage.countP_flatMap_calls fun p hp => (follows p hp).countP_hasUpdated
  have errors := Passage.forall₂_reasons follows
  rw [verdicts] at created updated errors
  have response := report.response_eq elapsed
  dsimp only at response
  rw [response]
  constructor
  · rw [counted (Nat.le_of_eq length), length]
  · dsimp only
    rw [counted (by omega), counted (by omega), divided, length]
  · exact errors
  · rw [counted (by omega), List.length_map]
  · rw [counted (length ▸ List.countP_le_length), created]
  · rw [counted (length ▸ List.countP_le_length), updated]
  · rw [mode]

/-- The import of a snapshot for a known user consists of passages. -/
theorem importMemos_noted (store : MemoStore (StateM σ)) (references : ReferenceImporter (StateM σ))
    (user : User) {request : ImportRequest} {snapshot : Snapshot}
    (brought : request.snapshot = .ok snapshot) (now : Int) (s : σ) :
    ∃ (passages : List Passage) (t : σ),
      Noted (importMemos store (.ok user) request references now)
        (importMemos store.watched (.ok user) request references.watched now) s
        (.ok ⟨passages.map Passage.verdict, request.options.validateOnly⟩) t
        (passages.flatMap Passage.calls) ∧
      passages.map Passage.record = snapshot.records ∧
      ∀ p ∈ passages, p.Follows user.id request.options now := by
  have known : (Except.ok user : Except Error User) = .ok user := rfl
  obtain ⟨passages, t, run, records, follows⟩ :=
    records_noted store references user.id request.options now snapshot.records s
  exact ⟨passages, t, (Noted.of_except known s).bind ((Noted.of_except brought s).bind
    (run.bind_quiet (.pure _ _))), records, follows⟩

/-- **An import accounts for its records and its calls.** A problem of the whole request is
reported before anything is called. Otherwise there is a report, the calls are those of one passage
for each record, none of them writes without need, and the response accounts for the passages. -/
theorem importMemos_accounts (store : MemoStore (StateM σ))
    (references : ReferenceImporter (StateM σ)) (user : Except Error User)
    (request : ImportRequest) (now : Int) (s : σ) :
    (∀ e, request.fault? user = some e →
      Noted (importMemos store user request references now)
        (importMemos store.watched user request references.watched now) s (.error e) s []) ∧
    (request.fault? user = none → ∃ snapshot report t, ∃ passages : List Passage,
      request.snapshot = .ok snapshot ∧
      Noted (importMemos store user request references now)
        (importMemos store.watched user request references.watched now) s (.ok report) t
        (passages.flatMap Passage.calls) ∧
      passages.map Passage.record = snapshot.records ∧
      passages.map Passage.verdict = report.verdicts ∧
      (∀ p ∈ passages, p.IsSparing request.options) ∧
      (passages.length < 2 ^ 32 → ∀ elapsed,
        (report.response elapsed).AccountsFor request.options passages)) := by
  rw [ImportRequest.fault?_eq]
  cases user with
  | error e =>
    constructor
    · intro e' fault
      cases fault
      exact (Noted.of_except rfl s).bind_error
    · intro fault
      cases fault
  | ok user =>
    have known : (Except.ok user : Except Error User) = .ok user := rfl
    cases brought : request.snapshot with
    | error e =>
      constructor
      · intro e' fault
        cases fault
        exact (Noted.of_except known s).bind (Noted.of_except brought s).bind_error
      · intro fault
        cases fault
    | ok snapshot =>
      constructor
      · intro e fault
        cases fault
      · intro _
        obtain ⟨passages, t, run, records, follows⟩ :=
          importMemos_noted store references user brought now s
        refine ⟨snapshot, ⟨passages.map Passage.verdict, request.options.validateOnly⟩, t, passages,
          rfl, run, records, rfl, fun p hp => (follows p hp).isSparing, fun few elapsed => ?_⟩
        exact ImportReport.accountsFor rfl rfl follows few elapsed

/-- A store without memos that fails every other call. -/
def wavering : MemoStore (StateM Bool) where
  listMemos _ := .mk fun busy => (if busy then .error .notWritable else .ok [], !busy)
  getMemo _ := .mk fun busy => (if busy then .error .notWritable else .ok none, !busy)
  createMemo m := .mk fun busy => (if busy then .error .notWritable else .ok m, !busy)
  updateMemo _ := .mk fun busy => (if busy then .error .notWritable else .ok (), !busy)
  listAttachments _ := .mk fun busy => (if busy then .error .notWritable else .ok [], !busy)
  listRelations _ := .mk fun busy => (if busy then .error .notWritable else .ok [], !busy)
  contentLimit := .mk fun busy => (if busy then .error .notWritable else .ok 8192, !busy)

/-- A snapshot with a single record. -/
def single : Snapshot :=
  .ofRecords .epoch [⟨"a", "one", "PUBLIC", true, .epoch, .epoch, none, [], none, [], []⟩]

theorem importMemos_accounts_wavering : ∃ report t, ∃ passages : List Passage,
    Ends (importMemos wavering (.ok ⟨1, "alice"⟩) ⟨single.encode, "", {}⟩ .deferred 0) false
        (.ok report) t ∧
      passages.map Passage.record = single.records ∧
      (report.response 0).AccountsFor {} passages := by
  have finite : single.IsFinite := by decide
  have brought : (ImportRequest.mk single.encode "" {}).snapshot = .ok single :=
    ImportRequest.snapshot_encode finite "" {}
  have sound : (ImportRequest.mk single.encode "" {}).fault? (.ok ⟨1, "alice"⟩) = none := by
    rw [ImportRequest.fault?_eq, brought]
    rfl
  obtain ⟨snapshot, report, t, passages, same, noted, records, -, -, accounts⟩ :=
    (importMemos_accounts wavering .deferred (.ok ⟨1, "alice"⟩) ⟨single.encode, "", {}⟩ 0 false).2
      sound
  rw [brought] at same
  cases same
  have few : passages.length < 2 ^ 32 := by
    rw [← List.length_map Passage.record, records]
    decide
  exact ⟨report, t, passages, noted.plain, records, accounts few 0⟩

end MemoTransfer
