import MemoTransfer.Proofs.Transfer.Merge
import MemoTransfer.Proofs.Transfer.Operations
import MemoTransfer.Proofs.Transfer.Summing

/-!
# Writing a memo and importing it

A user may write a memo, or import a snapshot whose only record has the same content, visibility and
pin. Both ask for the same limit, so they succeed under the same conditions, and the memos that they
make differ in their text keys alone (`Store.fates`). If they fail, neither changes anything, and a
content that is too long is reported with the same limit (`Store.addMemo_concurs`).
-/

namespace MemoTransfer

/-- The record has the visibility, and neither a location nor a display time. -/
structure MemoRecord.IsPlain (r : MemoRecord) (visibility : Visibility) : Prop where
  named : r.visibility = visibility.name
  unplaced : r.location = none
  undated : r.displayTime = none

/-- The row under another text key. -/
def MemoRow.under (row : MemoRow) (uid : String) : MemoRow := { row with uid := uid }

theorem MemoRow.memo_under (row : MemoRow) (uid : String) :
    (row.under uid).memo = { row.memo with uid := uid } := rfl

namespace Store

variable {s : Store} {user : User} {r : MemoRecord} {visibility : Visibility} {key : String}
  {options : ImportOptions} {now : Int}

/-! ## The memo -/

/-- The memo that a user writes, before it has a number. -/
def authored (user : User) (content : String) (visibility : Visibility) (pinned : Bool)
    (key : String) (now : Int) : Memo where
  id := 0
  uid := key
  creatorId := user.id
  rowStatus := .normal
  content := content
  visibility := visibility
  pinned := pinned
  payload := .ofContent content none
  createdTs := now
  updatedTs := now
  displayTs := none

/-- The text key of a memo that is written is only where it says. -/
theorem ofMemo_authored (id : MemoId) (content : String) (visibility : Visibility) (pinned : Bool)
    (now : Int) (key key' : String) :
    MemoRow.ofMemo id (authored user content visibility pinned key' now) =
      (MemoRow.ofMemo id (authored user content visibility pinned key now)).under key' :=
  rfl

/-- A plain record makes the memo that its owner would write, under its own text key. -/
theorem toMemo_eq_authored (plain : r.IsPlain visibility)
    (restamped : options.preserveTimestamps = false) (now : Int) :
    r.toMemo user.id options now =
      authored user r.content visibility r.pinned r.uid now := by
  have visible : r.knownVisibility.1 = visibility := by
    rw [r.knownVisibility_fst, plain.named, Visibility.ofName?_name]
    rfl
  have stamped : r.times options now = (now, now) := by
    rw [MemoRecord.times, restamped]
    rfl
  rw [MemoRecord.toMemo, authored, visible, stamped, plain.unplaced, plain.undated]
  rfl

/-! ## What may become of it -/

/-- What becomes of a memo that is written, and of the record that is imported instead. -/
inductive Fates (s : Store) (user : User) (r : MemoRecord) (visibility : Visibility)
    (options : ImportOptions) (key : String) (now : Int) :
    Except Error (Memo × Store) → Verdict → Store → Prop
  /-- The limit cannot be read. -/
  | unreadable {e : Error} (unknown : s.contentLimit = .error e) :
      Fates s user r visibility options key now (.error e)
        (.error ⟨r.uid, .during "get content length limit" e⟩) s
  /-- The content is too long. -/
  | tooLong {limit : Nat} (known : s.contentLimit = .ok limit)
      (long : limit < byteLength r.content) :
      Fates s user r visibility options key now (.error (.contentTooLong limit))
        (.error ⟨r.uid, .contentTooLong limit⟩) s
  /-- Both succeed. -/
  | made {limit : Nat} (known : s.contentLimit = .ok limit)
      (short : ¬limit < byteLength r.content) :
      Fates s user r visibility options key now
        (.ok ((MemoRow.ofMemo (s.lastMemo + 1)
            (authored user r.content visibility r.pinned key now)).memo,
          s.withRow (authored user r.content visibility r.pinned key now)))
        (.ok (⟨.created, 0, 0⟩, r.warnings options))
        (s.withRow (authored user r.content visibility r.pinned r.uid now))

/-- The writing of a memo under a free text key fails only because of the limit. -/
theorem addMemo_eq (known : s.users.any (·.id = user.id) = true) (free : s.rowByUid? key = none)
    (content : String) (visibility : Visibility) (pinned : Bool) (now : Int) :
    s.addMemo user content visibility pinned key now = do
      checkLength content (← s.contentLimit)
      return ((MemoRow.ofMemo (s.lastMemo + 1)
          (authored user content visibility pinned key now)).memo,
        s.withRow (authored user content visibility pinned key now)) := by
  have created := s.createMemo_eq (m := authored user content visibility pinned key now) free known
  rw [addMemo, ← authored, created]
  rfl

/-- A record that is refused is told so, and leaves the store as it is. -/
theorem Reconciled.of_refusal {owner : UserId} {v : Verdict} {t : Store} {e : Error}
    (h : s.Reconciled owner options now r v t) (refusal : s.refusal? options r = some e) :
    v = .error ⟨r.uid, e⟩ ∧ t = s := by
  cases h with
  | refused unfit =>
    cases refusal.symm.trans unfit
    exact ⟨rfl, rfl⟩
  | validated fit _ | updated fit _ _ | created fit _ _ _ | unowned fit _ _ _ =>
    cases refusal.symm.trans fit

/-- A new record that is fit makes a memo of its owner. -/
theorem Reconciled.of_fit {owner : UserId} {v : Verdict} {t : Store}
    (h : s.Reconciled owner options now r v t) (fit : s.refusal? options r = none)
    (real : options.validateOnly = false) (new : s.rowByUid? r.uid = none)
    (known : s.users.any (·.id = owner) = true) :
    v = .ok (⟨.created, 0, 0⟩, r.warnings options) ∧ t = s.withRow (r.toMemo owner options now) := by
  cases h with
  | refused unfit => cases fit.symm.trans unfit
  | validated _ dry => simp [real] at dry
  | updated _ _ stored => simp [new] at stored
  | unowned _ _ _ unknown => simp [known] at unknown
  | created _ _ _ _ => exact ⟨rfl, rfl⟩

/-- **Writing a memo and importing it come to the same.** -/
theorem fates (known : s.users.any (·.id = user.id) = true) (free : s.rowByUid? key = none)
    (new : s.rowByUid? r.uid = none) (plain : r.IsPlain visibility)
    (real : options.validateOnly = false) (restamped : options.preserveTimestamps = false)
    (now : Int) :
    s.Fates user r visibility options key now
      (s.addMemo user r.content visibility r.pinned key now)
      (s.verdict user.id options r) (s.merged user.id options now r) := by
  have step := s.reconciled user.id options now r
  rw [addMemo_eq known free]
  cases hl : s.contentLimit with
  | error e =>
    have refusal : s.refusal? options r = some (.during "get content length limit" e) := by
      rw [refusal?, new, hl]
      rfl
    obtain ⟨refused, kept⟩ := step.of_refusal refusal
    rw [refused, kept]
    exact .unreadable hl
  | ok limit =>
    have refusal : s.refusal? options r =
        if limit < byteLength r.content then some (.contentTooLong limit) else none := by
      rw [refusal?, new, hl]
      rfl
    by_cases long : limit < byteLength r.content
    · have checked : checkLength r.content limit = .error (.contentTooLong limit) := if_pos long
      rw [if_pos long] at refusal
      obtain ⟨refused, kept⟩ := step.of_refusal refusal
      rw [refused, kept]
      show Fates s user r visibility options key now (checkLength r.content limit >>= _) _ _
      rw [checked]
      exact .tooLong hl long
    · have checked : checkLength r.content limit = .ok () := if_neg long
      rw [if_neg long] at refusal
      obtain ⟨accepted, stored⟩ := step.of_fit refusal real new known
      rw [accepted, stored, toMemo_eq_authored plain restamped]
      show Fates s user r visibility options key now (checkLength r.content limit >>= _) _ _
      rw [checked]
      exact .made hl long

/-! ## The agreement -/

/-- What a user who writes a memo is told, and what an import of the same memo reports and leaves,
agree. -/
structure Concurs (s : Store) (r : MemoRecord) (key : String)
    (written : Except Error (Memo × Store)) (report : ImportReport) (t : Store) : Prop where
  /-- The memo is written just if the record is imported. -/
  success : ∀ elapsed, (∃ x, written = .ok x) ↔ (report.response elapsed).importedCount = 1
  /-- Both memos are the same but for the text key, and nothing else is changed. -/
  same : ∀ memo u, written = .ok (memo, u) → ∃ row, row.uid = key ∧ row.memo = memo ∧
    u = { s with memos := s.memos ++ [row], lastMemo := row.id } ∧
    t = { s with memos := s.memos ++ [row.under r.uid], lastMemo := row.id } ∧
    t.memoByUid? r.uid = some { memo with uid := r.uid }
  /-- A failure changes nothing. -/
  unchanged : ∀ e, written = .error e → s.after (written.map Prod.snd) = s ∧ t = s
  /-- A content that is too long is reported with the same limit. -/
  tooLong : ∀ limit, written = .error (.contentTooLong limit) ↔
    report.verdicts = [.error ⟨r.uid, .contentTooLong limit⟩]
  /-- A limit that cannot be read is reported by both. -/
  unreadable : ∀ e, s.contentLimit = .error e → written = .error e ∧
    report.verdicts = [.error ⟨r.uid, .during "get content length limit" e⟩]

/-- A limit that cannot be read is not one that is exceeded. -/
theorem contentLimit_ne_tooLong (s : Store) (limit : Nat) :
    s.contentLimit ≠ .error (.contentTooLong limit) := by
  unfold contentLimit
  split
  · exact fun e => by cases e
  · split
    · exact fun e => by cases e
    · exact fun e => by cases e

/-- The only record of a snapshot is counted as imported just if it was accepted. -/
theorem importedCount_single (v : Verdict) (validateOnly : Bool) (elapsed : Nat) :
    ((ImportReport.mk [v] validateOnly).response elapsed).importedCount = 1 ↔ ∃ x, v = .ok x := by
  have response := (ImportReport.mk [v] validateOnly).response_eq elapsed
  dsimp only at response
  rw [response]
  cases v with
  | error rejection =>
    constructor
    · intro counted
      have none : (0 : UInt32) = 1 := counted
      exact absurd none (by decide)
    · rintro ⟨x, accepted⟩
      cases accepted
  | ok x => exact ⟨fun _ => ⟨x, rfl⟩, fun _ => rfl⟩

/-- **What may become of the memo is what both say.** -/
theorem Fates.concurs {written : Except Error (Memo × Store)} {v : Verdict} {t : Store}
    (h : s.Fates user r visibility options key now written v t) (new : s.rowByUid? r.uid = none) :
    s.Concurs r key written ⟨[v], options.validateOnly⟩ t := by
  cases h with
  | unreadable unknown =>
    constructor
    · intro elapsed
      rw [importedCount_single]
      simp
    · exact fun memo u done => by cases done
    · exact fun e _ => ⟨rfl, rfl⟩
    · intro limit
      constructor
      · intro long
        cases long
        exact absurd unknown (s.contentLimit_ne_tooLong limit)
      · intro long
        cases long
    · intro e unknown'
      cases unknown.symm.trans unknown'
      exact ⟨rfl, rfl⟩
  | @tooLong limit known long =>
    constructor
    · intro elapsed
      rw [importedCount_single]
      simp
    · exact fun memo u done => by cases done
    · exact fun e _ => ⟨rfl, rfl⟩
    · simp
    · intro e unknown
      cases known.symm.trans unknown
  | @made limit known short =>
    constructor
    · intro elapsed
      rw [importedCount_single]
      simp
    · intro memo u done
      cases done
      have own : (authored user r.content visibility r.pinned r.uid now).uid = r.uid := rfl
      have stored := s.rowByUid?_withRow (authored user r.content visibility r.pinned r.uid now) r.uid
      rw [new, Option.none_or, if_pos own] at stored
      refine ⟨_, rfl, rfl, rfl, ?_, ?_⟩
      · rw [withRow, ofMemo_authored _ _ _ _ _ key]
        rfl
      · rw [memoByUid?, stored, Option.map_some, ofMemo_authored _ _ _ _ _ key, MemoRow.memo_under]
    · exact fun e failed => by cases failed
    · simp
    · intro e unknown
      cases known.symm.trans unknown

/-- **Authoring and importing agree.** For a user of a store that operations have led to, writing a
memo under a new text key, and importing a snapshot at the same time whose only record has the same
content, visibility and pin under a new text key of its own, succeed and fail together and make the
same memo. -/
theorem addMemo_concurs (reached : s.Reached) (known : s.user? user.username = some user)
    (free : s.rowByUid? key = none) {request : ImportRequest} {snapshot : Snapshot}
    (brought : request.snapshot = .ok snapshot) (single : snapshot.records = [r])
    (new : s.rowByUid? r.uid = none) (plain : r.IsPlain visibility)
    (real : request.options.validateOnly = false)
    (restamped : request.options.preserveTimestamps = false) (now : Calendar.Instant) :
    ∃ report t, s.importAs user.username request now.seconds = (.ok report, t) ∧
      s.Concurs r key (s.addMemo user r.content visibility r.pinned key now.seconds) report t := by
  have imported := importAs_eq reached.wellFormed known brought now.seconds
  rw [single] at imported
  exact ⟨_, _, imported, (fates (any_id_of_user? known) free new plain real restamped
    now.seconds).concurs new⟩

/-- A store with a user, in which a content may have six bytes. -/
def confined : Store :=
  [AccountOperation.ensureUser "alice", .setContentLimit 6].foldl AccountOperation.perform .empty

/-- A record of a content of five characters that take six bytes. -/
def bounded : MemoRecord :=
  ⟨"b", "#café", "PROTECTED", true, .epoch, .epoch, none, ["x"], none, [], []⟩

/-- A content at the limit is taken in by both, with the tag that it has. -/
theorem addMemo_concurs_bounded : ∃ memo u report t,
    confined.addMemo ⟨1, "alice"⟩ "#café" .members true "a" 0 = .ok (memo, u) ∧
      confined.importAs "alice"
        ⟨(Snapshot.ofRecords .epoch [bounded]).encode, "", { preserveTimestamps := false }⟩ 0 =
          (.ok report, t) ∧
      (report.response 0).importedCount = 1 ∧ memo.payload.tags = ["café"] ∧
      t.memoByUid? "b" = some { memo with uid := "b" } := by
  have reached : confined.Reached := (InUse.empty.foldl _).reached
  have known : confined.user? (User.mk 1 "alice").username = some ⟨1, "alice"⟩ := rfl
  have free : confined.rowByUid? "a" = none := rfl
  have finite : (Snapshot.ofRecords .epoch [bounded]).IsFinite := by decide
  have brought : (ImportRequest.mk (Snapshot.ofRecords .epoch [bounded]).encode ""
      { preserveTimestamps := false }).snapshot = .ok (.ofRecords .epoch [bounded]) :=
    ImportRequest.snapshot_encode finite "" _
  have limit : confined.contentLimit = .ok 6 := by decide +kernel
  have written := addMemo_eq (any_id_of_user? known) free "#café" .members true 0
  rw [limit] at written
  have plain : bounded.IsPlain .members := ⟨rfl, rfl, rfl⟩
  obtain ⟨report, t, imported, concurs⟩ :=
    addMemo_concurs reached known free brought rfl rfl plain rfl rfl .epoch
  obtain ⟨_, -, -, -, -, stored⟩ := concurs.same _ _ written
  exact ⟨_, _, report, t, written, imported, (concurs.success 0).1 ⟨_, written⟩, by decide +kernel,
    stored⟩

end Store

end MemoTransfer
