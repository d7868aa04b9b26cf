import MemoTransfer.Proofs.Store.Lookups
import MemoTransfer.Proofs.Transfer.Runs
import MemoTransfer.Transfer.Account

/-!
# What an import does to a store

One record changes a store in one of three ways (`Store.merged`): not at all, if it is refused or
nothing is to be written; in the row with its text key, if there is one; or by a new row. What is
reported of it (`Store.verdict`) depends on the same store (`Store.reconcile_run`). The import of a
snapshot is the import of its records one after another (`Store.importAs_eq`), and a problem of the
whole request changes nothing (`Store.importAs_snd`).

The text keys stay unique throughout, so that the row that is found is the only one.
-/

namespace MemoTransfer

open MemoTransfer.Calendar

/-! ## The snapshot of a request -/

/-- The snapshot that a request brings is the one that was encoded. -/
theorem ImportRequest.snapshot_encode {snapshot : Snapshot} (hf : snapshot.IsFinite)
    (format : String) (options : ImportOptions) :
    (ImportRequest.mk snapshot.encode format options).snapshot = do
      let _ ← resolveFormat format
      snapshot.checkVersion
      return snapshot := by
  rw [ImportRequest.snapshot]
  dsimp only
  rw [Snapshot.decode_of_run (Snapshot.run_encode hf)]
  rfl

/-- The coordinates that a request brings are finite, for they are read from its bytes. -/
theorem ImportRequest.isFinite_snapshot {request : ImportRequest} {snapshot : Snapshot}
    (h : request.snapshot = .ok snapshot) : snapshot.IsFinite := by
  obtain ⟨-, -, h⟩ := exists_ok_of_bind h
  obtain ⟨decoded, hd, h⟩ := exists_ok_of_bind h
  obtain ⟨-, -, h⟩ := exists_ok_of_bind h
  cases h
  exact Snapshot.isFinite_of_decode hd

/-! ## Warnings -/

/-- The warnings of a record that has been written: an unknown visibility, attachments and relations
that are left behind. -/
def MemoRecord.warnings (r : MemoRecord) (options : ImportOptions) : List String :=
  r.knownVisibility.2 ++
    (if options.skipAttachments || r.attachments.isEmpty then []
      else ["Attachments for memo " ++ r.uid ++
        " were skipped (attachment import not yet implemented)"]) ++
    if options.skipRelations || r.relations.isEmpty then []
    else ["Relations for memo " ++ r.uid ++ " were skipped (relation import not yet implemented)"]

namespace Store

variable {s : Store} {owner : UserId} {options : ImportOptions} {now : Int} {r : MemoRecord}

/-! ## One record -/

/-- The record is accepted: it may replace a stored memo, if there is one, and is not too long. -/
def admits (s : Store) (options : ImportOptions) (r : MemoRecord) : Bool :=
  ((s.rowByUid? r.uid).isNone || options.overwriteExisting) &&
    match s.contentLimit with
    | .ok limit => byteLength r.content ≤ limit
    | .error _ => false

/-- The store after the import of a record. -/
def merged (s : Store) (owner : UserId) (options : ImportOptions) (now : Int) (r : MemoRecord) :
    Store :=
  if options.validateOnly || !s.admits options r then s
  else
    match s.rowByUid? r.uid with
    | some t => s.withPatch (r.toPatch t.id options)
    | none => if s.users.any (·.id = owner) then s.withRow (r.toMemo owner options now) else s

theorem merged_of_refused (h : s.admits options r = false) (owner : UserId) (now : Int) :
    s.merged owner options now r = s := by
  rw [merged, h, Bool.not_false, Bool.or_true, if_pos rfl]

theorem merged_of_stored {t : MemoRow} (hv : options.validateOnly = false)
    (ha : s.admits options r = true) (h : s.rowByUid? r.uid = some t) (owner : UserId) (now : Int) :
    s.merged owner options now r = s.withPatch (r.toPatch t.id options) := by
  rw [merged, hv, ha, h]
  rfl

theorem merged_of_new (hv : options.validateOnly = false) (ha : s.admits options r = true)
    (h : s.rowByUid? r.uid = none) (known : s.users.any (·.id = owner) = true) (now : Int) :
    s.merged owner options now r = s.withRow (r.toMemo owner options now) := by
  rw [merged, hv, ha, h, known]
  rfl

theorem existing_ends (hs : s.WellFormed) (r : MemoRecord) :
    Ends (importStep "check for existing memo" (memoStore.getMemo (.byUid r.uid))) s
      (.ok ((s.rowByUid? r.uid).map MemoRow.memo)) s := by
  have asked := ask_ends (·.getMemo (.byUid r.uid)) s
  rw [getMemo_byUid hs] at asked
  exact asked.adapt _

theorem limit_ends (s : Store) :
    Ends (importStep "get content length limit" memoStore.contentLimit) s
      (s.contentLimit.mapError (Error.during "get content length limit")) s :=
  (ask_ends Store.contentLimit s).adapt _

/-- Why a record is refused before anything is written: its memo is stored and is to stay, the limit
cannot be read, or the content is too long. -/
def refusal? (s : Store) (options : ImportOptions) (r : MemoRecord) : Option Error :=
  if (s.rowByUid? r.uid).isSome && !options.overwriteExisting then some (.memoAlreadyExists r.uid)
  else
    match s.contentLimit with
    | .error e => some (Error.during "get content length limit" e)
    | .ok limit => if limit < byteLength r.content then some (.contentTooLong limit) else none

theorem admits_eq (s : Store) (options : ImportOptions) (r : MemoRecord) :
    s.admits options r = (s.refusal? options r).isNone := by
  unfold admits refusal?
  cases hr : s.rowByUid? r.uid <;> cases options.overwriteExisting <;>
    cases s.contentLimit <;> simp <;> split <;> simp_all

/-- A record is refused, or found fit together with the memo that it would change. -/
theorem examine_ends (hs : s.WellFormed) (options : ImportOptions) (r : MemoRecord) :
    Ends (examine memoStore r options) s ((s.refusal? options r).elim
      (.ok ((s.rowByUid? r.uid).map MemoRow.memo)) .error) s := by
  have limit := limit_ends s
  refine (existing_ends hs r).bind ?_
  unfold refusal?
  rw [Option.isSome_map]
  by_cases taken : ((s.rowByUid? r.uid).isSome && !options.overwriteExisting) = true
  · rw [if_pos taken, if_pos taken]
    exact .bind_error (.throw _ _)
  · rw [if_neg taken, if_neg taken]
    cases hl : s.contentLimit with
    | error e =>
      rw [hl] at limit
      exact .bind_error limit
    | ok n =>
      rw [hl] at limit
      refine limit.bind ?_
      dsimp only
      by_cases long : n < byteLength r.content
      · have refused : checkLength r.content n = .error (.contentTooLong n) := if_pos long
        rw [if_pos long]
        exact .bind_error (.of_except refused s)
      · have fits : checkLength r.content n = .ok () := if_neg long
        rw [if_neg long]
        exact (Ends.of_except fits s).bind (.pure _ _)

/-! ## Writing a record -/

theorem writeMemo_ends_updated {t : MemoRow} (h : s.rowByUid? r.uid = some t) :
    Ends (writeMemo memoStore owner r options now (some t.memo)) s (.ok .updated)
      (s.withPatch (r.toPatch t.id options)) := by
  have here : s.hasMemo t.id = true :=
    List.any_eq_true.2 ⟨t, (mem_of_rowByUid? h).1, decide_eq_true rfl⟩
  have update : Ends (memoStore.updateMemo (r.toPatch t.id options)) s (.ok ())
      (s.withPatch (r.toPatch t.id options)) := by
    apply change_ends
    rw [updateMemo_eq rfl here]
    rfl
  exact (update.adapt _).bind (.pure _ _)

theorem writeMemo_ends_created (free : s.rowByUid? r.uid = none)
    (known : s.users.any (·.id = owner) = true) :
    Ends (writeMemo memoStore owner r options now none) s (.ok .created)
      (s.withRow (r.toMemo owner options now)) := by
  have create : Ends (memoStore.createMemo (r.toMemo owner options now)) s _
      (s.withRow (r.toMemo owner options now)) := change_ends (createMemo_eq free known)
  exact (create.adapt _).bind (.pure _ _)

theorem writeMemo_ends_error (free : s.rowByUid? r.uid = none)
    (unknown : s.users.any (·.id = owner) = false) :
    Ends (writeMemo memoStore owner r options now none) s
      (.error (Error.during "create memo" .noReferent)) s := by
  have free' : s.rowByUid? (r.toMemo owner options now).uid = none := free
  have unknown' : s.users.any (·.id = (r.toMemo owner options now).creatorId) = false := unknown
  have refused : s.createMemo (r.toMemo owner options now) = .error .noReferent := by
    rw [createMemo, free', unknown']
    rfl
  exact .bind_error ((change_ends_error refused).adapt _)

/-- Nothing is brought in with a record, and the store stays as it is. -/
theorem bringIn_ends {α : Type} (s : Store) (skip : Bool) (refs : List α)
    (importRefs : List α → StateM Store ReferenceResult) (message : String)
    (h : ∀ s, (importRefs refs).run s = (.notImported message, s)) :
    Ends (ExceptT.lift (bringIn skip refs importRefs) : ExceptT Error (StateM Store) Arrivals) s
      (.ok ⟨0, if skip || refs.isEmpty then [] else [message]⟩) s := by
  unfold bringIn
  split
  · exact .lift rfl
  · refine .lift ?_
    rw [StateT.run_bind, h]
    rfl

/-- What an accepted record leads to, once its memo has been written. -/
theorem importRecord_ends {t : Store} {existing : Option Memo} {d : Disposition}
    (hv : options.validateOnly = false) (he : Ends (examine memoStore r options) s (.ok existing) s)
    (hw : Ends (writeMemo memoStore owner r options now existing) s (.ok d) t) :
    Ends (importRecord memoStore owner r options .deferred now) s
      (.ok (⟨d, 0, 0⟩, r.warnings options)) t := by
  refine he.bind ?_
  dsimp only
  rw [hv, if_neg Bool.false_ne_true]
  refine hw.bind ?_
  refine (bringIn_ends t options.skipAttachments r.attachments _ _ fun _ => rfl).bind ?_
  refine (bringIn_ends t options.skipRelations r.relations _ _ fun _ => rfl).bind ?_
  exact .pure _ _

/-- What becomes of a record. -/
def verdict (s : Store) (owner : UserId) (options : ImportOptions) (r : MemoRecord) : Verdict :=
  match s.refusal? options r with
  | some e => .error ⟨r.uid, e⟩
  | none =>
    if options.validateOnly then .ok (⟨.validated, 0, 0⟩, r.knownVisibility.2)
    else if (s.rowByUid? r.uid).isSome then .ok (⟨.updated, 0, 0⟩, r.warnings options)
    else if s.users.any (·.id = owner) then .ok (⟨.created, 0, 0⟩, r.warnings options)
    else .error ⟨r.uid, Error.during "create memo" .noReferent⟩

theorem verdict_of_new (hv : options.validateOnly = false) (ha : s.refusal? options r = none)
    (h : s.rowByUid? r.uid = none) (known : s.users.any (·.id = owner) = true) :
    s.verdict owner options r = .ok (⟨.created, 0, 0⟩, r.warnings options) := by
  rw [verdict, ha, hv, h, known]
  rfl

/-- What the import of a record may come to, and the store after it. -/
inductive Reconciled (s : Store) (owner : UserId) (options : ImportOptions) (now : Int)
    (r : MemoRecord) : Verdict → Store → Prop
  | refused {e : Error} (unfit : s.refusal? options r = some e) :
      s.Reconciled owner options now r (.error ⟨r.uid, e⟩) s
  | validated (fit : s.refusal? options r = none) (dry : options.validateOnly = true) :
      s.Reconciled owner options now r (.ok (⟨.validated, 0, 0⟩, r.knownVisibility.2)) s
  | updated {t : MemoRow} (fit : s.refusal? options r = none) (real : options.validateOnly = false)
      (stored : s.rowByUid? r.uid = some t) :
      s.Reconciled owner options now r (.ok (⟨.updated, 0, 0⟩, r.warnings options))
        (s.withPatch (r.toPatch t.id options))
  | created (fit : s.refusal? options r = none) (real : options.validateOnly = false)
      (free : s.rowByUid? r.uid = none) (known : s.users.any (·.id = owner) = true) :
      s.Reconciled owner options now r (.ok (⟨.created, 0, 0⟩, r.warnings options))
        (s.withRow (r.toMemo owner options now))
  | unowned (fit : s.refusal? options r = none) (real : options.validateOnly = false)
      (free : s.rowByUid? r.uid = none) (unknown : s.users.any (·.id = owner) = false) :
      s.Reconciled owner options now r (.error ⟨r.uid, Error.during "create memo" .noReferent⟩) s

theorem reconciled (s : Store) (owner : UserId) (options : ImportOptions) (now : Int)
    (r : MemoRecord) :
    s.Reconciled owner options now r (s.verdict owner options r)
      (s.merged owner options now r) := by
  unfold verdict merged
  rw [admits_eq]
  cases unfit : s.refusal? options r with
  | some e => simpa using Reconciled.refused unfit
  | none =>
    cases real : options.validateOnly with
    | true => simpa using Reconciled.validated unfit real
    | false =>
      cases stored : s.rowByUid? r.uid with
      | some t => simpa using Reconciled.updated unfit real stored
      | none =>
        cases known : s.users.any (·.id = owner) with
        | true => simpa using Reconciled.created unfit real stored known
        | false => simpa using Reconciled.unowned unfit real stored known

/-- **What the import of a record comes to, and what it does to the store.** -/
theorem reconcile_run (hs : s.WellFormed) (owner : UserId) (options : ImportOptions) (now : Int)
    (r : MemoRecord) : (reconcile memoStore owner options .deferred now r).run s =
      (s.verdict owner options r, s.merged owner options now r) := by
  have examined := examine_ends hs options r
  have step := s.reconciled owner options now r
  generalize s.verdict owner options r = v, s.merged owner options now r = t at step ⊢
  cases step with
  | refused unfit =>
    rw [unfit] at examined
    exact reconcile_run_of_ends examined.bind_error
  | validated fit dry =>
    rw [fit] at examined
    have checked : Ends (importRecord memoStore owner r options .deferred now) s
        (.ok (⟨.validated, 0, 0⟩, r.knownVisibility.2)) s := by
      refine examined.bind ?_
      dsimp only
      rw [dry, if_pos rfl]
      exact .pure _ _
    exact reconcile_run_of_ends checked
  | updated fit real stored =>
    rw [fit, stored] at examined
    exact reconcile_run_of_ends
      (importRecord_ends real examined (writeMemo_ends_updated stored))
  | created fit real free known =>
    rw [fit, free] at examined
    exact reconcile_run_of_ends
      (importRecord_ends real examined (writeMemo_ends_created free known))
  | unowned fit real free unknown =>
    rw [fit, free] at examined
    have failed : Ends (importRecord memoStore owner r options .deferred now) s
        (.error (Error.during "create memo" .noReferent)) s := by
      refine examined.bind ?_
      dsimp only
      rw [real, if_neg Bool.false_ne_true]
      exact (writeMemo_ends_error free unknown).bind_error
    exact reconcile_run_of_ends failed

/-- A record changes nothing but the table of memos. -/
theorem exists_merged_eq (s : Store) (owner : UserId) (options : ImportOptions) (now : Int)
    (r : MemoRecord) : ∃ memos last,
      s.merged owner options now r = { s with memos := memos, lastMemo := last } := by
  have step := s.reconciled owner options now r
  generalize s.verdict owner options r = v, s.merged owner options now r = t at step ⊢
  cases step <;> exact ⟨_, _, rfl⟩

theorem WellFormed.merged (hs : s.WellFormed) (owner : UserId) (options : ImportOptions) (now : Int)
    (r : MemoRecord) : (s.merged owner options now r).WellFormed := by
  have step := s.reconciled owner options now r
  generalize s.verdict owner options r = v, s.merged owner options now r = t at step ⊢
  cases step with
  | refused _ => exact hs
  | validated _ _ => exact hs
  | updated _ _ _ => exact hs.withPatch _
  | created _ _ free _ => exact hs.withRow free
  | unowned _ _ _ _ => exact hs

/-! ## The whole snapshot -/

/-- The store after the import of records one after another. -/
def mergedAll (s : Store) (owner : UserId) (options : ImportOptions) (now : Int)
    (records : List MemoRecord) : Store :=
  records.foldl (fun s r => s.merged owner options now r) s

@[simp] theorem mergedAll_nil (s : Store) (owner : UserId) (options : ImportOptions) (now : Int) :
    s.mergedAll owner options now [] = s := rfl

@[simp] theorem mergedAll_cons (s : Store) (owner : UserId) (options : ImportOptions) (now : Int)
    (r : MemoRecord) (records : List MemoRecord) :
    s.mergedAll owner options now (r :: records) =
      (s.merged owner options now r).mergedAll owner options now records := rfl

theorem exists_mergedAll_eq (s : Store) (owner : UserId) (options : ImportOptions) (now : Int)
    (records : List MemoRecord) : ∃ memos last,
      s.mergedAll owner options now records = { s with memos := memos, lastMemo := last } := by
  induction records generalizing s with
  | nil => exact ⟨_, _, rfl⟩
  | cons r records ih =>
    obtain ⟨memos, last, e⟩ := exists_merged_eq s owner options now r
    obtain ⟨memos', last', e'⟩ := ih (s.merged owner options now r)
    refine ⟨memos', last', ?_⟩
    rw [mergedAll_cons, e', e]

theorem WellFormed.mergedAll (hs : s.WellFormed) (owner : UserId) (options : ImportOptions)
    (now : Int) (records : List MemoRecord) :
    (s.mergedAll owner options now records).WellFormed := by
  induction records generalizing s with
  | nil => exact hs
  | cons r records ih => exact ih (hs.merged owner options now r)

/-- What becomes of records that are imported one after another. -/
def verdicts (s : Store) (owner : UserId) (options : ImportOptions) (now : Int) :
    List MemoRecord → List Verdict
  | [] => []
  | r :: records =>
    s.verdict owner options r :: (s.merged owner options now r).verdicts owner options now records

theorem length_verdicts (s : Store) (owner : UserId) (options : ImportOptions) (now : Int)
    (records : List MemoRecord) :
    (s.verdicts owner options now records).length = records.length := by
  induction records generalizing s with
  | nil => rfl
  | cons r records ih => rw [verdicts, List.length_cons, ih, List.length_cons]

theorem records_ends (hs : s.WellFormed) (owner : UserId) (options : ImportOptions) (now : Int)
    (records : List MemoRecord) :
    Ends (records.mapM fun r => (ExceptT.lift (reconcile memoStore owner options .deferred now r) :
      ExceptT Error (StateM Store) Verdict)) s (.ok (s.verdicts owner options now records))
      (s.mergedAll owner options now records) := by
  induction records generalizing s with
  | nil => exact .pure _ _
  | cons r records ih =>
    exact .mapM_cons (.lift (reconcile_run hs owner options now r))
      (ih (hs.merged owner options now r))

variable {username : String} {user : User} {request : ImportRequest} {snapshot : Snapshot}

theorem session_eq (hu : s.user? username = some user) : s.session username = .ok user := by
  rw [session, hu]

/-- **What an import comes to, and what it does to the store.** -/
theorem importAs_eq (hs : s.WellFormed) (hu : s.user? username = some user)
    (hr : request.snapshot = .ok snapshot) (now : Int) :
    s.importAs username request now =
      (.ok ⟨s.verdicts user.id request.options now snapshot.records, request.options.validateOnly⟩,
        s.mergedAll user.id request.options now snapshot.records) :=
  (Ends.of_except (session_eq hu) s).bind ((Ends.of_except hr s).bind
    ((records_ends hs user.id request.options now snapshot.records).bind (.pure _ _)))

theorem importAs_ends (hs : s.WellFormed) (hu : s.user? username = some user)
    (hr : request.snapshot = .ok snapshot) (now : Int) :
    ∃ report, s.importAs username request now =
      (.ok report, s.mergedAll user.id request.options now snapshot.records) :=
  ⟨_, importAs_eq hs hu hr now⟩

/-- A request without a snapshot fails. -/
theorem importAs_of_error {e : Error} (hu : s.user? username = some user)
    (hr : request.snapshot = .error e) (now : Int) :
    s.importAs username request now = (.error e, s) :=
  (Ends.of_except (session_eq hu) s).bind (.bind_error (.of_except hr s))

/-- A user who is not known imports nothing. -/
theorem importAs_of_unknown (hu : s.user? username = none) (request : ImportRequest) (now : Int) :
    s.importAs username request now =
      (.error (.identity ("unknown user " ++ username)), s) := by
  have unknown : s.session username = .error (.identity ("unknown user " ++ username)) := by
    rw [session, hu]
  exact Ends.bind_error (.of_except unknown s)

/-- A problem of the whole request changes nothing; every other import goes through the records. -/
theorem importAs_snd (hs : s.WellFormed) (username : String) (request : ImportRequest) (now : Int) :
    (s.importAs username request now).2 = s ∨
      ∃ user snapshot, s.user? username = some user ∧ request.snapshot = .ok snapshot ∧
        (s.importAs username request now).2 =
          s.mergedAll user.id request.options now snapshot.records := by
  cases hu : s.user? username with
  | none => exact .inl (by rw [importAs_of_unknown hu])
  | some user =>
    cases hr : request.snapshot with
    | error e => exact .inl (by rw [importAs_of_error hu hr])
    | ok snapshot => exact .inr ⟨user, snapshot, rfl, rfl, by rw [importAs_eq hs hu hr]⟩

end Store

end MemoTransfer
