import MemoTransfer.Proofs.Store.Lookups
import MemoTransfer.Proofs.Transfer.Runs
import MemoTransfer.Transfer.Account

/-!
# What an export gives

The memos of a store are exported one by one, and none of them is ever left out: its attachments and
relations are rows of the store, and a relation to a memo that is gone is dropped
(`exportEntry_run`). So an export answers with the records of the memos that its query lists, or
with the error of its user, its format or its query, and changes nothing (`exportMemos_ends`).
-/

namespace MemoTransfer

open MemoTransfer.Calendar

theorem ExportResponse.data_ofSnapshot (snapshot : Snapshot) (format : String) :
    (ofSnapshot snapshot format).data = snapshot.encode := by
  rw [ofSnapshot]

/-- The bytes of a response hold its snapshot. -/
theorem ExportResponse.decode_data {snapshot : Snapshot} (h : snapshot.IsFinite) (format : String) :
    Snapshot.decode (ofSnapshot snapshot format).data = .ok snapshot := by
  rw [data_ofSnapshot]
  exact Snapshot.decode_of_run (Snapshot.run_encode h)

namespace Store

variable {s : Store}

/-! ## One memo -/

/-- The exchanged form of a relation, unless its target is gone. -/
def relationRef? (s : Store) (r : Relation) : Option RelationRef :=
  (((s.rowsMatching (.byId r.relatedId)).mergeSort MemoRow.isBefore).map MemoRow.memo).head?.map
    fun memo => ⟨memo.uid, r.kind.name⟩

/-- The record of a memo, with attachments and relations as asked for. -/
def exportRecord (s : Store) (request : ExportRequest) (m : Memo) : MemoRecord :=
  { MemoRecord.ofMemo m with
    attachments :=
      if request.includeAttachments then (s.attachmentsOf m.id).map .ofAttachment else []
    relations :=
      if request.includeRelations then (s.relationsOf m.id).filterMap s.relationRef? else [] }

theorem relationRef?_ends (s : Store) (r : Relation) :
    Ends (MemoTransfer.relationRef? memoStore r) s (.ok (s.relationRef? r)) s := by
  have asked := ask_ends (·.getMemo (.byId r.relatedId)) s
  rw [getMemo, listMemos_eq rfl] at asked
  exact asked.bind (.pure _ _)

theorem exportMemo_ends (s : Store) (request : ExportRequest) (m : Memo) :
    Ends (exportMemo memoStore request m) s (.ok (s.exportRecord request m)) s := by
  have refs (rs : List Relation) : Ends (rs.mapM (MemoTransfer.relationRef? memoStore)) s
      (.ok (rs.map s.relationRef?)) s := .mapM_answers fun r _ => s.relationRef?_ends r
  have record : { MemoRecord.ofMemo m with
      attachments := (if request.includeAttachments then s.attachmentsOf m.id else []).map
        AttachmentRef.ofAttachment
      relations := ((if request.includeRelations then s.relationsOf m.id else []).map
        s.relationRef?).filterMap id } = s.exportRecord request m := by
    unfold exportRecord
    cases request.includeAttachments <;> cases request.includeRelations <;> simp
  refine .bind_if (ask_ends (fun s => .ok (s.attachmentsOf m.id)) s)
    (.bind_if (ask_ends (fun s => .ok (s.relationsOf m.id)) s) ((refs _).bind ?_))
  rw [record]
  exact .pure _ _

/-- **No memo is left out of an export.** -/
theorem exportEntry_run (s : Store) (request : ExportRequest) (m : Memo) :
    (exportEntry memoStore request m).run s = (.ok (s.exportRecord request m), s) :=
  exportEntry_run_of_ends (s.exportMemo_ends request m)

/-! ## All memos of a user -/

/-- The snapshot of memos of a store. -/
def snapshotOf (s : Store) (request : ExportRequest) (exportedAt : Instant) (memos : List Memo) :
    Snapshot := .ofRecords exportedAt (memos.map (s.exportRecord request))

theorem isFinite_snapshotOf {memos : List Memo} (h : ∀ m ∈ memos, m.payload.IsFinite)
    (request : ExportRequest) (exportedAt : Instant) :
    (s.snapshotOf request exportedAt memos).IsFinite := by
  intro record hr
  obtain ⟨m, hm, rfl⟩ := List.mem_map.1 hr
  exact h m hm

/-- What an export answers. -/
def exported (s : Store) (user : Except Error User) (request : ExportRequest)
    (exportedAt : Instant) : Except Error (ExportResponse × List SkippedMemo) := do
  let user ← user
  let format ← resolveFormat request.format
  let memos ← s.listMemos (request.query user.id)
  return (.ofSnapshot (s.snapshotOf request exportedAt memos) format, [])

theorem buildSnapshot_ends (s : Store) (user : User) (request : ExportRequest)
    (exportedAt : Instant) :
    Ends (buildSnapshot memoStore user request exportedAt) s
      (do
        let memos ← s.listMemos (request.query user.id)
        return (s.snapshotOf request exportedAt memos, [])) s := by
  have entries (memos : List Memo) : Ends (memos.mapM fun m =>
      (ExceptT.lift (exportEntry memoStore request m) : ExceptT Error (StateM Store) _)) s
      (.ok (memos.map fun m => .ok (s.exportRecord request m))) s :=
    .mapM_answers fun m _ => .lift (s.exportEntry_run request m)
  refine (ask_ends (·.listMemos (request.query user.id)) s).bind_answer fun memos => ?_
  refine (entries memos).bind ?_
  simp only [List.filterMap_map, Function.comp_def]
  simp only [Except.toOption, List.filterMap_eq_map', List.filterMap_none]
  exact .pure _ _

/-- **An export answers with the records of the memos that it lists, and changes nothing.** -/
theorem exportMemos_ends (s : Store) (user : Except Error User) (request : ExportRequest)
    (exportedAt : Instant) :
    Ends (exportMemos memoStore user request exportedAt) s
      (s.exported user request exportedAt) s := by
  refine (Ends.of_except rfl s).bind_answer fun user => ?_
  refine (Ends.of_except rfl s).bind_answer fun format => ?_
  have ends := (s.buildSnapshot_ends user request exportedAt).bind_answer
    (f := fun x => pure (ExportResponse.ofSnapshot x.1 format, x.2)) fun x => .pure _ _
  rw [bind_assoc] at ends
  exact ends

/-- The memos that an export is about. -/
def exportedMemos (s : Store) (username : String) (request : ExportRequest) :
    Except Error (List Memo) := do
  let user ← s.session username
  s.listMemos (request.query user.id)

variable {username : String} {request : ExportRequest} {exportedAt : Instant}
  {response : ExportResponse} {skipped : List SkippedMemo}

/-- Without a filter the memos of a user are all listed. -/
theorem exportedMemos_eq {user : User} (request : ExportRequest)
    (hu : s.user? username = some user) (hq : (request.query user.id).filter = none) :
    s.exportedMemos username request =
      .ok (((s.rowsMatching (request.query user.id)).mergeSort MemoRow.isBefore).map
        MemoRow.memo) := by
  rw [exportedMemos, session, hu]
  exact listMemos_eq hq

/-- An export brings the memos that it is about. -/
theorem exportAs_eq {memos : List Memo} (hf : resolveFormat request.format = .ok jsonFormat)
    (h : s.exportedMemos username request = .ok memos) (exportedAt : Instant) :
    s.exportAs username request exportedAt =
      .ok (.ofSnapshot (s.snapshotOf request exportedAt memos) jsonFormat, []) := by
  have answer : s.exportAs username request exportedAt = _ :=
    congrArg Prod.fst (s.exportMemos_ends (s.session username) request exportedAt)
  obtain ⟨user, hu, h⟩ := exists_ok_of_bind h
  rw [answer, exported, hu, hf]
  show (s.listMemos (request.query user.id) >>= _) = _
  rw [h]
  rfl

theorem eq_jsonFormat {format format' : String} (h : resolveFormat format = .ok format') :
    format' = jsonFormat := by
  unfold resolveFormat at h
  split at h
  · exact (Except.ok.inj h).symm
  · cases h

/-- What stands behind an export that succeeds. -/
theorem exists_memos_of_exportAs
    (h : s.exportAs username request exportedAt = .ok (response, skipped)) :
    ∃ memos, s.exportedMemos username request = .ok memos ∧ skipped = [] ∧
      response = .ofSnapshot (s.snapshotOf request exportedAt memos) jsonFormat := by
  have answer := congrArg Prod.fst (s.exportMemos_ends (s.session username) request exportedAt)
  replace h := answer.symm.trans h
  obtain ⟨user, hu, h⟩ := exists_ok_of_bind h
  obtain ⟨format, hf, h⟩ := exists_ok_of_bind h
  obtain ⟨memos, hm, h⟩ := exists_ok_of_bind h
  obtain ⟨given, none⟩ := Prod.mk.inj (Except.ok.inj h)
  refine ⟨memos, ?_, none.symm, eq_jsonFormat hf ▸ given.symm⟩
  rw [exportedMemos, hu]
  exact hm

/-- An export that succeeds is asked for in the known format. -/
theorem resolveFormat_of_exportAs
    (h : s.exportAs username request exportedAt = .ok (response, skipped)) :
    resolveFormat request.format = .ok jsonFormat := by
  have answer := congrArg Prod.fst (s.exportMemos_ends (s.session username) request exportedAt)
  replace h := answer.symm.trans h
  obtain ⟨user, -, h⟩ := exists_ok_of_bind h
  obtain ⟨format, hf, -⟩ := exists_ok_of_bind h
  rw [hf, eq_jsonFormat hf]

/-- An export is about the memos of different rows, in order. -/
theorem exists_rows_of_exportedMemos (hs : s.WellFormed) {memos : List Memo}
    (h : s.exportedMemos username request = .ok memos) :
    ∃ rows : List MemoRow, memos = rows.map MemoRow.memo ∧ (∀ r ∈ rows, r ∈ s.memos) ∧
      (rows.map (·.uid)).Nodup ∧ rows.Pairwise fun r t => r.isBefore t = true := by
  obtain ⟨user, -, h⟩ := exists_ok_of_bind h
  exact exists_rows_of_listMemos hs h

end Store

end MemoTransfer
