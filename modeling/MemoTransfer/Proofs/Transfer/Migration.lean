import MemoTransfer.Proofs.Transfer.Operations
import MemoTransfer.Proofs.Transfer.Summing

/-!
# Taking memos to another store

The memos of an export become new memos of a store that has none of their text keys, in the same
order and behind the memos that are there, with whatever a snapshot says of them; only the tags are
those of their texts again (`Store.importAs_foreign_export`). If the importing user had no memos
before, an export of that store brings the same records, with these tags.
-/

namespace MemoTransfer

open MemoTransfer.Calendar

/-! ## Reports of new memos -/

/-- The record has become a new memo. -/
def Verdict.IsCreated (v : Verdict) : Prop := ∃ warnings, v = .ok (⟨.created, 0, 0⟩, warnings)

/-- An import of new memos alone reports no errors and counts them. -/
theorem ImportReport.response_created {report : ImportReport}
    (h : ∀ v ∈ report.verdicts, v.IsCreated) (elapsed : Nat) :
    (report.response elapsed).errors = [] ∧
      (report.response elapsed).createdCount = UInt32.ofNat report.verdicts.length := by
  have accepted : report.rejections = [] := by
    rw [rejections_eq, List.filterMap_eq_nil_iff]
    intro v hv
    obtain ⟨warnings, rfl⟩ := h v hv
    rfl
  have created : report.verdicts.countP (·.disposition? = some .created) =
      report.verdicts.length := by
    rw [List.countP_eq_length]
    intro v hv
    obtain ⟨warnings, rfl⟩ := h v hv
    rfl
  have response := report.response_eq elapsed
  dsimp only at response
  rw [response, accepted, created]
  exact ⟨rfl, rfl⟩

/-! ## Memos on their way -/

/-- The memo as the memo of another user, with the payload of its text. -/
def Memo.taken (m : Memo) (id : MemoId) (owner : UserId) : Memo :=
  { m with
    id := id
    creatorId := owner
    rowStatus := .normal
    payload := .ofContent m.content m.payload.location }

/-- The record with the tags of its text. -/
def MemoRecord.retagged (r : MemoRecord) : MemoRecord :=
  { r with tags := (Payload.ofContent r.content r.location).tags }

theorem MemoRecord.isFinite_retagged {memos : List Memo} (h : ∀ m ∈ memos, m.payload.IsFinite)
    (exportedAt : Instant) : (Snapshot.ofRecords exportedAt
      (memos.map fun m => (ofMemo m).retagged)).IsFinite := by
  intro record hr
  obtain ⟨m, hm, rfl⟩ := List.mem_map.1 hr
  exact h m hm

theorem MemoRecord.ofMemo_taken (m : Memo) (id : MemoId) (owner : UserId) :
    ofMemo (m.taken id owner) = (ofMemo m).retagged := rfl

namespace Store

variable {s : Store} {owner : UserId} {options : ImportOptions} {now : Int} {limit : Nat}

/-- The new memo of an exported record says what the exported one says. -/
theorem toMemo_exportRecord {m : Memo} (h : m.HasTimes) (request : ExportRequest) (owner : UserId)
    (now : Int) : (s.exportRecord request m).toMemo owner {} now = m.taken 0 owner := by
  obtain ⟨created, updated, displayed⟩ := MemoRecord.seconds_ofMemo h
  have same : (s.exportRecord request m).toMemo owner {} now =
      (MemoRecord.ofMemo m).toMemo owner {} now := rfl
  rw [same, MemoRecord.toMemo, MemoRecord.times, if_pos rfl, MemoRecord.knownVisibility_ofMemo,
    created, updated, displayed]
  rfl

/-! ## New memos -/

/-- Records with new text keys all become new memos, one behind the other. -/
theorem mergedAll_of_new (hs : s.WellFormed) (hl : s.contentLimit = .ok limit)
    (known : s.users.any (·.id = owner) = true) (hv : options.validateOnly = false) (now : Int)
    {records : List MemoRecord} (different : (records.map (·.uid)).Nodup)
    (free : ∀ r ∈ records, s.rowByUid? r.uid = none)
    (short : ∀ r ∈ records, byteLength r.content ≤ limit) :
    (∀ v ∈ s.verdicts owner options now records, v.IsCreated) ∧
      s.mergedAll owner options now records =
        s.withRows (records.map (·.toMemo owner options now)) := by
  induction records generalizing s with
  | nil => exact ⟨fun v hv => absurd hv List.not_mem_nil, rfl⟩
  | cons r records ih =>
    rw [List.map_cons, List.nodup_cons] at different
    rw [List.forall_mem_cons] at free short
    have fit : s.refusal? options r = none := by
      simp [refusal?, hl, free.1, Nat.not_lt.2 short.1]
    have admitted : s.admits options r = true := by
      rw [admits_eq, fit]
      rfl
    have free' : ∀ t ∈ records,
        (s.withRow (r.toMemo owner options now)).rowByUid? t.uid = none := by
      intro t ht
      have other : (r.toMemo owner options now).uid ≠ t.uid := by
        intro e
        exact different.1 (List.mem_map.2 ⟨t, ht, e.symm⟩)
      rw [rowByUid?_withRow, free.2 t ht, if_neg other, Option.none_or]
    have keys := hs.withRow (m := r.toMemo owner options now) free.1
    obtain ⟨created, rows⟩ := ih keys hl known different.2 free' short.2
    rw [verdicts, mergedAll_cons, verdict_of_new hv fit free.1 known,
      merged_of_new hv admitted free.1 known, List.forall_mem_cons]
    exact ⟨⟨⟨_, rfl⟩, created⟩, rows⟩

variable {source target : Store} {memos : List Memo} {importer : String} {user : User}

/-- The store that the memos of another one have been taken to. -/
def taking (s : Store) (memos : List Memo) (owner : UserId) : Store :=
  s.withRows (memos.map (·.taken 0 owner))

/-- Memos with new text keys are all taken. -/
theorem importAs_taking (source : Store) (ht : target.WellFormed)
    (hl : target.contentLimit = .ok limit) (hu : target.user? importer = some user)
    (finite : ∀ m ∈ memos, m.payload.IsFinite) (times : ∀ m ∈ memos, m.HasTimes)
    (different : (memos.map (·.uid)).Nodup) (free : ∀ m ∈ memos, target.rowByUid? m.uid = none)
    (short : ∀ m ∈ memos, byteLength m.content ≤ limit) (request : ExportRequest)
    (exportedAt : Instant) (now : Int) :
    ∃ report, target.importAs importer
        ⟨(source.snapshotOf request exportedAt memos).encode, "", {}⟩ now =
      (.ok report, target.taking memos user.id) ∧
      report.verdicts.length = memos.length ∧ ∀ v ∈ report.verdicts, v.IsCreated := by
  have brought : (ImportRequest.mk (source.snapshotOf request exportedAt memos).encode ""
      {}).snapshot = .ok (source.snapshotOf request exportedAt memos) :=
    ImportRequest.snapshot_encode (isFinite_snapshotOf finite request exportedAt) "" _
  have known := any_id_of_user? hu
  have different' : ((memos.map (source.exportRecord request)).map (·.uid)).Nodup := by
    rwa [List.map_map]
  obtain ⟨created, merged⟩ := mergedAll_of_new ht hl known
    (rfl : ({} : ImportOptions).validateOnly = false) now different' (List.forall_mem_map.2 free)
    (List.forall_mem_map.2 short)
  have rows : (memos.map (source.exportRecord request)).map (·.toMemo user.id {} now) =
      memos.map (·.taken 0 user.id) := by
    rw [List.map_map]
    exact List.map_congr_left fun m hm => toMemo_exportRecord (times m hm) request user.id now
  rw [rows] at merged
  refine ⟨_, (importAs_eq ht hu brought now).trans (congrArg _ merged), ?_, created⟩
  exact (length_verdicts ..).trans (List.length_map ..)

/-! ## Exporting them again -/

/-- The rows of the memos that have been taken behind the last one. -/
def rowsTaken (last : MemoId) (owner : UserId) (memos : List Memo) : List MemoRow :=
  memos.mapIdx fun i m => .ofMemo (last + i + 1) (m.taken 0 owner)

theorem taking_eq (s : Store) (memos : List Memo) (owner : UserId) :
    s.taking memos owner = { s with
      memos := s.memos ++ rowsTaken s.lastMemo owner memos
      lastMemo := s.lastMemo + memos.length } := by
  have rows : ((memos.map (·.taken 0 owner)).mapIdx fun i m =>
      MemoRow.ofMemo (s.lastMemo + i + 1) m) = rowsTaken s.lastMemo owner memos := by
    refine List.ext_getElem? fun i => ?_
    simp [rowsTaken, Function.comp_def]
  rw [taking, withRows_eq, rows, List.length_map]

/-- The rows read back as the memos that were taken. -/
theorem memo_rowsTaken (last : MemoId) (owner : UserId) (finite : ∀ m ∈ memos, m.payload.IsFinite) :
    (rowsTaken last owner memos).map MemoRow.memo =
      memos.mapIdx fun i m => m.taken (last + i + 1) owner := by
  refine List.ext_getElem (by simp [rowsTaken]) fun i _ hi => ?_
  rw [List.length_mapIdx] at hi
  have finite' : (memos[i].taken 0 owner).payload.IsFinite := finite memos[i] (List.getElem_mem hi)
  simp only [rowsTaken, List.getElem_map, List.getElem_mapIdx]
  rw [MemoRow.memo_ofMemo finite']
  rfl

/-- The rows are in order if the memos are. -/
theorem pairwise_rowsTaken (last : MemoId) (owner : UserId)
    (ordered : memos.Pairwise fun m m' => m.createdTs ≤ m'.createdTs) :
    (rowsTaken last owner memos).Pairwise fun r t => r.isBefore t = true := by
  rw [List.pairwise_iff_getElem] at ordered ⊢
  intro i j hi hj hij
  simp only [rowsTaken, List.length_mapIdx] at hi hj
  simp only [rowsTaken, List.getElem_mapIdx, MemoRow.isBefore_iff]
  have later : memos[i].createdTs ≤ memos[j].createdTs := ordered i j hi hj hij
  have behind : last + i + 1 ≤ last + j + 1 :=
    Int.add_le_add_right (Int.add_le_add_left (Int.ofNat_le.2 (Nat.le_of_lt hij)) last) 1
  rcases Int.lt_or_eq_of_le later with h | h
  · exact .inl h
  · exact .inr ⟨h, behind⟩

/-- Only the memos that were taken belong to their new owner. -/
theorem rowsMatching_taking (ht : target.relations = [])
    (alone : ∀ r ∈ target.memos, r.creatorId ≠ user.id) (request : ExportRequest) :
    (target.taking memos user.id).rowsMatching (request.query user.id) =
      rowsTaken target.lastMemo user.id memos := by
  have noComment (id : MemoId) : (target.taking memos user.id).isComment id = false := by
    rw [isComment, relationsOf, taking_eq, ht]
    rfl
  have others : target.memos.filter (fun r => r.matches (request.query user.id)) = [] := by
    rw [List.filter_eq_nil_iff]
    intro r hr
    have other : user.id ≠ r.creatorId := fun e => alone r hr e.symm
    simp [MemoRow.matches, ExportRequest.query, other]
  have taken : (rowsTaken target.lastMemo user.id memos).filter
      (fun r => r.matches (request.query user.id)) = rowsTaken target.lastMemo user.id memos := by
    rw [List.filter_eq_self]
    intro r hr
    obtain ⟨i, h, rfl⟩ := List.mem_mapIdx.1 hr
    cases hx : request.excludeArchived <;>
      simp [MemoRow.matches, ExportRequest.query, MemoRow.ofMemo, Memo.taken, hx]
  unfold rowsMatching
  simp only [noComment, Bool.and_false, Bool.not_false, Bool.and_true]
  rw [taking_eq, List.filter_append, others, taken, List.nil_append]

/-- **An export brings the memos that were taken.** -/
theorem exportAs_taking (ht : target.attachments = [] ∧ target.relations = [])
    (hu : target.user? importer = some user) (alone : ∀ r ∈ target.memos, r.creatorId ≠ user.id)
    (finite : ∀ m ∈ memos, m.payload.IsFinite)
    (ordered : memos.Pairwise fun m m' => m.createdTs ≤ m'.createdTs) (request : ExportRequest)
    (hf : resolveFormat request.format = .ok jsonFormat)
    (hq : (request.query user.id).filter = none) (exportedAt : Instant) :
    (target.taking memos user.id).exportAs importer request exportedAt =
      .ok (.ofSnapshot (.ofRecords exportedAt
        (memos.map fun m => (MemoRecord.ofMemo m).retagged)) jsonFormat, []) := by
  have hu' : (target.taking memos user.id).user? importer = some user := by
    rw [user?, taking_eq]
    exact hu
  have bare (m : Memo) :
      (target.taking memos user.id).exportRecord request m = MemoRecord.ofMemo m := by
    have attachments : (target.taking memos user.id).attachmentsOf m.id = [] := by
      rw [attachmentsOf, taking_eq, ht.1]
      rfl
    have relations : (target.taking memos user.id).relationsOf m.id = [] := by
      rw [relationsOf, taking_eq, ht.2]
      rfl
    simp [exportRecord, attachments, relations, MemoRecord.ofMemo]
  have records : (memos.mapIdx fun i m => m.taken (target.lastMemo + i + 1) user.id).map
      ((target.taking memos user.id).exportRecord request) =
        memos.map fun m => (MemoRecord.ofMemo m).retagged := by
    refine List.ext_getElem (by simp) fun i _ _ => ?_
    simp only [List.getElem_map, List.getElem_mapIdx, bare, MemoRecord.ofMemo_taken]
  have listed := exportedMemos_eq request hu' hq
  rw [rowsMatching_taking ht.2 alone, List.mergeSort_of_pairwise (pairwise_rowsTaken _ _ ordered),
    memo_rowsTaken _ _ finite] at listed
  rw [exportAs_eq hf listed, snapshotOf, records]

/-! ## A tag that no text has -/

/-- A memo with a tag that its text does not have. -/
def tagged : Memo where
  id := 1
  uid := "a"
  creatorId := 1
  rowStatus := .normal
  content := "plain"
  visibility := .everyone
  pinned := false
  payload := ⟨["x"], .plain, none⟩
  createdTs := 60
  updatedTs := 120
  displayTs := none

/-- The store of its creator. -/
def tagging : Store :=
  TableOperation.perform (TableOperation.perform .empty (.createUser "alice")) (.createMemo tagged)

/-- The store of another user. -/
def welcoming : Store := AccountOperation.perform .empty (.ensureUser "bob")

theorem reached_tagging : tagging.Reached := .table (.table .empty _) _

theorem inUse_welcoming : welcoming.InUse := .account .empty _

theorem isFinite_tagged : tagged.payload.IsFinite := fun l h => by cases h

theorem hasTimes_tagged : tagged.HasTimes := ⟨by decide, by decide, fun t h => by cases h⟩

theorem rows_tagging : tagging.memos = [MemoRow.ofMemo 1 tagged] := rfl

theorem memo_tagged : (MemoRow.ofMemo 1 tagged).memo = tagged :=
  MemoRow.memo_ofMemo isFinite_tagged 1

theorem exportedMemos_tagging : tagging.exportedMemos "alice" {} = .ok [tagged] := by
  have known : tagging.user? "alice" = some ⟨1, "alice"⟩ := rfl
  have rows : tagging.rowsMatching (({} : ExportRequest).query 1) = [MemoRow.ofMemo 1 tagged] := rfl
  have listed := exportedMemos_eq {} known rfl
  rw [rows, List.mergeSort_singleton, List.map_singleton, memo_tagged] at listed
  exact listed

theorem times_tagging : ∀ r ∈ tagging.memos, r.memo.HasTimes := by
  rw [rows_tagging, List.forall_mem_singleton, memo_tagged]
  exact hasTimes_tagged

/-! ## From one store to another -/

/-- The number of memos of an export. -/
theorem memoCount_ofSnapshot {request : ExportRequest} {exportedAt : Instant}
    (few : memos.length < 2 ^ 32) (format : String) :
    (ExportResponse.ofSnapshot (s.snapshotOf request exportedAt memos) format).memoCount =
      UInt32.ofNat memos.length := by
  have length : (s.snapshotOf request exportedAt memos).records.length = memos.length :=
    List.length_map ..
  rw [ExportResponse.ofSnapshot]
  dsimp only
  rw [length, Nat.min_eq_left (Nat.le_sub_one_of_lt few)]

/-- **Memos that are exported from one store and imported into another arrive as they were, but for
their tags.** None is refused, each of them becomes one new memo of the importing user, and if it is
the first import of that user, an export of the other store brings the same records in the same
order, with the tags of their texts. -/
theorem importAs_foreign_export (hs : source.Reached)
    (times : ∀ r ∈ source.memos, r.memo.HasTimes) {exporter : String} {exports : ExportRequest}
    {exportedAt : Instant} {response : ExportResponse} {skipped : List SkippedMemo}
    (h : source.exportAs exporter exports exportedAt = .ok (response, skipped))
    (listed : source.exportedMemos exporter exports = .ok memos) (ht : target.InUse)
    (hu : target.user? importer = some user)
    (free : ∀ m ∈ memos, target.rowByUid? m.uid = none) (hl : target.contentLimit = .ok limit)
    (short : ∀ m ∈ memos, byteLength m.content ≤ limit) (now : Int) :
    ∃ report rows t, target.importAs importer ⟨response.data, "", {}⟩ now = (.ok report, t) ∧
      (∀ elapsed, (report.response elapsed).errors = [] ∧
        (report.response elapsed).createdCount = UInt32.ofNat memos.length) ∧
      (memos.length < 2 ^ 32 → response.memoCount = UInt32.ofNat memos.length) ∧
      t = { target with
        memos := target.memos ++ rows
        lastMemo := target.lastMemo + memos.length } ∧
      rows.map MemoRow.memo =
        memos.mapIdx (fun i m => m.taken (target.lastMemo + i + 1) user.id) ∧
      ((∀ r ∈ target.memos, r.creatorId ≠ user.id) → exports.includeAttachments = false →
        exports.includeRelations = false → ∀ request : ExportRequest,
        resolveFormat request.format = .ok jsonFormat → (request.query user.id).filter = none →
        ∀ again : Instant, ∃ records response',
          Snapshot.decode response.data = .ok (.ofRecords exportedAt records) ∧
          t.exportAs importer request again = .ok (response', []) ∧
          Snapshot.decode response'.data =
            .ok (.ofRecords again (records.map MemoRecord.retagged))) := by
  obtain ⟨memos', listed', -, rfl⟩ := exists_memos_of_exportAs h
  obtain rfl : memos = memos' := Except.ok.inj (listed.symm.trans listed')
  obtain ⟨rows, rfl, inside, different, ordered⟩ :=
    exists_rows_of_exportedMemos hs.wellFormed listed
  have finite : ∀ m ∈ rows.map MemoRow.memo, m.payload.IsFinite :=
    List.forall_mem_map.2 fun r _ => Payload.isFinite_read r.payload
  have times' : ∀ m ∈ rows.map MemoRow.memo, m.HasTimes :=
    List.forall_mem_map.2 fun r hr => times r (inside r hr)
  have different' : ((rows.map MemoRow.memo).map (·.uid)).Nodup := by
    rwa [List.map_map]
  have ordered' : (rows.map MemoRow.memo).Pairwise fun m m' => m.createdTs ≤ m'.createdTs :=
    List.pairwise_map.2 (ordered.imp MemoRow.createdTs_le_of_isBefore)
  obtain ⟨report, run, length, created⟩ := importAs_taking source ht.wellFormed hl hu finite times'
    different' free short exports exportedAt now
  rw [← ExportResponse.data_ofSnapshot _ jsonFormat] at run
  refine ⟨report, _, _, run, fun elapsed => ?_, fun few => memoCount_ofSnapshot few jsonFormat, ?_,
    memo_rowsTaken target.lastMemo user.id finite, ?_⟩
  · rw [← length]
    exact ImportReport.response_created created elapsed
  · rw [taking_eq]
  · intro alone noAttachments noRelations request hf hq again
    have bare (m : Memo) : source.exportRecord exports m = MemoRecord.ofMemo m := by
      simp [exportRecord, noAttachments, noRelations, MemoRecord.ofMemo]
    have first := isFinite_snapshotOf (s := source) finite exports exportedAt
    refine ⟨_, _, ExportResponse.decode_data first jsonFormat,
      exportAs_taking ht.references hu alone finite ordered' request hf hq again, ?_⟩
    have same : ((rows.map MemoRow.memo).map (source.exportRecord exports)).map
        MemoRecord.retagged =
        (rows.map MemoRow.memo).map fun m => (MemoRecord.ofMemo m).retagged := by
      simp only [List.map_map, Function.comp_def, bare]
    rw [same]
    exact ExportResponse.decode_data (MemoRecord.isFinite_retagged finite again) jsonFormat

theorem importAs_foreign_export_tagged : ∃ response report rows t,
    tagging.exportAs "alice" {} .epoch = .ok (response, []) ∧
      welcoming.importAs "bob" ⟨response.data, "", {}⟩ 0 = (.ok report, t) ∧
      (report.response 0).createdCount = response.memoCount ∧
      t = { welcoming with memos := rows, lastMemo := 1 } ∧
      rows.map MemoRow.memo = [tagged.taken 1 1] := by
  have sent := exportAs_eq rfl exportedMemos_tagging .epoch
  generalize ExportResponse.ofSnapshot (tagging.snapshotOf {} .epoch [tagged]) jsonFormat =
    response at sent
  have known : welcoming.user? "bob" = some ⟨1, "bob"⟩ := rfl
  have short : byteLength tagged.content ≤ 8192 := by decide
  obtain ⟨report, rows, t, run, reported, counted, changed, read, -⟩ :=
    importAs_foreign_export reached_tagging times_tagging sent exportedMemos_tagging inUse_welcoming
      known (List.forall_mem_singleton.2 rfl) rfl (List.forall_mem_singleton.2 short) 0
  refine ⟨response, report, rows, t, sent, run, ?_, changed, read⟩
  rw [(reported 0).2, counted (by decide)]

/-- The tag is lost on the way. -/
theorem taking_loses_tags :
    (tagging.Reached ∧ ∀ r ∈ tagging.memos, r.memo.HasTimes) ∧
      (welcoming.InUse ∧ welcoming.user? "bob" = some ⟨1, "bob"⟩ ∧ welcoming.memos = [] ∧
        welcoming.contentLimit = .ok 8192) ∧
      tagging.exportedMemos "alice" {} = .ok [tagged] ∧ byteLength tagged.content ≤ 8192 ∧
      ∃ response report t response' records records',
        tagging.exportAs "alice" {} .epoch = .ok (response, []) ∧
        welcoming.importAs "bob" ⟨response.data, "", {}⟩ 0 = (.ok report, t) ∧
        t.exportAs "bob" {} .epoch = .ok (response', []) ∧
        Snapshot.decode response.data = .ok (.ofRecords .epoch records) ∧
        Snapshot.decode response'.data = .ok (.ofRecords .epoch records') ∧
        records' ≠ records := by
  have known : welcoming.user? "bob" = some ⟨1, "bob"⟩ := rfl
  have limit : welcoming.contentLimit = .ok 8192 := rfl
  have short : byteLength tagged.content ≤ 8192 := by decide
  have finite : ∀ m ∈ [tagged], m.payload.IsFinite := List.forall_mem_singleton.2 isFinite_tagged
  have alone : ∀ r ∈ welcoming.memos, r.creatorId ≠ 1 := fun r hr => absurd hr List.not_mem_nil
  have sent := exportAs_eq rfl exportedMemos_tagging .epoch
  obtain ⟨report, run, -, -⟩ := importAs_taking tagging inUse_welcoming.wellFormed limit known
    finite (List.forall_mem_singleton.2 hasTimes_tagged) (List.nodup_singleton _)
    (List.forall_mem_singleton.2 rfl) (List.forall_mem_singleton.2 short) {} .epoch 0
  have again := exportAs_taking inUse_welcoming.references known alone finite
    (List.pairwise_singleton _ _) {} rfl rfl .epoch
  have received := ExportResponse.decode_data (isFinite_snapshotOf (s := tagging) finite {} .epoch)
    jsonFormat
  have received' := ExportResponse.decode_data (MemoRecord.isFinite_retagged finite .epoch)
    jsonFormat
  have other : [(MemoRecord.ofMemo tagged).retagged] ≠ [MemoRecord.ofMemo tagged] := by
    decide
  rw [← ExportResponse.data_ofSnapshot _ jsonFormat] at run
  generalize ExportResponse.ofSnapshot (tagging.snapshotOf {} .epoch [tagged]) jsonFormat =
    response at sent received run
  exact ⟨⟨reached_tagging, times_tagging⟩, ⟨inUse_welcoming, known, rfl, limit⟩,
    exportedMemos_tagging, short, response, report, _, _, _, _, sent, run, again, received,
    received', other⟩

end Store

end MemoTransfer
