import MemoTransfer.Proofs.Transfer.Operations

/-!
# Importing one's own export

A store in use does not change when an export of it is imported into it again, whoever imports it
and whatever the options are (`Store.importAs_own_export`). Each record of the export was made of a
row that still has its text key: either the record is refused, or the row is changed to what the
record says, which is what the row says already.
-/

namespace MemoTransfer

open MemoTransfer.Calendar

namespace Store

variable {s : Store} {r : MemoRow} {owner : UserId} {options : ImportOptions} {now : Int}

theorem withPatch_eq_self {p : MemoPatch} (h : ∀ r ∈ s.memos, r.id = p.id → r.patch p = r) :
    s.withPatch p = s := by
  have same : (s.memos.map fun r => if r.id = p.id then r.patch p else r) = s.memos.map id := by
    refine List.map_congr_left fun r hr => ?_
    split
    · exact h r hr ‹_›
    · rfl
  rw [withPatch, same, List.map_id]

/-- The record of a sound row changes nothing. -/
theorem merged_exportRecord (hs : s.WellFormed) (hr : r ∈ s.memos) (sound : r.IsSound)
    (request : ExportRequest) (owner : UserId) (options : ImportOptions) (now : Int) :
    s.merged owner options now (s.exportRecord request r.memo) = s := by
  have found : s.rowByUid? (s.exportRecord request r.memo).uid = some r := hs.rowByUid?_eq hr
  unfold merged
  rw [found]
  split
  · rfl
  · refine withPatch_eq_self fun t ht e => ?_
    obtain rfl : t = r := hs.eq_of_id ht hr e
    exact sound.patch_toPatch_ofMemo options

/-- The snapshot of sound rows changes nothing. -/
theorem mergedAll_snapshotOf (hs : s.WellFormed) {rows : List MemoRow}
    (hr : ∀ r ∈ rows, r ∈ s.memos ∧ r.IsSound) (request : ExportRequest) (exportedAt : Instant)
    (owner : UserId) (options : ImportOptions) (now : Int) :
    s.mergedAll owner options now
      (s.snapshotOf request exportedAt (rows.map MemoRow.memo)).records = s := by
  unfold snapshotOf Snapshot.ofRecords
  induction rows with
  | nil => rfl
  | cons r rows ih =>
    rw [List.forall_mem_cons] at hr
    rw [List.map_cons, List.map_cons, mergedAll_cons, merged_exportRecord hs hr.1.1 hr.1.2]
    exact ih hr.2

/-- **Importing an export of a store into the same store changes nothing.** -/
theorem importAs_own_export (hs : s.InUse) {exporter importer : String} {exports : ExportRequest}
    {exportedAt : Instant} {response : ExportResponse} {skipped : List SkippedMemo}
    (h : s.exportAs exporter exports exportedAt = .ok (response, skipped)) (format : String)
    (options : ImportOptions) (now : Instant) :
    (s.importAs importer ⟨response.data, format, options⟩ now.seconds).2 = s := by
  obtain ⟨memos, listed, -, rfl⟩ := exists_memos_of_exportAs h
  obtain ⟨rows, rfl, hrows, -, -⟩ := exists_rows_of_exportedMemos hs.wellFormed listed
  have sound : ∀ r ∈ rows, r ∈ s.memos ∧ r.IsSound :=
    fun r hr => ⟨hrows r hr, hs.isSound r (hrows r hr)⟩
  have finite : (s.snapshotOf exports exportedAt (rows.map MemoRow.memo)).IsFinite := by
    refine isFinite_snapshotOf (List.forall_mem_map.2 fun r _ => ?_) exports exportedAt
    exact Payload.isFinite_read r.payload
  rw [ExportResponse.data_ofSnapshot]
  rcases importAs_snd hs.wellFormed importer _ now.seconds with
    unchanged | ⟨user, snapshot, -, brought, changed⟩
  · exact unchanged
  · rw [ImportRequest.snapshot_encode finite] at brought
    obtain ⟨-, -, brought⟩ := exists_ok_of_bind brought
    obtain ⟨-, -, brought⟩ := exists_ok_of_bind brought
    cases brought
    rw [changed]
    exact mergedAll_snapshotOf hs.wellFormed sound exports exportedAt user.id options now.seconds

/-- A memo of a user, and another user who imports it. -/
def reimported : Store :=
  [.ensureUser "alice", .ensureUser "bob",
    .addMemo ⟨1, "alice"⟩ "- [ ] water the #plants" .everyone true "a" .epoch].foldl
      AccountOperation.perform .empty

theorem importAs_own_export_overwriting : reimported.InUse ∧ ∃ response skipped,
    reimported.exportAs "alice" {} .epoch = .ok (response, skipped) ∧
      (reimported.importAs "bob" ⟨response.data, "", { overwriteExisting := true }⟩ 60).2 =
        reimported := by
  have used : reimported.InUse := InUse.empty.foldl _
  have known : reimported.user? "alice" = some ⟨1, "alice"⟩ := by rfl
  have answer := exportAs_eq rfl (exportedMemos_eq {} known rfl) .epoch
  have later : (Instant.ofUnix 60).seconds = 60 := rfl
  refine ⟨used, _, _, answer, ?_⟩
  rw [← later]
  exact importAs_own_export used answer "" { overwriteExisting := true } (.ofUnix 60)

end Store

end MemoTransfer
