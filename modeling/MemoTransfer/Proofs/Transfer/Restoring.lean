import MemoTransfer.Proofs.Transfer.Verdicts

/-!
# What an overwriting import restores

After an import that keeps the times of its records, the memo of a record that was reported as
updated exports as this record, but for its display time: a record without one leaves that of the
memo in place (`Store.importAs_restores`). So a memo that never had a display time is restored in
full, while one that had a display time when it was written over keeps it, even if the snapshot
has none for it (`Store.importAs_keeps_display`).
-/

namespace MemoTransfer

open MemoTransfer.Calendar

/-! ## The record of a memo that is written over -/

theorem Calendar.Instant.ofUnix_seconds {t : Instant} (h : t.nanos = 0) :
    Instant.ofUnix t.seconds = t := by
  rw [Instant.ofUnix, ← h, Instant.ofParts?_seconds_nanos]
  rfl

/-- The times of the record are whole seconds. -/
structure MemoRecord.HasWholeTimes (r : MemoRecord) : Prop where
  created : r.createdAt.nanos = 0
  updated : r.updatedAt.nanos = 0
  displayed : ∀ t ∈ r.displayTime, t.nanos = 0

/-- **A memo that a record was written over exports as this record**, under its own text key, and
with its own display time if the record has none. -/
theorem MemoRecord.ofMemo_patch_toPatch {r : MemoRecord} (hf : r.IsFinite) (whole : r.HasWholeTimes)
    (known : (Visibility.ofName? r.visibility).isSome = true) {options : ImportOptions}
    (keep : options.preserveTimestamps = true) (t : MemoRow) :
    ofMemo (t.patch (r.toPatch t.id options)).memo =
      { r with
        uid := t.uid
        displayTime := r.displayTime.or (ofMemo t.memo).displayTime
        attachments := []
        relations := [] } := by
  obtain ⟨v, named⟩ := Option.isSome_iff_exists.1 known
  have visible := Visibility.name_of_ofName? named
  have created := Instant.ofUnix_seconds whole.created
  have updated := Instant.ofUnix_seconds whole.updated
  have displayed (time : Instant) (h : r.displayTime = some time) :
      Instant.ofUnix time.seconds = time := Instant.ofUnix_seconds (whole.displayed time h)
  have written : (t.overwritten options ([] ++ [r])).memo = _ := t.memo_overwritten [] hf
  rw [List.nil_append, MemoRow.overwritten_cons, MemoRow.overwritten_nil] at written
  rw [written, ofMemo, named, keep]
  cases h : r.displayTime <;> simp_all [lastDisplay, ofMemo, MemoRow.memo]

namespace Store

variable {s : Store} {owner : UserId} {options : ImportOptions} {now : Int} {r : MemoRecord}
  {records : List MemoRecord} {i : ℕ} {v : Verdict}

/-! ## The memo of a record that was reported as updated -/

/-- The other records have other text keys. -/
theorem uid_ne_of_distinct (distinct : (records.map (·.uid)).Nodup) (hr : records[i]? = some r) :
    ∀ q ∈ records.take i ++ records.drop (i + 1), q.uid ≠ r.uid := by
  obtain ⟨inside, rfl⟩ := List.getElem?_eq_some_iff.1 hr
  have split : records = records.take i ++ records[i] :: records.drop (i + 1) := by
    rw [List.getElem_cons_drop, List.take_append_drop]
  rw [split, List.map_append, List.map_cons, List.nodup_middle, List.nodup_cons,
    ← List.map_append] at distinct
  intro q hq same
  exact distinct.1 (List.mem_map.2 ⟨q, hq, same⟩)

/-- If no text key comes twice, the row that such a record was written over was there from the
beginning, and stays as it was written. -/
theorem rowByUid?_mergedAll_of_updated (hs : s.WellFormed)
    (distinct : (records.map (·.uid)).Nodup) (hr : records[i]? = some r)
    (hv : (s.verdicts owner options now records)[i]? = some v)
    (updated : v.disposition? = some .updated) :
    ∃ t, s.rowByUid? r.uid = some t ∧ (s.mergedAll owner options now records).rowByUid? r.uid =
      some (t.patch (r.toPatch t.id options)) := by
  have others := uid_ne_of_distinct distinct hr
  have before : ∀ q ∈ records.take i, q.uid ≠ r.uid := fun q h =>
    others q (List.mem_append_left _ h)
  have after : ∀ q ∈ records.drop (i + 1), q.uid ≠ r.uid := fun q h =>
    others q (List.mem_append_right _ h)
  have reached := hs.mergedAll owner options now (records.take i)
  rw [getElem?_verdicts, hr] at hv
  cases hv
  obtain ⟨t, stored, written⟩ := of_disposition?_updated updated
  have same : t.id = (r.toPatch t.id options).id := rfl
  refine ⟨t, ?_, ?_⟩
  · rw [← stored, rowByUid?_mergedAll_of_ne hs before]
  · rw [mergedAll_split s owner options now hr,
      rowByUid?_mergedAll_of_ne (reached.merged owner options now r) after, written,
      rowByUid?_withPatch, stored, Option.map_some, if_pos same]

variable {username : String} {user : User} {request : ImportRequest} {snapshot : Snapshot}

/-- **An import restores the records that it reports as updated**, but for a display time that a
record does not have: then the memo keeps its own. -/
theorem importAs_restores (hs : s.WellFormed) (hu : s.user? username = some user)
    (hr : request.snapshot = .ok snapshot) (distinct : (snapshot.records.map (·.uid)).Nodup)
    (keep : request.options.preserveTimestamps = true) (now : Int) :
    ∃ report t, s.importAs username request now = (.ok report, t) ∧
      report.verdicts.length = snapshot.records.length ∧
      ∀ (i : ℕ) (r : MemoRecord) (v : Verdict), snapshot.records[i]? = some r →
        report.verdicts[i]? = some v → v.disposition? = some .updated → r.HasWholeTimes →
        (Visibility.ofName? r.visibility).isSome = true →
        ∃ old new, s.getMemo (.byUid r.uid) = .ok (some old) ∧
          t.getMemo (.byUid r.uid) = .ok (some new) ∧
          MemoRecord.ofMemo new =
            { r with
              displayTime := r.displayTime.or (MemoRecord.ofMemo old).displayTime
              attachments := []
              relations := [] } := by
  refine ⟨_, _, importAs_eq hs hu hr now, s.length_verdicts user.id request.options now _, ?_⟩
  intro i r v inside reported updated whole known
  obtain ⟨row, stored, written⟩ :=
    rowByUid?_mergedAll_of_updated hs distinct inside reported updated
  have finite : r.IsFinite := request.isFinite_snapshot hr r (List.mem_of_getElem? inside)
  have reached := hs.mergedAll user.id request.options now snapshot.records
  refine ⟨row.memo, (row.patch (r.toPatch row.id request.options)).memo, ?_, ?_, ?_⟩
  · rw [getMemo_byUid hs, stored, Option.map_some]
  · rw [getMemo_byUid reached, written, Option.map_some]
  · rw [MemoRecord.ofMemo_patch_toPatch finite whole known keep, (mem_of_rowByUid? stored).2]

/-- A store with a memo that is displayed under a time of its own. -/
def dated : Store :=
  lone.withRow ⟨0, "a", 1, .normal, "old", .ownerOnly, false, .empty, 0, 0, some 60⟩

/-- A record of the same memo without a display time. -/
def undated : MemoRecord :=
  ⟨"a", "new", "PUBLIC", true, .epoch, .epoch, none, ["kept"], none, [], []⟩

/-- The request that writes the record over the memo. -/
def overwriting : ImportRequest :=
  ⟨(Snapshot.ofRecords .epoch [undated]).encode, "", { overwriteExisting := true }⟩

theorem wellFormed_dated : dated.WellFormed :=
  (WellFormed.empty.of_memos (t := lone) rfl rfl).withRow rfl

theorem snapshot_overwriting : overwriting.snapshot = .ok (.ofRecords .epoch [undated]) := by
  have finite : (Snapshot.ofRecords .epoch [undated]).IsFinite := by decide
  exact ImportRequest.snapshot_encode finite "" _

theorem hasWholeTimes_undated : undated.HasWholeTimes := ⟨rfl, rfl, by simp [undated]⟩

theorem importAs_dated :
    dated.importAs "alice" overwriting 60 = (.ok ⟨[.ok (⟨.updated, 0, 0⟩, [])], false⟩,
      dated.mergedAll 1 overwriting.options 60 [undated]) := by
  have known : dated.user? "alice" = some ⟨1, "alice"⟩ := by rfl
  exact importAs_eq wellFormed_dated known snapshot_overwriting 60

theorem getMemo_dated {old : Memo} (h : dated.getMemo (.byUid "a") = .ok (some old)) :
    old.displayTs = some 60 := by
  have stored : dated.rowByUid? "a" = dated.memos.head? := by rfl
  rw [getMemo_byUid wellFormed_dated, stored] at h
  cases h
  rfl

theorem importAs_restores_dated : ∃ report t new,
    dated.importAs "alice" overwriting 60 = (.ok report, t) ∧
      t.getMemo (.byUid "a") = .ok (some new) ∧
      MemoRecord.ofMemo new = { undated with displayTime := some (.ofUnix 60) } := by
  have known : dated.user? "alice" = some ⟨1, "alice"⟩ := by rfl
  obtain ⟨report, t, h, -, restored⟩ := importAs_restores wellFormed_dated known
    snapshot_overwriting (List.nodup_singleton _) rfl 60
  have run := h.symm.trans importAs_dated
  simp only [Prod.mk.injEq, Except.ok.injEq] at run
  obtain ⟨rfl, rfl⟩ := run
  obtain ⟨old, new, stored, written, e⟩ :=
    restored 0 undated _ rfl rfl rfl hasWholeTimes_undated rfl
  refine ⟨_, _, new, h, written, ?_⟩
  rw [e, MemoRecord.ofMemo, getMemo_dated stored]
  rfl

theorem importAs_keeps_display : ∃ report t new,
    overwriting.snapshot = .ok (.ofRecords .epoch [undated]) ∧ undated.HasWholeTimes ∧
      dated.importAs "alice" overwriting 60 = (.ok report, t) ∧
      report.verdicts.map Verdict.disposition? = [some .updated] ∧
      t.getMemo (.byUid undated.uid) = .ok (some new) ∧
      (MemoRecord.ofMemo new).displayTime ≠ undated.displayTime := by
  have display : ((dated.mergedAll 1 overwriting.options 60 [undated]).rowByUid? "a").map
      (·.displayTs) = some (some 60) := by rfl
  obtain ⟨row, written, kept⟩ := Option.map_eq_some_iff.1 display
  have reached := wellFormed_dated.mergedAll 1 overwriting.options 60 [undated]
  refine ⟨_, _, row.memo, snapshot_overwriting, hasWholeTimes_undated, importAs_dated, rfl, ?_, ?_⟩
  · rw [getMemo_byUid reached, show undated.uid = "a" from rfl, written, Option.map_some]
  · simp [MemoRecord.ofMemo, MemoRow.memo, kept, undated]

end Store

end MemoTransfer
