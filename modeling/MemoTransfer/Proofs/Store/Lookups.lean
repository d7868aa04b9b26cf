import MemoTransfer.Proofs.Store.Rows
import MemoTransfer.Store.Select

/-!
# Listing and finding memos

Whatever a query asks for, the memos that it lists are those of different rows, in the order of
their creation and then of their numbers (`exists_rows_of_listMemos`). A query without a filter
never fails (`listMemos_eq`), and the one for a text key or a number finds the row with it
(`getMemo_byUid`, `getMemo_byId`).
-/

namespace MemoTransfer

open MemoTransfer.Query

/-! ## The order of rows -/

theorem MemoRow.isBefore_iff {r t : MemoRow} :
    r.isBefore t = true ↔ r.createdTs < t.createdTs ∨ r.createdTs = t.createdTs ∧ r.id ≤ t.id := by
  simp [MemoRow.isBefore]

theorem MemoRow.createdTs_le_of_isBefore {r t : MemoRow} (h : r.isBefore t = true) :
    r.createdTs ≤ t.createdTs := by
  rcases MemoRow.isBefore_iff.1 h with h | ⟨h, -⟩
  · exact Int.le_of_lt h
  · exact Int.le_of_eq h

theorem MemoRow.isBefore_trans (r t u : MemoRow) (h : r.isBefore t = true)
    (h' : t.isBefore u = true) : r.isBefore u = true := by
  rw [MemoRow.isBefore_iff] at h h' ⊢
  rcases h with h | ⟨h, hid⟩ <;> rcases h' with h' | ⟨h', hid'⟩
  · exact .inl (Int.lt_trans h h')
  · exact .inl (h' ▸ h)
  · exact .inl (h ▸ h')
  · exact .inr ⟨h.trans h', Int.le_trans hid hid'⟩

theorem MemoRow.isBefore_total (r t : MemoRow) : (r.isBefore t || t.isBefore r) = true := by
  rw [Bool.or_eq_true, MemoRow.isBefore_iff, MemoRow.isBefore_iff]
  rcases Int.lt_trichotomy r.createdTs t.createdTs with h | h | h
  · exact .inl (.inl h)
  · rcases Int.le_total r.id t.id with hid | hid
    · exact .inl (.inr ⟨h, hid⟩)
    · exact .inr (.inr ⟨h.symm, hid⟩)
  · exact .inr (.inl h)

/-- Rows that come before each other have the same number. -/
theorem MemoRow.id_eq_of_isBefore {r t : MemoRow} (h : r.isBefore t = true)
    (h' : t.isBefore r = true) : r.id = t.id := by
  rcases MemoRow.isBefore_iff.1 h with before | ⟨same, le⟩
  · exact absurd (MemoRow.createdTs_le_of_isBefore h') (Int.not_le.2 before)
  · rcases MemoRow.isBefore_iff.1 h' with before | ⟨-, le'⟩
    · exact absurd same (Int.ne_of_gt before)
    · exact Int.le_antisymm le le'

/-! ## Queries without a filter -/

/-- Without a filter a query has few parts. -/
theorem MemoQuery.isTooDeep_nil (q : MemoQuery) : q.isTooDeep [] = false := by
  obtain ⟨id, uid, creatorId, rowStatus, filter, excludeComments⟩ := q
  cases id <;> cases uid <;> cases creatorId <;> cases rowStatus <;> cases excludeComments <;> rfl

theorem rowsWithTags?_nil (rows : List MemoRow) : rowsWithTags? [] rows = some rows := by
  induction rows with
  | nil => rfl
  | cons r rows ih =>
    rw [rowsWithTags?, ih]
    rfl

/-- Only rows that were there come out of the look at their tags. -/
theorem sublist_of_rowsWithTags? {terms : List Term} {rows rows' : List MemoRow}
    (h : rowsWithTags? terms rows = some rows') : rows'.Sublist rows := by
  induction rows generalizing rows' with
  | nil =>
    cases h
    exact List.Sublist.slnil
  | cons r rows ih =>
    rw [rowsWithTags?] at h
    obtain ⟨tags, htags, h⟩ := Option.bind_eq_some_iff.1 h
    obtain ⟨rest, hrest, h⟩ := Option.bind_eq_some_iff.1 h
    split at h
    · cases h
      exact (ih hrest).cons_cons r
    · cases h
      exact (ih hrest).cons r

namespace Store

variable {s : Store}

/-- The rows that match a query without a filter. -/
def rowsMatching (s : Store) (q : MemoQuery) : List MemoRow :=
  s.memos.filter fun r => r.matches q && !(q.excludeComments && s.isComment r.id)

theorem listMemos_eq {q : MemoQuery} (h : q.filter = none) :
    s.listMemos q = .ok (((s.rowsMatching q).mergeSort MemoRow.isBefore).map MemoRow.memo) := by
  have rows : (s.memos.filter fun r => r.matches q && ([] : List Term).all r.satisfies).filter
      (fun r => !(q.excludeComments && s.isComment r.id)) = s.rowsMatching q := by
    rw [List.filter_filter, rowsMatching]
    congr 1
    funext r
    rw [List.all_nil, Bool.and_true, Bool.and_comm]
  have selected : s.select q [] = .ok ((s.rowsMatching q).mergeSort MemoRow.isBefore) := by
    unfold select
    rw [q.isTooDeep_nil]
    simp only [List.takeWhile_nil, rows, rowsWithTags?_nil]
    rfl
  unfold listMemos
  rw [h]
  show (s.select q [] >>= fun (rows : List MemoRow) => pure (rows.map MemoRow.memo : List Memo)) = _
  rw [selected]
  rfl

/-- The rows that a query selects are some of those that match it, in another order. -/
theorem exists_sublist_of_select {q : MemoQuery} {terms : List Term} {rows : List MemoRow}
    (h : s.select q terms = .ok rows) :
    ∃ kept : List MemoRow, kept.Sublist (s.memos.filter (·.matches q)) ∧
      rows = kept.mergeSort MemoRow.isBefore := by
  have matching (tried : List Term) : (s.memos.filter fun r => r.matches q &&
      tried.all r.satisfies).Sublist (s.memos.filter (·.matches q)) := by
    refine List.monotone_filter_right _ fun r hr => ?_
    exact (Bool.and_eq_true_iff.1 hr).1
  unfold select at h
  split at h
  · obtain ⟨-, h, -⟩ := exists_ok_of_bind h
    cases h
  · dsimp only at h
    split at h
    · obtain ⟨-, h, -⟩ := exists_ok_of_bind h
      cases h
    · split at h
      · rename_i kept hkept
        cases h
        have sub := sublist_of_rowsWithTags? hkept
        exact ⟨kept, sub.trans (List.filter_sublist.trans (matching _)), rfl⟩
      · cases h

/-- A query that succeeds lists different rows in order. -/
theorem exists_rows_of_listMemos (hs : s.WellFormed) {q : MemoQuery} {memos : List Memo}
    (h : s.listMemos q = .ok memos) :
    ∃ rows : List MemoRow, memos = rows.map MemoRow.memo ∧ (∀ r ∈ rows, r ∈ s.memos) ∧
      (rows.map (·.uid)).Nodup ∧ rows.Pairwise fun r t => r.isBefore t = true := by
  unfold listMemos at h
  obtain ⟨terms, -, h⟩ := exists_ok_of_bind h
  obtain ⟨rows, hrows, h⟩ := exists_ok_of_bind h
  cases h
  obtain ⟨kept, sub, rfl⟩ := exists_sublist_of_select hrows
  replace sub := sub.trans List.filter_sublist
  have perm := List.mergeSort_perm kept MemoRow.isBefore
  refine ⟨_, rfl, fun r hr => sub.subset (perm.subset hr), ?_, ?_⟩
  · exact ((perm.map _).nodup_iff).2 (hs.uids.sublist (sub.map _))
  · exact List.pairwise_mergeSort MemoRow.isBefore_trans MemoRow.isBefore_total kept

/-- **The query for a text key finds the row with that key.** -/
theorem getMemo_byUid (hs : s.WellFormed) (uid : String) :
    s.getMemo (.byUid uid) = .ok ((s.rowByUid? uid).map MemoRow.memo) := by
  have matching : s.rowsMatching (.byUid uid) = s.memos.filter (·.uid = uid) := by
    refine List.filter_congr fun r _ => ?_
    simp [MemoRow.matches, MemoQuery.byUid, eq_comm]
  unfold getMemo
  rw [listMemos_eq rfl, matching, hs.filter_uid]
  cases s.rowByUid? uid with
  | none => simp [Except.map]
  | some r => simp [Except.map]

/-- **The query for a number finds the row with that number.** -/
theorem getMemo_byId (hs : s.WellFormed) {r : MemoRow} (hr : r ∈ s.memos) :
    s.getMemo (.byId r.id) = .ok (some r.memo) := by
  have matching : s.rowsMatching (.byId r.id) = s.memos.filter (·.id = r.id) := by
    refine List.filter_congr fun t _ => ?_
    simp [MemoRow.matches, MemoQuery.byId, eq_comm]
  unfold getMemo
  rw [listMemos_eq rfl, matching, hs.filter_id hr]
  simp [Except.map]

end Store

end MemoTransfer
