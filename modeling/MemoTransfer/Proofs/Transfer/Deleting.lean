import MemoTransfer.Proofs.Store.Removal
import MemoTransfer.Proofs.Transfer.Narrowing

/-!
# Exports after a memo is deleted

When a memo is deleted, an export that succeeded before still succeeds, and brings the same records
in the same order, without the one of the memo and without references to it
(`Store.exportAs_deleteMemo`). What is new are the memos that the request asks for and that were
comments on nothing but the deleted memo: they are comments no more (`Store.ExportsWithout`).
-/

namespace MemoTransfer

open MemoTransfer.Calendar MemoTransfer.Query

/-- The record without references to the text key. -/
def MemoRecord.unreferring (r : MemoRecord) (gone : Option String) : MemoRecord :=
  { r with relations := r.relations.filter fun ref => some ref.relatedUid ≠ gone }

/-- The request asks for the memo of the row, unless it is a comment. -/
structure ExportRequest.AsksFor (request : ExportRequest) (user : User) (terms : List Term)
    (r : MemoRow) : Prop where
  owned : r.memo.creatorId = user.id
  active : request.excludeArchived = true → r.memo.rowStatus = .normal
  /-- Every term of the filter holds of the row, and so do those that are tags of its payload. -/
  terms : ∀ t ∈ terms, r.satisfies t = true ∧ r.hasTag? t = some true

namespace Store

variable {s : Store} {id : MemoId} {user : User} {request : ExportRequest} {terms : List Term}
  {q : MemoQuery} {written : MemoRow → Memo} {r : MemoRow}

/-! ## Rows -/

/-- The rows of an export are those that its request asks for, but for comments. -/
theorem mem_rowsFor_query_iff (hs : ∀ r ∈ s.memos, r = .ofMemo r.id (written r)) :
    r ∈ s.rowsFor (request.query user.id) written terms ↔
      r ∈ s.memos ∧ request.AsksFor user terms r ∧ s.isComment r.id = false := by
  rw [mem_rowsFor_iff, rowsMatching, List.mem_filter, List.all_eq_true]
  constructor
  · rintro ⟨⟨hr, matching⟩, holds⟩
    rw [Bool.and_eq_true, matches_query_iff ⟨_, hs r hr⟩, Bool.not_eq_true'] at matching
    obtain ⟨⟨owned, active⟩, original⟩ := matching
    exact ⟨hr, ⟨owned, active, fun t ht =>
      (holdsOf_iff (hs r hr)).1 (of_decide_eq_true (holds t ht))⟩, original⟩
  · rintro ⟨hr, asked, original⟩
    refine ⟨⟨hr, ?_⟩, fun t ht => decide_eq_true ((holdsOf_iff (hs r hr)).2 (asked.terms t ht))⟩
    rw [Bool.and_eq_true, matches_query_iff ⟨_, hs r hr⟩, Bool.not_eq_true']
    exact ⟨⟨asked.owned, asked.active⟩, original⟩

/-- Another memo that matches a query still matches it. -/
theorem mem_rowsMatching_deleteMemo (hr : r ∈ s.rowsMatching q) (apart : r.id ≠ id) :
    r ∈ (s.deleteMemo id).rowsMatching q := by
  obtain ⟨stored, matching⟩ := List.mem_filter.1 hr
  refine List.mem_filter.2 ⟨mem_memos_deleteMemo.2 ⟨stored, apart⟩, ?_⟩
  rw [Bool.and_eq_true, Bool.not_eq_true', Bool.and_eq_false_iff] at matching ⊢
  refine ⟨matching.1, matching.2.imp_right fun original => ?_⟩
  exact Bool.eq_false_iff.2 fun still => by simp [isComment_of_deleteMemo still] at original

/-- **The rows that were selected before**, but for the one of the memo, are those among the rows
that are selected afterwards. -/
theorem filter_rowsFor_deleteMemo (hs : s.WellFormed) :
    ((s.deleteMemo id).rowsFor q written terms).filter (· ∈ s.rowsFor q written terms) =
      (s.rowsFor q written terms).filter (·.id ≠ id) := by
  -- both are in order, and an order of rows with different numbers leaves no choice
  refine hs.eq_of_perm (fun r hr => ?_) (pairwise_rowsFor.sublist List.filter_sublist)
    (pairwise_rowsFor.sublist List.filter_sublist) ((List.perm_ext_iff_of_nodup
      ((nodup_id_rowsFor (hs.deleteMemo id)).of_map.sublist List.filter_sublist)
      ((nodup_id_rowsFor hs).of_map.sublist List.filter_sublist)).2 fun r => ?_)
  · exact mem_memos_of_mem_rowsFor (of_decide_eq_true (List.mem_filter.1 hr).2)
  · simp only [List.mem_filter, decide_eq_true_eq]
    constructor
    · rintro ⟨after, before⟩
      exact ⟨before, (mem_memos_deleteMemo.1 (mem_memos_of_mem_rowsFor after)).2⟩
    · rintro ⟨before, apart⟩
      obtain ⟨matching, holds⟩ := mem_rowsFor_iff.1 before
      exact ⟨mem_rowsFor_iff.2 ⟨mem_rowsMatching_deleteMemo matching apart, holds⟩, before⟩

/-! ## Records -/

/-- The text key of the memo with the number. -/
def uidOf? (s : Store) (id : MemoId) : Option String :=
  (s.memos.find? (·.id = id)).map (·.uid)

/-- A memo has the text key of another one just if it is the same memo. -/
theorem uid_eq_uidOf?_iff (hs : s.WellFormed) (hr : r ∈ s.memos) :
    some r.uid = s.uidOf? id ↔ r.id = id := by
  constructor
  · intro same
    obtain ⟨r', found, e⟩ := Option.map_eq_some_iff.1 same.symm
    have number : r'.id = id := by simpa using List.find?_some found
    rw [← hs.eq_of_uid (List.mem_of_find?_eq_some found) hr e, number]
  · rintro rfl
    rw [uidOf?, hs.find?_id hr]
    rfl

/-- The references that are left of a memo are those to other memos. -/
theorem filterMap_relationRef?_deleteMemo (hs : s.WellFormed) (relations : List Relation) :
    (relations.filter (·.relatedId ≠ id)).filterMap (s.deleteMemo id).relationRef? =
      (relations.filterMap s.relationRef?).filter fun ref => some ref.relatedUid ≠ s.uidOf? id := by
  rw [List.filterMap_filter, List.filter_filterMap]
  refine List.filterMap_congr fun relation _ => ?_
  rw [relationRef?_eq hs, relationRef?_eq (hs.deleteMemo id)]
  have named : ∀ target, s.memos.find? (·.id = relation.relatedId) = some target →
      (some target.uid = s.uidOf? id ↔ relation.relatedId = id) := by
    intro target found
    have number : target.id = relation.relatedId := by simpa using List.find?_some found
    rw [← number]
    exact uid_eq_uidOf?_iff hs (List.mem_of_find?_eq_some found)
  by_cases gone : relation.relatedId = id
  · cases found : s.memos.find? (·.id = relation.relatedId) with
    | none => simp [gone]
    | some target => simp [gone, Option.filter_some, (named target found).2 gone]
  · rw [find?_deleteMemo gone]
    cases found : s.memos.find? (·.id = relation.relatedId) with
    | none => simp
    | some target => simp [gone, Option.filter_some, mt (named target found).1 gone]

/-- **The record of another memo** is as before, without references to the deleted one. -/
theorem exportRecord_deleteMemo (hs : s.WellFormed) {m : Memo} (apart : m.id ≠ id) :
    (s.deleteMemo id).exportRecord request m =
      (s.exportRecord request m).unreferring (s.uidOf? id) := by
  rw [exportRecord, exportRecord, MemoRecord.unreferring, attachmentsOf_deleteMemo apart,
    relationsOf_deleteMemo apart, filterMap_relationRef?_deleteMemo hs]
  cases request.includeRelations <;> rfl

/-- The records of the rows that an export selects. -/
def recordsFor (s : Store) (written : MemoRow → Memo) (user : User) (request : ExportRequest)
    (terms : List Term) : List MemoRecord :=
  (s.rowsFor (request.query user.id) written terms).map fun r => s.exportRecord request r.memo

/-- Among them are those with the text keys of the rows. -/
theorem uid_mem_recordsFor_iff (hs : s.WellFormed) (hr : r ∈ s.memos) :
    r.uid ∈ (s.recordsFor written user request terms).map (·.uid) ↔
      r ∈ s.rowsFor (request.query user.id) written terms := by
  rw [recordsFor, List.map_map, List.mem_map]
  constructor
  · rintro ⟨r', among, same⟩
    rwa [← hs.eq_of_uid (mem_memos_of_mem_rowsFor among) hr same]
  · exact fun among => ⟨r, among, rfl⟩

/-! ## Exports -/

/-- What an export brings after the memo with the number is deleted, if it brought the first records
before. -/
structure ExportsWithout (s : Store) (id : MemoId) (user : User) (request : ExportRequest)
    (terms : List Term) (before after : List MemoRecord) : Prop where
  /-- What came before comes again in the same order, but for the record of the memo and for the
  references to it. -/
  kept : after.filter (fun record => record.uid ∈ before.map (·.uid)) =
    (before.filter fun record => some record.uid ≠ s.uidOf? id).map (·.unreferring (s.uidOf? id))
  /-- What is new are the other memos that are asked for and were comments, on this memo alone. -/
  added : ∀ r ∈ s.memos, r.id ≠ id →
    (r.uid ∈ after.map (·.uid) ∧ r.uid ∉ before.map (·.uid) ↔ request.AsksFor user terms r ∧
      (∃ c ∈ s.relations, c.memoId = r.id ∧ c.kind = .comment) ∧
      ∀ c ∈ s.relations, c.memoId = r.id → c.kind = .comment → c.relatedId = id)
  /-- All records are those of memos that are left, in the order of their creation and then of their
  numbers. -/
  ordered : ∃ memos : List Memo, memos.Pairwise Memo.Precedes ∧
    (∀ m ∈ memos, ∃ r ∈ (s.deleteMemo id).memos, r.memo = m) ∧
    List.Forall₂ ((s.deleteMemo id).IsRecordOf request) memos after

theorem kept_recordsFor (hs : s.WellFormed) :
    ((s.deleteMemo id).recordsFor written user request terms).filter
        (fun record => record.uid ∈ (s.recordsFor written user request terms).map (·.uid)) =
      ((s.recordsFor written user request terms).filter
        fun record => some record.uid ≠ s.uidOf? id).map (·.unreferring (s.uidOf? id)) := by
  have again : ((s.deleteMemo id).recordsFor written user request terms).filter
        (fun record => record.uid ∈ (s.recordsFor written user request terms).map (·.uid)) =
      (((s.deleteMemo id).rowsFor (request.query user.id) written terms).filter
        (· ∈ s.rowsFor (request.query user.id) written terms)).map
          fun r => (s.deleteMemo id).exportRecord request r.memo :=
    List.filter_map.trans (congrArg _ (List.filter_congr fun r hr => decide_eq_decide.2
      (uid_mem_recordsFor_iff hs (mem_memos_deleteMemo.1 (mem_memos_of_mem_rowsFor hr)).1)))
  have others : (s.recordsFor written user request terms).filter
        (fun record => some record.uid ≠ s.uidOf? id) =
      ((s.rowsFor (request.query user.id) written terms).filter (·.id ≠ id)).map
        fun r => s.exportRecord request r.memo :=
    List.filter_map.trans (congrArg _ (List.filter_congr fun r hr => decide_eq_decide.2
      (not_congr (uid_eq_uidOf?_iff hs (mem_memos_of_mem_rowsFor hr)))))
  rw [again, others, filter_rowsFor_deleteMemo hs, List.map_map]
  refine List.map_congr_left fun r hr => ?_
  exact exportRecord_deleteMemo hs (of_decide_eq_true (List.mem_filter.1 hr).2)

theorem added_recordsFor_iff (hs : s.WellFormed)
    (made : ∀ r ∈ s.memos, r = .ofMemo r.id (written r)) (hr : r ∈ s.memos) (apart : r.id ≠ id) :
    r.uid ∈ ((s.deleteMemo id).recordsFor written user request terms).map (·.uid) ∧
        r.uid ∉ (s.recordsFor written user request terms).map (·.uid) ↔
      request.AsksFor user terms r ∧
        (∃ c ∈ s.relations, c.memoId = r.id ∧ c.kind = .comment) ∧
        ∀ c ∈ s.relations, c.memoId = r.id → c.kind = .comment → c.relatedId = id := by
  have comment : s.isComment r.id = true ↔
      ∃ c ∈ s.relations, c.memoId = r.id ∧ c.kind = .comment := by
    simp [isComment, relationsOf]
  have left : r ∈ (s.deleteMemo id).memos := mem_memos_deleteMemo.2 ⟨hr, apart⟩
  rw [uid_mem_recordsFor_iff (hs.deleteMemo id) left, uid_mem_recordsFor_iff hs hr,
    mem_rowsFor_query_iff made,
    mem_rowsFor_query_iff fun r hr => made r (mem_memos_deleteMemo.1 hr).1,
    isComment_deleteMemo_eq_false_iff apart, ← comment]
  cases s.isComment r.id <;> simp +contextual [hr, left]

/-- **What is selected before and after a memo is deleted** differs as it should. -/
theorem exportsWithout (hs : s.Consistent) (made : ∀ r ∈ s.memos, r = .ofMemo r.id (written r))
    (id : MemoId) (user : User) (request : ExportRequest) (terms : List Term) :
    s.ExportsWithout id user request terms (s.recordsFor written user request terms)
      ((s.deleteMemo id).recordsFor written user request terms) := by
  have hs' := hs.deleteMemo id
  refine ⟨kept_recordsFor hs.wellFormed,
    fun r hr apart => added_recordsFor_iff hs.wellFormed made hr apart, ?_⟩
  refine ⟨((s.deleteMemo id).rowsFor (request.query user.id) written terms).map MemoRow.memo,
    pairwise_precedes (nodup_id_rowsFor hs'.wellFormed) pairwise_rowsFor, fun m hm => ?_, ?_⟩
  · obtain ⟨r, hr, e⟩ := List.mem_map.1 hm
    exact ⟨r, mem_memos_of_mem_rowsFor hr, e⟩
  · rw [recordsFor, List.forall₂_map_left_iff, List.forall₂_map_right_iff]
    exact List.forall₂_same.2 fun r _ => isRecordOf_exportRecord hs' request r.memo

/-- **An export goes on after a memo is deleted**, at whatever time it is asked for. -/
theorem exportAs_deleteMemo (hs : s.Consistent) (made : ∀ r ∈ s.memos, r.IsMade)
    {username : String} {exportedAt : Instant} {response : ExportResponse}
    {skipped : List SkippedMemo}
    (h : s.exportAs username request exportedAt = .ok (response, skipped)) (id : MemoId)
    (later : Instant) :
    ∃ user terms response' before after, s.user? username = some user ∧
      request.terms = .ok terms ∧
      (s.deleteMemo id).exportAs username request later = .ok (response', []) ∧
      Snapshot.decode response.data = .ok before ∧ Snapshot.decode response'.data = .ok after ∧
      s.ExportsWithout id user request terms before.records after.records := by
  obtain ⟨user, terms, rows, known, parsed, selected, rfl⟩ := exists_select_of_exportAs h
  have : Nonempty Memo := ⟨draft⟩
  choose! written hwritten using made
  have left : ∀ r ∈ (s.deleteMemo id).memos, r = .ofMemo r.id (written r) :=
    fun r hr => hwritten r (mem_memos_deleteMemo.1 hr).1
  have further : ∃ rows, (s.deleteMemo id).select (request.query user.id) terms = .ok rows :=
    exists_select_of_subset (fun r hr => ⟨_, hwritten r hr⟩)
      (fun r hr => (mem_memos_deleteMemo.1 hr).1) ⟨rows, selected⟩
  have again := exportAs_eq (resolveFormat_of_exportAs h)
    (exportedMemos_of_select (s := s.deleteMemo id) known parsed (select_eq_rowsFor left further))
    later
  rw [select_eq_rowsFor hwritten ⟨rows, selected⟩] at selected
  cases selected
  refine ⟨user, terms, _, _, _, known, parsed, again, decode_snapshotOf _ _ _ _ _,
    decode_snapshotOf _ _ _ _ _, ?_⟩
  have without := exportsWithout hs hwritten id user request terms
  simpa only [recordsFor, snapshotOf, Snapshot.ofRecords, List.map_map, Function.comp_def]
    using without

/-! ## Deleting after any operations -/

/-- **Deleting a memo has just its effect.** After any operations, a memo is deleted without a
failure, whether it is there or not, and no trace of its number is left. An export that succeeded
before succeeds at any later time, with the records that it brought before, but for the one of the
memo and for references to it, and with those memos that are no longer comments. -/
theorem run_deleteMemo (ops : List Operation) (id : MemoId) :
    (((run ops).unrelated id).detached id).removeRow id = .ok ((run ops).deleteMemo id) ∧
    (run ops).Removes id ((run ops).deleteMemo id) ∧
    ∀ (username : String) (request : ExportRequest) (exportedAt later : Instant)
      (response : ExportResponse) (skipped : List SkippedMemo),
      (run ops).exportAs username request exportedAt = .ok (response, skipped) →
      ∃ user terms response' before after, (run ops).user? username = some user ∧
        request.terms = .ok terms ∧
        ((run ops).deleteMemo id).exportAs username request later = .ok (response', []) ∧
        Snapshot.decode response.data = .ok before ∧ Snapshot.decode response'.data = .ok after ∧
        (run ops).ExportsWithout id user request terms before.records after.records :=
  ⟨removeRow_eq _ _, removes_deleteMemo _ _, fun _ _ _ later _ _ h =>
    exportAs_deleteMemo (run_consistent ops) (run_isMade ops) h id later⟩

/-- A memo with a comment on it, and a memo that refers to it. -/
def commented : List Operation :=
  [.table (.createUser "alice"), .table (.createMemo draft),
    .table (.createMemo { draft with uid := "b" }), .table (.createMemo { draft with uid := "c" }),
    .table (.createRelation ⟨2, 1, .comment⟩), .table (.createRelation ⟨3, 1, .reference⟩)]

/-- The comment is brought when the memo is deleted on which it was one. -/
theorem run_deleteMemo_commented : ∃ response response' before after,
    (run commented).exportAs "alice" { includeRelations := true } .epoch = .ok (response, []) ∧
    ((run commented).deleteMemo 1).exportAs "alice" { includeRelations := true } .epoch =
      .ok (response', []) ∧
    Snapshot.decode response.data = .ok before ∧ Snapshot.decode response'.data = .ok after ∧
    "b" ∉ before.records.map (·.uid) ∧ "b" ∈ after.records.map (·.uid) := by
  have known : (run commented).user? "alice" = some ⟨1, "alice"⟩ := rfl
  have exported := exportAs_eq rfl
    (exportedMemos_eq { includeRelations := true } known rfl) .epoch
  obtain ⟨-, -, exports⟩ := run_deleteMemo commented 1
  obtain ⟨user, terms, response', before, after, known', parsed, again, hbefore, hafter, without⟩ :=
    exports _ _ .epoch .epoch _ _ exported
  rw [known] at known'
  cases known'
  cases parsed
  have row : MemoRow.ofMemo 2 { draft with uid := "b" } ∈ (run commented).memos := by decide
  have asked : ExportRequest.AsksFor { includeRelations := true } ⟨1, "alice"⟩ []
      (MemoRow.ofMemo 2 { draft with uid := "b" }) :=
    ⟨rfl, fun h => absurd h (by decide), fun t ht => absurd ht List.not_mem_nil⟩
  have new := (without.added _ row (by decide)).2 ⟨asked, by decide, by decide⟩
  exact ⟨_, _, before, after, exported, again, hbefore, hafter, new.2, new.1⟩

end Store

end MemoTransfer
