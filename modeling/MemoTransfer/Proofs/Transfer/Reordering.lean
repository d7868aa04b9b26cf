import MemoTransfer.Proofs.Transfer.Repetition
import MemoTransfer.Proofs.Transfer.Splitting

/-!
# Reordering a snapshot

If no text key comes twice in a snapshot, a record decides for its own memo alone: the verdict on it
is the one of the store before the import (`Store.verdicts_of_distinct`), and what it does to the
memo with its text key is, but for the number of a new memo, what it does to that store on its own
(`Store.rowByUid?_mergedAll_of_distinct`). So two snapshots with the same records in another order
lead to stores that agree in everything but the numbers of the new memos (`Store.AgreesUpTo`), and
to responses that say the same in another order (`Store.importAs_reordered`).
-/

namespace MemoTransfer

/-! ## Reports of the same verdicts -/

/-- **Reports with the same verdicts in another order** count the same and tell the same. -/
theorem ImportReport.response_perm {a b : ImportReport} (h : a.verdicts.Perm b.verdicts)
    (same : a.validateOnly = b.validateOnly) (elapsed elapsed' : Nat) :
    (a.response elapsed).counters = (b.response elapsed').counters ∧
      (a.response elapsed).errors.Perm (b.response elapsed').errors ∧
      (a.response elapsed).warnings.Perm (b.response elapsed').warnings := by
  have accepted := h.filterMap Except.toOption
  have rejected := h.filterMap Verdict.rejection?
  rw [← rejections_eq, ← rejections_eq] at rejected
  simp only [response_eq, ImportResponse.counters]
  refine ⟨?_, rejected.map _, accepted.flatMap_right _⟩
  rw [h.length_eq, accepted.length_eq, rejected.length_eq, same, h.countP_eq, h.countP_eq,
    (accepted.map _).sum_eq, (accepted.map _).sum_eq]

/-! ## Rows but for new numbers -/

/-- The row, with the same number for all that were numbered after `last`. -/
def MemoRow.numberedUpTo (last : MemoId) (t : MemoRow) : MemoRow :=
  { t with id := min t.id (last + 1) }

theorem MemoRow.numberedUpTo_eq_self {last : MemoId} {t : MemoRow} (h : t.id ≤ last) :
    t.numberedUpTo last = t := by
  have le : t.id ≤ last + 1 := h.trans (Int.le_of_lt (Int.lt_succ last))
  rw [numberedUpTo, min_eq_left le]

theorem MemoRow.numberedUpTo_ofMemo {last id : MemoId} (h : last < id) (m : Memo) :
    (ofMemo id m).numberedUpTo last = ofMemo (last + 1) m := by
  rw [numberedUpTo, ofMemo, min_eq_right (Int.add_one_le_of_lt h)]
  rfl

namespace Store

variable {s t t' : Store} {owner : UserId} {options : ImportOptions} {now : Int} {uid : String}
  {r : MemoRecord} {records records' : List MemoRecord} {last : MemoId}

/-- Both stores have the same tables, but for the numbers of the memos that were numbered after
`last` and for the order of the memos. -/
structure AgreesUpTo (last : MemoId) (t t' : Store) : Prop where
  tables : t' = { t with memos := t'.memos }
  memos : (t.memos.map (·.numberedUpTo last)).Perm (t'.memos.map (·.numberedUpTo last))
  rows : ∀ uid, (t.rowByUid? uid).map (·.numberedUpTo last) =
    (t'.rowByUid? uid).map (·.numberedUpTo last)

theorem mem_map_numberedUpTo (ht : t.WellFormed) {row : MemoRow} :
    row ∈ t.memos.map (·.numberedUpTo last) ↔
      (t.rowByUid? row.uid).map (·.numberedUpTo last) = some row := by
  rw [List.mem_map, Option.map_eq_some_iff]
  constructor
  · rintro ⟨u, hu, rfl⟩
    exact ⟨u, ht.rowByUid?_eq hu, rfl⟩
  · rintro ⟨u, hu, e⟩
    exact ⟨u, (mem_of_rowByUid? hu).1, e⟩

theorem nodup_map_numberedUpTo (ht : t.WellFormed) (last : MemoId) :
    (t.memos.map (·.numberedUpTo last)).Nodup := by
  refine List.Nodup.of_map MemoRow.uid ?_
  rw [List.map_map]
  exact ht.uids

/-- Stores that agree text key by text key agree. -/
theorem AgreesUpTo.of_rows (ht : t.WellFormed) (ht' : t'.WellFormed)
    (tables : t' = { t with memos := t'.memos })
    (rows : ∀ uid, (t.rowByUid? uid).map (·.numberedUpTo last) =
      (t'.rowByUid? uid).map (·.numberedUpTo last)) :
    t.AgreesUpTo last t' := by
  refine ⟨tables, ?_, rows⟩
  rw [List.perm_ext_iff_of_nodup (nodup_map_numberedUpTo ht last)
    (nodup_map_numberedUpTo ht' last)]
  intro row
  rw [mem_map_numberedUpTo ht, mem_map_numberedUpTo ht', rows]

/-- The numbers up to the last one are those of the same memos. -/
theorem AgreesUpTo.rowByUid?_eq (h : t.AgreesUpTo last t') {row : MemoRow}
    (ht : t.rowByUid? uid = some row) (old : row.id ≤ last) : t'.rowByUid? uid = some row := by
  have same := h.rows uid
  rw [ht, Option.map_some, MemoRow.numberedUpTo_eq_self old, eq_comm,
    Option.map_eq_some_iff] at same
  obtain ⟨row', ht', e⟩ := same
  have number : min row'.id (last + 1) = row.id := congrArg MemoRow.id e
  have old' : row'.id ≤ last := by
    by_contra new
    rw [min_eq_right (Int.add_one_le_of_lt (Int.not_le.1 new))] at number
    exact Int.not_le.2 (Int.lt_succ last) (number ▸ old)
  rw [MemoRow.numberedUpTo_eq_self old'] at e
  rw [ht', e]

/-! ## One record -/

/-- A verdict depends on the users, the limit and on whether the memo is stored. -/
theorem verdict_congr (users : t.users = s.users) (limit : t.contentLimit = s.contentLimit)
    (row : t.rowByUid? r.uid = s.rowByUid? r.uid) (owner : UserId) (options : ImportOptions) :
    t.verdict owner options r = s.verdict owner options r := by
  have refusal : t.refusal? options r = s.refusal? options r :=
    refusal?_congr limit (.inr (congrArg Option.isSome row))
  rw [verdict, verdict, refusal, row, users]

/-- What a record does to its memo depends on the users, the limit and the stored memo, but for the
number of a new one. -/
theorem rowByUid?_merged_congr (users : t.users = s.users)
    (limit : t.contentLimit = s.contentLimit) (row : t.rowByUid? r.uid = s.rowByUid? r.uid)
    (later : last ≤ t.lastMemo) (later' : last ≤ s.lastMemo) :
    ((t.merged owner options now r).rowByUid? r.uid).map (·.numberedUpTo last) =
      ((s.merged owner options now r).rowByUid? r.uid).map (·.numberedUpTo last) := by
  have refusal : t.refusal? options r = s.refusal? options r :=
    refusal?_congr limit (.inr (congrArg Option.isSome row))
  have step := s.reconciled owner options now r
  generalize s.verdict owner options r = v, s.merged owner options now r = u at step ⊢
  cases step with
  | refused unfit => rw [merged_of_refusal (refusal.trans unfit), row]
  | validated _ dry => rw [merged_of_validateOnly dry, row]
  | updated fit real stored =>
    have admitted : t.admits options r = true := by
      rw [admits_eq, refusal, fit]
      rfl
    rw [merged_of_stored real admitted (row.trans stored), rowByUid?_withPatch,
      rowByUid?_withPatch, row]
  | created fit real free known =>
    have admitted : t.admits options r = true := by
      rw [admits_eq, refusal, fit]
      rfl
    have same : (r.toMemo owner options now).uid = r.uid := rfl
    rw [merged_of_new real admitted (row.trans free) (by rw [users, known]), rowByUid?_withRow,
      rowByUid?_withRow, row, free, Option.none_or, Option.none_or, if_pos same, if_pos same,
      Option.map_some, Option.map_some, MemoRow.numberedUpTo_ofMemo (Int.lt_add_one_of_le later),
      MemoRow.numberedUpTo_ofMemo (Int.lt_add_one_of_le later')]
  | unowned fit real free unknown =>
    have same : t.merged owner options now r = t := by
      rw [merged, row, free, users, unknown]
      simp
    rw [same, row]

/-- A stored memo keeps its number. -/
theorem id_rowByUid?_merged {id : MemoId} (h : (s.rowByUid? uid).map MemoRow.id = some id)
    (owner : UserId) (options : ImportOptions) (now : Int) (r : MemoRecord) :
    ((s.merged owner options now r).rowByUid? uid).map MemoRow.id = some id := by
  obtain ⟨row, stored, rfl⟩ := Option.map_eq_some_iff.1 h
  have step := s.reconciled owner options now r
  generalize s.verdict owner options r = v, s.merged owner options now r = t at step ⊢
  cases step with
  | updated _ _ _ =>
    rw [rowByUid?_withPatch, stored, Option.map_some, Option.map_some]
    split <;> rfl
  | created _ _ _ _ =>
    rw [rowByUid?_withRow, stored]
    rfl
  | _ => exact h

theorem lastMemo_merged (s : Store) (owner : UserId) (options : ImportOptions) (now : Int)
    (r : MemoRecord) : (s.merged owner options now r).lastMemo =
      s.lastMemo + if (s.verdict owner options r).disposition? = some .created then 1 else 0 := by
  have step := s.reconciled owner options now r
  generalize s.verdict owner options r = v, s.merged owner options now r = t at step ⊢
  cases step with
  | created _ _ _ _ => rfl
  | _ => exact (Int.add_zero _).symm

/-! ## All records -/

/-- Each memo that is reported as created takes the next number. -/
theorem lastMemo_mergedAll (s : Store) (owner : UserId) (options : ImportOptions) (now : Int)
    (records : List MemoRecord) : (s.mergedAll owner options now records).lastMemo =
      s.lastMemo + (s.verdicts owner options now records).countP
        (·.disposition? = some .created) := by
  induction records generalizing s with
  | nil => exact (Int.add_zero _).symm
  | cons r records ih =>
    rw [mergedAll_cons, ih, lastMemo_merged, verdicts, List.countP_cons]
    by_cases created : (s.verdict owner options r).disposition? = some .created
    · rw [if_pos created, if_pos (decide_eq_true created), Nat.cast_add, Nat.cast_one,
        Int.add_assoc, Int.add_comm 1]
    · simp [created]

theorem id_rowByUid?_mergedAll {id : MemoId} (h : (s.rowByUid? uid).map MemoRow.id = some id)
    (owner : UserId) (options : ImportOptions) (now : Int) (records : List MemoRecord) :
    ((s.mergedAll owner options now records).rowByUid? uid).map MemoRow.id = some id := by
  induction records generalizing s with
  | nil => exact h
  | cons r records ih => exact ih (id_rowByUid?_merged h owner options now r)

/-- The records before one of them do not touch its memo. -/
theorem rowByUid?_mergedAll_before (hs : s.WellFormed)
    (distinct : ((records ++ r :: records').map (·.uid)).Nodup) (owner : UserId)
    (options : ImportOptions) (now : Int) :
    (s.mergedAll owner options now records).rowByUid? r.uid = s.rowByUid? r.uid := by
  rw [List.map_append, List.map_cons, List.nodup_append] at distinct
  refine rowByUid?_mergedAll_of_ne hs (fun q hq => ?_) owner options now
  exact distinct.2.2 _ (List.mem_map_of_mem hq) _ List.mem_cons_self

/-- **A record decides for its memo alone**, if no text key comes twice. -/
theorem rowByUid?_mergedAll_of_distinct (hs : s.WellFormed)
    (distinct : (records.map (·.uid)).Nodup) (hr : r ∈ records) :
    ((s.mergedAll owner options now records).rowByUid? r.uid).map (·.numberedUpTo s.lastMemo) =
      ((s.merged owner options now r).rowByUid? r.uid).map (·.numberedUpTo s.lastMemo) := by
  obtain ⟨before, after, rfl⟩ := List.append_of_mem hr
  have untouched := rowByUid?_mergedAll_before hs distinct owner options now
  have others : ∀ q ∈ after, q.uid ≠ r.uid := by
    rw [List.map_append, List.map_cons, List.nodup_append, List.nodup_cons] at distinct
    rintro q hq e
    exact distinct.2.1.1 (e ▸ List.mem_map_of_mem hq)
  have later : s.lastMemo ≤ (s.mergedAll owner options now before).lastMemo := by
    rw [lastMemo_mergedAll]
    exact Int.le_add_of_nonneg_right (Int.natCast_nonneg _)
  rw [mergedAll_append, mergedAll_cons,
    rowByUid?_mergedAll_of_ne ((hs.mergedAll owner options now before).merged ..) others]
  exact rowByUid?_merged_congr (users_mergedAll s owner options now before)
    (contentLimit_mergedAll s owner options now before) untouched later (Int.le_refl _)

/-- **The verdict on each record is the one of the first store**, if no text key comes twice. -/
theorem verdicts_of_distinct (hs : s.WellFormed) (distinct : (records.map (·.uid)).Nodup)
    (owner : UserId) (options : ImportOptions) (now : Int) :
    s.verdicts owner options now records = records.map (s.verdict owner options) := by
  apply List.ext_getElem?
  intro i
  rw [getElem?_verdicts, List.getElem?_map]
  cases hr : records[i]? with
  | none => rfl
  | some r =>
    obtain ⟨inside, rfl⟩ := List.getElem?_eq_some_iff.1 hr
    rw [← List.take_append_drop i records, List.drop_eq_getElem_cons inside] at distinct
    have untouched := rowByUid?_mergedAll_before hs distinct owner options now
    rw [Option.map_some, Option.map_some, verdict_congr (users_mergedAll s owner options now _)
      (contentLimit_mergedAll s owner options now _) untouched]

/-- **Records in another order** leave the same memos, but for the numbers of the new ones. -/
theorem mergedAll_agrees (hs : s.WellFormed) (distinct : (records.map (·.uid)).Nodup)
    (perm : records.Perm records') (owner : UserId) (options : ImportOptions) (now : Int) :
    (s.mergedAll owner options now records).AgreesUpTo s.lastMemo
      (s.mergedAll owner options now records') := by
  have distinct' : (records'.map (·.uid)).Nodup := (perm.map _).nodup_iff.1 distinct
  refine .of_rows (hs.mergedAll ..) (hs.mergedAll ..) ?_ fun uid => ?_
  · have numbered : (s.mergedAll owner options now records').lastMemo =
        (s.mergedAll owner options now records).lastMemo := by
      rw [lastMemo_mergedAll, lastMemo_mergedAll, verdicts_of_distinct hs distinct,
        verdicts_of_distinct hs distinct', (perm.map _).countP_eq]
    obtain ⟨memos, last, e⟩ := exists_mergedAll_eq s owner options now records
    obtain ⟨memos', last', e'⟩ := exists_mergedAll_eq s owner options now records'
    rw [e, e'] at numbered ⊢
    exact congrArg (fun n => { s with memos := memos', lastMemo := n }) numbered
  · by_cases told : ∃ r ∈ records, r.uid = uid
    · obtain ⟨r, hr, rfl⟩ := told
      rw [rowByUid?_mergedAll_of_distinct hs distinct hr,
        rowByUid?_mergedAll_of_distinct hs distinct' (perm.mem_iff.1 hr)]
    · have others : ∀ r ∈ records, r.uid ≠ uid := fun r hr e => told ⟨r, hr, e⟩
      have others' : ∀ r ∈ records', r.uid ≠ uid := fun r hr => others r (perm.mem_iff.2 hr)
      rw [rowByUid?_mergedAll_of_ne hs others, rowByUid?_mergedAll_of_ne hs others']

variable {username : String} {user : User} {first second : ImportRequest} {a b : Snapshot}

/-- **The order of the records does not matter** if no text key comes twice. The imports of two
snapshots with the same records leave stores that agree in everything but the numbers of the new
memos, and their responses count the same and bring the same errors and warnings. -/
theorem importAs_reordered (hs : s.WellFormed) (hu : s.user? username = some user)
    (ha : first.snapshot = .ok a) (hb : second.snapshot = .ok b)
    (same : second.options = first.options) (perm : a.records.Perm b.records)
    (distinct : (a.records.map (·.uid)).Nodup) (now : Int) :
    ∃ x y t t', s.importAs username first now = (.ok x, t) ∧
      s.importAs username second now = (.ok y, t') ∧ t.AgreesUpTo s.lastMemo t' ∧
      (∀ uid row, s.rowByUid? uid = some row → t'.rowByUid? uid = t.rowByUid? uid) ∧
      ∀ elapsed elapsed', (x.response elapsed).counters = (y.response elapsed').counters ∧
        (x.response elapsed).errors.Perm (y.response elapsed').errors ∧
        (x.response elapsed).warnings.Perm (y.response elapsed').warnings := by
  have distinct' : (b.records.map (·.uid)).Nodup := (perm.map _).nodup_iff.1 distinct
  have former := importAs_eq hs hu ha now
  have latter := importAs_eq hs hu hb now
  have agree := mergedAll_agrees hs distinct perm user.id first.options now
  rw [verdicts_of_distinct hs distinct] at former
  rw [verdicts_of_distinct hs distinct', same] at latter
  have told := perm.map (s.verdict user.id first.options)
  refine ⟨_, _, _, _, former, latter, agree, fun uid row stored => ?_,
    ImportReport.response_perm (a := ⟨_, _⟩) (b := ⟨_, _⟩) told rfl⟩
  have kept := id_rowByUid?_mergedAll (congrArg (Option.map MemoRow.id) stored) user.id
    first.options now a.records
  obtain ⟨row', there, number⟩ := Option.map_eq_some_iff.1 kept
  have old : row'.id ≤ s.lastMemo := number ▸ hs.le_last row (mem_of_rowByUid? stored).1
  rw [there, agree.rowByUid?_eq there old]

/-- Two records with text keys of their own. -/
def apart : List MemoRecord :=
  [⟨"a", "one", "PUBLIC", true, .epoch, .epoch, some .epoch, ["x"], none, [], []⟩,
    ⟨"b", "two", "SECRET", false, .epoch, .epoch, none, ["y"], none, [], []⟩]

theorem importAs_reordered_apart : ∃ x y t t',
    lone.importAs "alice" (bringing apart) 60 = (.ok x, t) ∧
      lone.importAs "alice" (bringing apart.reverse) 60 = (.ok y, t') ∧ t.AgreesUpTo 0 t' ∧
      (x.response 0).counters = (y.response 0).counters ∧
      (x.response 0).warnings.Perm (y.response 0).warnings := by
  have keys : lone.WellFormed := WellFormed.empty.of_memos rfl rfl
  have known : lone.user? "alice" = some ⟨1, "alice"⟩ := rfl
  have finite : ∀ r ∈ apart, r.IsFinite := by decide
  obtain ⟨x, y, t, t', former, latter, agree, -, told⟩ := importAs_reordered keys known
    (snapshot_bringing finite) (snapshot_bringing fun r hr => finite r (List.mem_reverse.1 hr)) rfl
    (List.reverse_perm apart).symm (by decide) 60
  exact ⟨x, y, t, t', former, latter, agree, (told 0 0).1, (told 0 0).2.2⟩

end Store

end MemoTransfer
