import MemoTransfer.Proofs.Transfer.Merge
import MemoTransfer.Proofs.Transfer.Summing

/-!
# The verdict on each record

The verdict on a record of an import is the one of the store that the records before it have left
(`Store.getElem?_verdicts`). Those records leave the limit, the users and the memos with other text
keys as they were, and a memo that is stored stays stored; so the store differs from the first one,
as far as the record is concerned, only if one of them has created its memo
(`Store.exists_created_of_isSome`).
-/

namespace MemoTransfer

namespace Store

variable {s : Store} {owner : UserId} {options : ImportOptions} {now : Int} {uid : String}
  {r : MemoRecord} {records : List MemoRecord} {i : ℕ}

/-! ## One record -/

/-- A user who is known has no other rejections than refusals. -/
theorem rejection?_verdict (known : s.users.any (·.id = owner) = true) (options : ImportOptions)
    (r : MemoRecord) :
    (s.verdict owner options r).rejection? = (s.refusal? options r).map (Rejection.mk r.uid) := by
  have step := s.reconciled owner options 0 r
  generalize s.verdict owner options r = v, s.merged owner options 0 r = t at step ⊢
  cases step with
  | refused unfit => simp [unfit]
  | validated fit _ => simp [fit]
  | updated fit _ _ => simp [fit]
  | created fit _ _ _ => simp [fit]
  | unowned _ _ _ unknown =>
    rw [known] at unknown
    cases unknown

/-- A record that is reported as updated was written over a stored memo. -/
theorem of_disposition?_updated (h : (s.verdict owner options r).disposition? = some .updated) :
    ∃ t, s.rowByUid? r.uid = some t ∧
      s.merged owner options now r = s.withPatch (r.toPatch t.id options) := by
  have step := s.reconciled owner options now r
  generalize s.verdict owner options r = v, s.merged owner options now r = u at step h ⊢
  cases step with
  | updated _ _ stored => exact ⟨_, stored, rfl⟩
  | _ => simp at h

/-- A record that is reported as created has made the new memo that it describes. -/
theorem merged_of_created (h : (s.verdict owner options r).disposition? = some .created) (now : Int) :
    s.rowByUid? r.uid = none ∧
      s.merged owner options now r = s.withRow (r.toMemo owner options now) := by
  have step := s.reconciled owner options now r
  generalize s.verdict owner options r = v, s.merged owner options now r = t at step h ⊢
  cases step with
  | created _ _ free _ => exact ⟨free, rfl⟩
  | _ => simp at h

/-- A record that is reported as created has made a new memo. -/
theorem of_disposition?_created (h : (s.verdict owner options r).disposition? = some .created) :
    ((s.merged owner options now r).rowByUid? r.uid).isSome = true := by
  obtain ⟨free, made⟩ := merged_of_created h now
  have same : (r.toMemo owner options now).uid = r.uid := rfl
  rw [made, rowByUid?_withRow, free, if_pos same]
  rfl

/-- A record that is not reported as updated leaves a stored memo alone. -/
theorem rowByUid?_merged_of_not_updated (hs : s.WellFormed) {t : MemoRow}
    (stored : s.rowByUid? uid = some t)
    (h : r.uid = uid → (s.verdict owner options r).disposition? ≠ some .updated) (now : Int) :
    (s.merged owner options now r).rowByUid? uid = some t := by
  by_cases key : r.uid = uid
  · have step := s.reconciled owner options now r
    have other := h key
    generalize s.verdict owner options r = v, s.merged owner options now r = u at step other ⊢
    cases step with
    | created _ _ free _ =>
      rw [key, stored] at free
      cases free
    | updated _ _ _ => exact absurd rfl other
    | _ => exact stored
  · rw [rowByUid?_merged_of_ne hs key, stored]

/-- A stored memo stays stored. -/
theorem isSome_rowByUid?_merged (h : (s.rowByUid? uid).isSome = true) (owner : UserId)
    (options : ImportOptions) (now : Int) (r : MemoRecord) :
    ((s.merged owner options now r).rowByUid? uid).isSome = true := by
  have step := s.reconciled owner options now r
  generalize s.verdict owner options r = v, s.merged owner options now r = t at step ⊢
  cases step with
  | refused _ => exact h
  | validated _ _ => exact h
  | updated _ _ _ =>
    rw [rowByUid?_withPatch, Option.isSome_map]
    exact h
  | created _ _ _ _ =>
    rw [rowByUid?_withRow, Option.isSome_or, h]
    rfl
  | unowned _ _ _ _ => exact h

/-- A memo that a record has brought was created from it. -/
theorem created_of_isSome (hs : s.WellFormed) (free : s.rowByUid? uid = none)
    (h : ((s.merged owner options now r).rowByUid? uid).isSome = true) :
    r.uid = uid ∧ (s.verdict owner options r).disposition? = some .created := by
  have key : r.uid = uid := by
    by_contra other
    rw [rowByUid?_merged_of_ne hs other, free] at h
    cases h
  subst key
  refine ⟨rfl, ?_⟩
  have step := s.reconciled owner options now r
  generalize s.verdict owner options r = v, s.merged owner options now r = t at step h ⊢
  cases step with
  | created _ _ _ _ => rfl
  | updated _ _ stored => simp [free] at stored
  | _ => simp [free] at h

/-! ## The records before -/

theorem mergedAll_append (s : Store) (owner : UserId) (options : ImportOptions) (now : Int)
    (before after : List MemoRecord) :
    s.mergedAll owner options now (before ++ after) =
      (s.mergedAll owner options now before).mergedAll owner options now after :=
  List.foldl_append

/-- The records before one of them, then it, and then those behind it. -/
theorem mergedAll_split (s : Store) (owner : UserId) (options : ImportOptions) (now : Int)
    (h : records[i]? = some r) :
    s.mergedAll owner options now records =
      ((s.mergedAll owner options now (records.take i)).merged owner options now r).mergedAll owner
        options now (records.drop (i + 1)) := by
  obtain ⟨inside, rfl⟩ := List.getElem?_eq_some_iff.1 h
  calc s.mergedAll owner options now records
      = s.mergedAll owner options now (records.take i ++ records[i] :: records.drop (i + 1)) := by
        rw [List.getElem_cons_drop, List.take_append_drop]
    _ = _ := s.mergedAll_append owner options now _ _

theorem users_mergedAll (s : Store) (owner : UserId) (options : ImportOptions) (now : Int)
    (records : List MemoRecord) : (s.mergedAll owner options now records).users = s.users := by
  obtain ⟨memos, last, e⟩ := exists_mergedAll_eq s owner options now records
  rw [e]

theorem contentLimit_mergedAll (s : Store) (owner : UserId) (options : ImportOptions) (now : Int)
    (records : List MemoRecord) :
    (s.mergedAll owner options now records).contentLimit = s.contentLimit := by
  obtain ⟨memos, last, e⟩ := exists_mergedAll_eq s owner options now records
  rw [e]
  rfl

/-- Records with other text keys leave a memo alone. -/
theorem rowByUid?_mergedAll_of_ne (hs : s.WellFormed) (h : ∀ r ∈ records, r.uid ≠ uid)
    (owner : UserId) (options : ImportOptions) (now : Int) :
    (s.mergedAll owner options now records).rowByUid? uid = s.rowByUid? uid := by
  induction records generalizing s with
  | nil => rfl
  | cons r records ih =>
    rw [List.forall_mem_cons] at h
    rw [mergedAll_cons, ih (hs.merged owner options now r) h.2,
      rowByUid?_merged_of_ne hs h.1 owner options now]

theorem isSome_rowByUid?_mergedAll (h : (s.rowByUid? uid).isSome = true) (owner : UserId)
    (options : ImportOptions) (now : Int) (records : List MemoRecord) :
    ((s.mergedAll owner options now records).rowByUid? uid).isSome = true := by
  induction records generalizing s with
  | nil => exact h
  | cons r records ih => exact ih (isSome_rowByUid?_merged h owner options now r)

/-- **The verdict on a record is the one of the store that the records before it have left.** -/
theorem getElem?_verdicts (s : Store) (owner : UserId) (options : ImportOptions) (now : Int)
    (records : List MemoRecord) (i : ℕ) :
    (s.verdicts owner options now records)[i]? =
      records[i]?.map ((s.mergedAll owner options now (records.take i)).verdict owner options) := by
  induction records generalizing s i with
  | nil => rfl
  | cons r records ih =>
    cases i with
    | zero => rfl
    | succ i =>
      rw [verdicts, List.getElem?_cons_succ, ih, List.getElem?_cons_succ, List.take_succ_cons,
        mergedAll_cons]

/-- The verdicts on the records from a place on. -/
theorem drop_verdicts (s : Store) (owner : UserId) (options : ImportOptions) (now : Int)
    (records : List MemoRecord) (i : ℕ) :
    (s.verdicts owner options now records).drop i =
      (s.mergedAll owner options now (records.take i)).verdicts owner options now
        (records.drop i) := by
  induction records generalizing s i with
  | nil => simp [verdicts]
  | cons r records ih =>
    cases i with
    | zero => rfl
    | succ i =>
      rw [verdicts, List.drop_succ_cons, ih, List.take_succ_cons, List.drop_succ_cons,
        mergedAll_cons]

/-- Records that are not reported as updated leave a stored memo alone. -/
theorem rowByUid?_mergedAll_of_not_updated (hs : s.WellFormed) {t : MemoRow}
    (stored : s.rowByUid? uid = some t)
    (h : ∀ (j : ℕ) (r : MemoRecord) (v : Verdict), records[j]? = some r →
      (s.verdicts owner options now records)[j]? = some v → r.uid = uid →
        v.disposition? ≠ some .updated) :
    (s.mergedAll owner options now records).rowByUid? uid = some t := by
  induction records generalizing s with
  | nil => exact stored
  | cons r records ih =>
    have first := rowByUid?_merged_of_not_updated hs stored (fun key => h 0 r _ rfl rfl key) now
    exact ih (hs.merged owner options now r) first fun j => h (j + 1)

/-- **The memo that a record has made**, unless a later record is reported as updated, which was
written over it. -/
theorem rowByUid?_mergedAll_of_created (hs : s.WellFormed) {v : Verdict} (hr : records[i]? = some r)
    (hv : (s.verdicts owner options now records)[i]? = some v)
    (created : v.disposition? = some .created)
    (kept : ∀ (j : ℕ) (r' : MemoRecord) (v' : Verdict), i < j → records[j]? = some r' →
      (s.verdicts owner options now records)[j]? = some v' → r'.uid = r.uid →
        v'.disposition? ≠ some .updated) :
    ∃ id, (s.mergedAll owner options now records).rowByUid? r.uid =
      some (MemoRow.ofMemo id (r.toMemo owner options now)) := by
  have later := s.drop_verdicts owner options now records (i + 1)
  have reached := hs.mergedAll owner options now (records.take i)
  rw [List.take_add_one, hr, mergedAll_append] at later
  rw [getElem?_verdicts, hr] at hv
  cases hv
  rw [mergedAll_split s owner options now hr]
  generalize s.mergedAll owner options now (records.take i) = u at later reached created ⊢
  obtain ⟨free, made⟩ := merged_of_created created now
  have same : (r.toMemo owner options now).uid = r.uid := rfl
  have stored : (u.merged owner options now r).rowByUid? r.uid =
      some (.ofMemo (u.lastMemo + 1) (r.toMemo owner options now)) := by
    rw [made, rowByUid?_withRow, free, Option.none_or, if_pos same]
  refine ⟨u.lastMemo + 1, rowByUid?_mergedAll_of_not_updated
    (reached.merged owner options now r) stored fun j r' v' hr' hv' => ?_⟩
  rw [List.getElem?_drop] at hr'
  have there : (s.verdicts owner options now records)[i + 1 + j]? = some v' := by
    rw [← List.getElem?_drop, later]
    exact hv'
  exact kept (i + 1 + j) r' v' (by omega) hr' there

/-- A memo that the records have brought was created from one of them. -/
theorem exists_created_of_isSome (hs : s.WellFormed) (free : s.rowByUid? uid = none)
    (h : ((s.mergedAll owner options now records).rowByUid? uid).isSome = true) :
    ∃ j : ℕ, ∃ r v, records[j]? = some r ∧ r.uid = uid ∧
      (s.verdicts owner options now records)[j]? = some v ∧ v.disposition? = some .created := by
  induction records generalizing s with
  | nil =>
    rw [mergedAll_nil, free] at h
    cases h
  | cons r records ih =>
    cases next : (s.merged owner options now r).rowByUid? uid with
    | none =>
      obtain ⟨j, later, v, hr, key, hv, created⟩ := ih (hs.merged owner options now r) next h
      exact ⟨j + 1, later, v, hr, key, hv, created⟩
    | some t =>
      have brought : ((s.merged owner options now r).rowByUid? uid).isSome = true := by
        rw [next]
        rfl
      obtain ⟨key, created⟩ := created_of_isSome hs free brought
      exact ⟨0, r, _, rfl, key, rfl, created⟩

/-- The memo of a record that was reported as created is stored from then on. -/
theorem isSome_of_created {j : ℕ} {v : Verdict} (later : j < i) (hr : records[j]? = some r)
    (hv : (s.verdicts owner options now records)[j]? = some v)
    (created : v.disposition? = some .created) :
    ((s.mergedAll owner options now (records.take i)).rowByUid? r.uid).isSome = true := by
  have there : (records.take i)[j]? = some r := by
    rw [List.getElem?_take_of_lt later, hr]
  have first : (records.take i).take j = records.take j := by
    rw [List.take_take, Nat.min_eq_left later.le]
  rw [getElem?_verdicts, hr] at hv
  cases hv
  rw [mergedAll_split s owner options now there, first]
  exact isSome_rowByUid?_mergedAll (of_disposition?_created created) owner options now _

end Store

end MemoTransfer
