import MemoTransfer.Proofs.Store.Sound
import MemoTransfer.Proofs.Transfer.Importing

/-!
# Merging a snapshot into a store

What an import makes of the memo with a text key depends on the records with that text key alone,
and only on those that are not too long (`MemoRecord.Counts`). If the memo is stored, they are
written over it one after another, or not at all (`Store.rowByUid?_mergedAll_stored`); if it is not,
the first of them makes it, and the others are written over that (`Store.rowByUid?_mergedAll_new`).
So the last of them decides what the memo says (`MemoRow.memo_overwritten`), and the number, the
text key, the creator and the status of a memo never change.
-/

namespace MemoTransfer

open MemoTransfer.Calendar

/-! ## Records that count -/

/-- The record has the text key and is not too long. -/
def MemoRecord.Counts (r : MemoRecord) (limit : Nat) (uid : String) : Prop :=
  r.uid = uid ∧ byteLength r.content ≤ limit

instance (r : MemoRecord) (limit : Nat) (uid : String) : Decidable (r.Counts limit uid) :=
  inferInstanceAs (Decidable (_ ∧ _))

/-- The records that count for a text key. -/
def counting (limit : Nat) (uid : String) (records : List MemoRecord) : List MemoRecord :=
  records.filter (·.Counts limit uid)

@[simp] theorem counting_nil (limit : Nat) (uid : String) : counting limit uid [] = [] := rfl

theorem counting_cons (limit : Nat) (uid : String) (r : MemoRecord) (records : List MemoRecord) :
    counting limit uid (r :: records) =
      if r.Counts limit uid then r :: counting limit uid records
      else counting limit uid records := by
  by_cases h : r.Counts limit uid
  · rw [if_pos h, counting, List.filter_cons_of_pos (by simpa using h), ← counting]
  · rw [if_neg h, counting, List.filter_cons_of_neg (by simpa using h), ← counting]

theorem MemoRecord.knownVisibility_fst (r : MemoRecord) :
    r.knownVisibility.1 = (Visibility.ofName? r.visibility).getD .ownerOnly := by
  unfold knownVisibility
  cases Visibility.ofName? r.visibility <;> rfl

/-- The last display time among records. -/
def lastDisplay (records : List MemoRecord) : Option Int :=
  (records.filterMap (·.displayTime)).getLast?.map Instant.seconds

theorem lastDisplay_cons (r : MemoRecord) (records : List MemoRecord) :
    lastDisplay (r :: records) = (lastDisplay records).or (r.displayTime.map Instant.seconds) := by
  unfold lastDisplay
  cases h : r.displayTime with
  | none => simp [h]
  | some t =>
    rw [List.filterMap_cons_some h, List.getLast?_cons]
    cases (records.filterMap (·.displayTime)).getLast? <;> rfl

theorem lastDisplay_concat (records : List MemoRecord) (r : MemoRecord) :
    lastDisplay (records ++ [r]) =
      (r.displayTime.map Instant.seconds).or (lastDisplay records) := by
  unfold lastDisplay
  cases h : r.displayTime with
  | none => simp [h]
  | some t => simp [h]

/-! ## Rows that are written over -/

namespace MemoRow

variable {options : ImportOptions}

/-- The row after records have been written over it. -/
def overwritten (t : MemoRow) (options : ImportOptions) (records : List MemoRecord) : MemoRow :=
  records.foldl (fun t r => t.patch (r.toPatch t.id options)) t

@[simp] theorem overwritten_nil (t : MemoRow) : t.overwritten options [] = t := rfl

@[simp] theorem overwritten_cons (t : MemoRow) (r : MemoRecord) (records : List MemoRecord) :
    t.overwritten options (r :: records) =
      (t.patch (r.toPatch t.id options)).overwritten options records := rfl

theorem overwritten_concat (t : MemoRow) (r : MemoRecord) (records : List MemoRecord) :
    t.overwritten options (records ++ [r]) =
      (t.overwritten options records).patch
        (r.toPatch (t.overwritten options records).id options) := by
  simp only [overwritten, List.foldl_append, List.foldl_cons, List.foldl_nil]

/-- What records never change. -/
theorem overwritten_keys (t : MemoRow) (options : ImportOptions) (records : List MemoRecord) :
    (t.overwritten options records).id = t.id ∧ (t.overwritten options records).uid = t.uid ∧
      (t.overwritten options records).creatorId = t.creatorId ∧
      (t.overwritten options records).rowStatus = t.rowStatus := by
  induction records generalizing t with
  | nil => exact ⟨rfl, rfl, rfl, rfl⟩
  | cons r records ih => exact ih _

/-- The times of a row stay unless those of the records are kept. -/
theorem overwritten_times (t : MemoRow) (h : options.preserveTimestamps = false)
    (records : List MemoRecord) :
    (t.overwritten options records).createdTs = t.createdTs ∧
      (t.overwritten options records).updatedTs = t.updatedTs := by
  induction records generalizing t with
  | nil => exact ⟨rfl, rfl⟩
  | cons r records ih =>
    have step : (t.patch (r.toPatch t.id options)).createdTs = t.createdTs ∧
        (t.patch (r.toPatch t.id options)).updatedTs = t.updatedTs := by
      simp [patch, MemoRecord.toPatch, h]
    rw [overwritten_cons, (ih _).1, (ih _).2]
    exact step

/-- The last display time among the records, or the one before them. -/
theorem overwritten_displayTs (t : MemoRow) (options : ImportOptions)
    (records : List MemoRecord) :
    (t.overwritten options records).displayTs =
      (lastDisplay records).or t.displayTs := by
  induction records using List.reverseRecOn with
  | nil => rfl
  | append_singleton records r ih =>
    rw [overwritten_concat, lastDisplay_concat]
    simp only [patch, MemoRecord.toPatch, ih]
    cases r.displayTime <;> rfl

/-- **The last record decides what the memo says.** -/
theorem memo_overwritten (t : MemoRow) (records : List MemoRecord) {last : MemoRecord}
    (hf : last.IsFinite) :
    (t.overwritten options (records ++ [last])).memo =
      { t.memo with
        content := last.content
        visibility := (Visibility.ofName? last.visibility).getD .ownerOnly
        pinned := last.pinned
        payload := ⟨last.tags, .ofContent last.content, last.location⟩
        createdTs := if options.preserveTimestamps then last.createdAt.seconds else t.memo.createdTs
        updatedTs := if options.preserveTimestamps then last.updatedAt.seconds else t.memo.updatedTs
        displayTs := (lastDisplay (records ++ [last])).or t.memo.displayTs } := by
  obtain ⟨id, uid, creatorId, rowStatus⟩ := t.overwritten_keys options records
  have display := t.overwritten_displayTs options (records ++ [last])
  have finite : ∀ q ∈ (last.toPatch (t.overwritten options records).id options).payload,
      q.IsFinite := by
    intro q hq
    cases hq
    exact hf
  rw [overwritten_concat] at display ⊢
  rw [memo_patch _ finite, show t.memo.displayTs = t.displayTs from rfl, ← display,
    ← last.knownVisibility_fst]
  cases h : options.preserveTimestamps with
  | true => simp [Memo.patch, MemoRecord.toPatch, memo, patch, Payload.ofContent, *]
  | false =>
    obtain ⟨created, updated⟩ := t.overwritten_times h records
    simp [Memo.patch, MemoRecord.toPatch, memo, patch, Payload.ofContent, *]

end MemoRow

namespace Store

variable {s : Store} {limit : Nat} {owner : UserId} {options : ImportOptions} {now : Int}
  {uid : String} {r : MemoRecord} {t : MemoRow}

/-! ## One record -/

theorem contentLimit_merged (s : Store) (owner : UserId) (options : ImportOptions) (now : Int)
    (r : MemoRecord) : (s.merged owner options now r).contentLimit = s.contentLimit := by
  obtain ⟨memos, last, e⟩ := exists_merged_eq s owner options now r
  rw [e]
  rfl

theorem users_merged (s : Store) (owner : UserId) (options : ImportOptions) (now : Int)
    (r : MemoRecord) : (s.merged owner options now r).users = s.users := by
  obtain ⟨memos, last, e⟩ := exists_merged_eq s owner options now r
  rw [e]

theorem lastMemo_le_merged (s : Store) (owner : UserId) (options : ImportOptions) (now : Int)
    (r : MemoRecord) : s.lastMemo ≤ (s.merged owner options now r).lastMemo := by
  have step := s.reconciled owner options now r
  generalize s.verdict owner options r = v, s.merged owner options now r = t at step ⊢
  cases step with
  | refused _ => exact Int.le_refl _
  | validated _ _ => exact Int.le_refl _
  | updated _ _ _ => exact Int.le_refl _
  | created _ _ _ _ => exact Int.le_of_lt (Int.lt_succ _)
  | unowned _ _ _ _ => exact Int.le_refl _

/-- A record leaves the memos with other text keys alone. -/
theorem rowByUid?_merged_of_ne (hs : s.WellFormed) (h : r.uid ≠ uid) (owner : UserId)
    (options : ImportOptions) (now : Int) :
    (s.merged owner options now r).rowByUid? uid = s.rowByUid? uid := by
  have step := s.reconciled owner options now r
  generalize s.verdict owner options r = v, s.merged owner options now r = t at step ⊢
  cases step with
  | refused _ => rfl
  | validated _ _ => rfl
  | @updated u _ _ stored =>
    obtain ⟨mem, key⟩ := mem_of_rowByUid? stored
    rw [rowByUid?_withPatch]
    cases ht : s.rowByUid? uid with
    | none => rfl
    | some t =>
      obtain ⟨mem', key'⟩ := mem_of_rowByUid? ht
      have other : t.id ≠ (r.toPatch u.id options).id := by
        intro e
        obtain rfl : t = u := hs.eq_of_id mem' mem e
        exact h (key.symm.trans key')
      rw [Option.map_some, if_neg other]
  | created _ _ _ _ =>
    have other : (r.toMemo owner options now).uid ≠ uid := h
    rw [rowByUid?_withRow, if_neg other, Option.or_none]
  | unowned _ _ _ _ => rfl

/-- A record that is too long changes nothing. -/
theorem merged_of_long (hl : s.contentLimit = .ok limit) (h : ¬byteLength r.content ≤ limit)
    (owner : UserId) (options : ImportOptions) (now : Int) :
    s.merged owner options now r = s := by
  have refused : s.admits options r = false := by
    simp [admits, hl, h]
  exact merged_of_refused refused owner now

/-- What a record does to a stored memo. -/
theorem rowByUid?_merged_stored (hs : s.WellFormed) (hl : s.contentLimit = .ok limit)
    (hv : options.validateOnly = false) (h : s.rowByUid? uid = some t) (owner : UserId) (now : Int)
    (r : MemoRecord) :
    (s.merged owner options now r).rowByUid? uid =
      some (if options.overwriteExisting ∧ r.Counts limit uid then t.patch (r.toPatch t.id options)
        else t) := by
  by_cases key : r.uid = uid
  · subst key
    by_cases short : byteLength r.content ≤ limit
    · cases overwrite : options.overwriteExisting with
      | false =>
        have refused : s.admits options r = false := by
          simp [admits, h, overwrite]
        rw [merged_of_refused refused, if_neg (by simp), h]
      | true =>
        have admitted : s.admits options r = true := by
          simp [admits, hl, overwrite, short]
        have counts : true = true ∧ r.Counts limit r.uid := ⟨rfl, rfl, short⟩
        have same : t.id = (r.toPatch t.id options).id := rfl
        rw [merged_of_stored hv admitted h, rowByUid?_withPatch, h, Option.map_some, if_pos same,
          if_pos counts]
    · rw [merged_of_long hl short, if_neg fun c => short c.2.2, h]
  · rw [rowByUid?_merged_of_ne hs key, if_neg fun c => key c.2.1, h]

/-- What a record does to a text key without a memo. -/
theorem rowByUid?_merged_new (hs : s.WellFormed) (hl : s.contentLimit = .ok limit)
    (hv : options.validateOnly = false) (known : s.users.any (·.id = owner) = true)
    (h : s.rowByUid? uid = none) (now : Int) (r : MemoRecord) :
    (s.merged owner options now r).rowByUid? uid =
      if r.Counts limit uid then
        some (MemoRow.ofMemo (s.lastMemo + 1) (r.toMemo owner options now))
      else none := by
  by_cases key : r.uid = uid
  · subst key
    by_cases short : byteLength r.content ≤ limit
    · have admitted : s.admits options r = true := by
        simp [admits, hl, h, short]
      have same : (r.toMemo owner options now).uid = r.uid := rfl
      rw [merged_of_new hv admitted h known, rowByUid?_withRow, h, Option.none_or, if_pos same,
        if_pos ⟨rfl, short⟩]
    · rw [merged_of_long hl short, if_neg fun c => short c.2, h]
  · rw [rowByUid?_merged_of_ne hs key, if_neg fun c => key c.1, h]

/-! ## All records of a snapshot -/

/-- A memo is left alone if no record counts for it. -/
theorem rowByUid?_mergedAll_of_counting_nil (hs : s.WellFormed) (hl : s.contentLimit = .ok limit)
    {records : List MemoRecord} (hc : counting limit uid records = []) (owner : UserId)
    (options : ImportOptions) (now : Int) :
    (s.mergedAll owner options now records).rowByUid? uid = s.rowByUid? uid := by
  induction records generalizing s with
  | nil => rfl
  | cons r records ih =>
    have limit' := (s.contentLimit_merged owner options now r).trans hl
    rw [counting_cons] at hc
    split at hc
    · cases hc
    · rename_i other
      rw [mergedAll_cons, ih (hs.merged owner options now r) limit' hc]
      by_cases key : r.uid = uid
      · rw [merged_of_long hl fun short => other ⟨key, short⟩]
      · exact rowByUid?_merged_of_ne hs key owner options now

/-- **What records do to a stored memo.** -/
theorem rowByUid?_mergedAll_stored (hs : s.WellFormed) (hl : s.contentLimit = .ok limit)
    (hv : options.validateOnly = false) (h : s.rowByUid? uid = some t) (owner : UserId) (now : Int)
    (records : List MemoRecord) :
    (s.mergedAll owner options now records).rowByUid? uid =
      some (if options.overwriteExisting then t.overwritten options (counting limit uid records)
        else t) := by
  induction records generalizing s t with
  | nil => simp [h]
  | cons r records ih =>
    have step := rowByUid?_merged_stored hs hl hv h owner now r
    have limit' := (s.contentLimit_merged owner options now r).trans hl
    rw [mergedAll_cons, ih (hs.merged owner options now r) limit' step, counting_cons]
    by_cases counts : r.Counts limit uid
    · cases options.overwriteExisting <;> simp [counts]
    · simp [counts]

/-- **What records do to a text key without a memo.** -/
theorem rowByUid?_mergedAll_new (hs : s.WellFormed) (hl : s.contentLimit = .ok limit)
    (hv : options.validateOnly = false) (known : s.users.any (·.id = owner) = true)
    (h : s.rowByUid? uid = none) (now : Int) {records rest : List MemoRecord} {first : MemoRecord}
    (hc : counting limit uid records = first :: rest) :
    ∃ id, s.lastMemo < id ∧ (s.mergedAll owner options now records).rowByUid? uid =
      some (if options.overwriteExisting then
          (MemoRow.ofMemo id (first.toMemo owner options now)).overwritten options rest
        else .ofMemo id (first.toMemo owner options now)) := by
  induction records generalizing s with
  | nil => cases hc
  | cons r records ih =>
    have step := rowByUid?_merged_new hs hl hv known h now r
    have limit' := (s.contentLimit_merged owner options now r).trans hl
    have known' : (s.merged owner options now r).users.any (·.id = owner) = true := by
      rw [users_merged, known]
    have hs' := hs.merged owner options now r
    rw [counting_cons] at hc
    rw [mergedAll_cons]
    by_cases counts : r.Counts limit uid
    · rw [if_pos counts] at step hc
      obtain ⟨rfl, rfl⟩ := List.cons.inj hc
      exact ⟨s.lastMemo + 1, Int.lt_succ _,
        rowByUid?_mergedAll_stored hs' limit' hv step owner now records⟩
    · rw [if_neg counts] at step hc
      obtain ⟨id, later, e⟩ := ih hs' limit' known' step hc
      exact ⟨id, Int.lt_of_le_of_lt (s.lastMemo_le_merged owner options now r) later, e⟩

/-! ## The law -/

/-- The memo with the text key. -/
def memoByUid? (s : Store) (uid : String) : Option Memo := (s.rowByUid? uid).map MemoRow.memo

/-- What the records that count for a text key make of the memo with that text key, for an import
that leads from `s` to `t`. -/
structure MergeLaw (s t : Store) (owner : UserId) (options : ImportOptions) (now : Int)
    (uid : String) (counts : List MemoRecord) : Prop where
  /-- Without a record the memo is left alone. -/
  untouched : counts = [] → t.rowByUid? uid = s.rowByUid? uid
  /-- A stored memo stays unless it is to be overwritten. -/
  kept : options.overwriteExisting = false → ∀ row, s.rowByUid? uid = some row →
    t.rowByUid? uid = some row
  /-- The first record makes a new memo. -/
  created : options.overwriteExisting = false → s.rowByUid? uid = none →
    ∀ first ∈ counts.head?, ∃ id, s.lastMemo < id ∧
      t.memoByUid? uid = some {
        id := id
        uid := uid
        creatorId := owner
        rowStatus := .normal
        content := first.content
        visibility := (Visibility.ofName? first.visibility).getD .ownerOnly
        pinned := first.pinned
        payload := .ofContent first.content first.location
        createdTs := if options.preserveTimestamps then first.createdAt.seconds else now
        updatedTs := if options.preserveTimestamps then first.updatedAt.seconds else now
        displayTs := first.displayTime.map Instant.seconds }
  /-- The last record decides what a stored memo says. -/
  overwritten : options.overwriteExisting = true → ∀ m, s.memoByUid? uid = some m →
    ∀ last ∈ counts.getLast?, t.memoByUid? uid = some { m with
      content := last.content
      visibility := (Visibility.ofName? last.visibility).getD .ownerOnly
      pinned := last.pinned
      payload := ⟨last.tags, .ofContent last.content, last.location⟩
      createdTs := if options.preserveTimestamps then last.createdAt.seconds else m.createdTs
      updatedTs := if options.preserveTimestamps then last.updatedAt.seconds else m.updatedTs
      displayTs := (lastDisplay counts).or m.displayTs }
  /-- The last record also decides what a new memo says, but for the tags of one that it made. -/
  createdOver : options.overwriteExisting = true → s.rowByUid? uid = none →
    ∀ last ∈ counts.getLast?, ∃ id, s.lastMemo < id ∧
      t.memoByUid? uid = some {
        id := id
        uid := uid
        creatorId := owner
        rowStatus := .normal
        content := last.content
        visibility := (Visibility.ofName? last.visibility).getD .ownerOnly
        pinned := last.pinned
        payload := if counts.length = 1 then .ofContent last.content last.location
          else ⟨last.tags, .ofContent last.content, last.location⟩
        createdTs := if options.preserveTimestamps then last.createdAt.seconds else now
        updatedTs := if options.preserveTimestamps then last.updatedAt.seconds else now
        displayTs := lastDisplay counts }

/-- The memo of the row that a record makes. -/
theorem memo_ofMemo_toMemo (hf : r.IsFinite) (owner : UserId) (options : ImportOptions) (now : Int)
    (id : MemoId) : (MemoRow.ofMemo id (r.toMemo owner options now)).memo = {
      id := id
      uid := r.uid
      creatorId := owner
      rowStatus := .normal
      content := r.content
      visibility := (Visibility.ofName? r.visibility).getD .ownerOnly
      pinned := r.pinned
      payload := .ofContent r.content r.location
      createdTs := if options.preserveTimestamps then r.createdAt.seconds else now
      updatedTs := if options.preserveTimestamps then r.updatedAt.seconds else now
      displayTs := r.displayTime.map Instant.seconds } := by
  have finite : (r.toMemo owner options now).payload.IsFinite := hf
  rw [MemoRow.memo_ofMemo finite, MemoRecord.toMemo, r.knownVisibility_fst, MemoRecord.times]
  cases options.preserveTimestamps <;> rfl

theorem mergeLaw_mergedAll (hs : s.WellFormed) (hl : s.contentLimit = .ok limit)
    (hv : options.validateOnly = false) (known : s.users.any (·.id = owner) = true) (now : Int)
    {records : List MemoRecord} (hf : ∀ r ∈ records, r.IsFinite) (uid : String) :
    MergeLaw s (s.mergedAll owner options now records) owner options now uid
      (counting limit uid records) := by
  have finite : ∀ r ∈ counting limit uid records, r.IsFinite := fun r h =>
    hf r (List.mem_of_mem_filter h)
  have key : ∀ r ∈ counting limit uid records, r.uid = uid := fun r h =>
    (of_decide_eq_true (List.mem_filter.1 h).2).1
  refine ⟨fun hc => rowByUid?_mergedAll_of_counting_nil hs hl hc owner options now, ?_, ?_, ?_, ?_⟩
  · intro keep row h
    rw [rowByUid?_mergedAll_stored hs hl hv h owner now records, if_neg (by simp [keep])]
  · intro keep h first hc
    obtain ⟨rest, e⟩ := List.head?_eq_some_iff.1 hc
    have mem := List.mem_of_head? hc
    obtain ⟨id, later, row⟩ := rowByUid?_mergedAll_new hs hl hv known h now e
    refine ⟨id, later, ?_⟩
    rw [memoByUid?, row, if_neg (by simp [keep]), Option.map_some,
      memo_ofMemo_toMemo (finite first mem), key first mem]
  · intro overwrite m h last hc
    obtain ⟨row, stored, rfl⟩ := Option.map_eq_some_iff.1 h
    obtain ⟨init, e⟩ := List.getLast?_eq_some_iff.1 hc
    have mem := List.mem_of_getLast? hc
    rw [memoByUid?, rowByUid?_mergedAll_stored hs hl hv stored owner now records,
      if_pos overwrite, e, Option.map_some, row.memo_overwritten init (finite last mem)]
  · intro overwrite h last hc
    obtain ⟨init, e⟩ := List.getLast?_eq_some_iff.1 hc
    have mem := List.mem_of_getLast? hc
    cases init with
    | nil =>
      obtain ⟨id, later, row⟩ := rowByUid?_mergedAll_new hs hl hv known h now e
      refine ⟨id, later, ?_⟩
      rw [memoByUid?, row, if_pos overwrite, e, Option.map_some, MemoRow.overwritten_nil,
        memo_ofMemo_toMemo (finite last mem), key last mem]
      simp [lastDisplay]
    | cons first init =>
      rw [List.cons_append] at e
      have mem' : first ∈ counting limit uid records := e ▸ List.mem_cons_self
      obtain ⟨id, later, row⟩ := rowByUid?_mergedAll_new hs hl hv known h now e
      refine ⟨id, later, ?_⟩
      rw [memoByUid?, row, if_pos overwrite, e, Option.map_some,
        MemoRow.memo_overwritten _ init (finite last mem), memo_ofMemo_toMemo (finite first mem'),
        key first mem', lastDisplay_cons first]
      cases options.preserveTimestamps <;> simp

/-- **An import obeys the law.** It goes through, no other table changes, and each text key has at
most one memo. -/
theorem importAs_merges (hs : s.WellFormed) (hl : s.contentLimit = .ok limit) {username : String}
    {user : User} (hu : s.user? username = some user) {request : ImportRequest}
    {snapshot : Snapshot} (hr : request.snapshot = .ok snapshot)
    (hv : request.options.validateOnly = false) (now : Int) :
    ∃ report t, s.importAs username request now = (.ok report, t) ∧ t.WellFormed ∧
      (∃ memos last, t = { s with memos := memos, lastMemo := last }) ∧
      ∀ uid, MergeLaw s t user.id request.options now uid
        (counting limit uid snapshot.records) := by
  obtain ⟨report, h⟩ := importAs_ends hs hu hr now
  have known := any_id_of_user? hu
  have finite := request.isFinite_snapshot hr
  exact ⟨report, _, h, hs.mergedAll user.id request.options now snapshot.records,
    exists_mergedAll_eq s user.id request.options now snapshot.records,
    mergeLaw_mergedAll hs hl hv known now finite⟩

/-- A store with a single user. -/
def lone : Store := { users := [⟨1, "alice"⟩], lastUser := 1 }

/-- A snapshot in which a text key comes twice, the second time without a display time. -/
def repeating : Snapshot := .ofRecords .epoch
  [⟨"a", "one", "PUBLIC", true, .epoch, .epoch, some .epoch, ["x"], none, [], []⟩,
    ⟨"a", "two", "SECRET", false, .epoch, .epoch, none, ["y"], none, [], []⟩]

theorem importAs_merges_repeating :
    ∃ report t id, lone.importAs "alice"
        ⟨repeating.encode, "", { overwriteExisting := true, preserveTimestamps := false }⟩ 60 =
      (.ok report, t) ∧ t.memoByUid? "a" = some {
        id := id
        uid := "a"
        creatorId := 1
        rowStatus := .normal
        content := "two"
        visibility := .ownerOnly
        pinned := false
        payload := ⟨["y"], .ofContent "two", none⟩
        createdTs := 60
        updatedTs := 60
        displayTs := some 0 } := by
  have keys : lone.WellFormed := WellFormed.empty.of_memos rfl rfl
  have known : lone.user? "alice" = some ⟨1, "alice"⟩ := rfl
  have finite : repeating.IsFinite := by decide
  have brought : (ImportRequest.mk repeating.encode ""
      { overwriteExisting := true, preserveTimestamps := false }).snapshot = .ok repeating :=
    ImportRequest.snapshot_encode finite "" _
  obtain ⟨report, t, h, -, -, law⟩ := importAs_merges keys rfl known brought rfl 60
  have counts : counting defaultContentLimit "a" repeating.records = repeating.records := by
    decide
  have made := (law "a").createdOver rfl rfl
  rw [counts] at made
  obtain ⟨id, -, e⟩ := made _ rfl
  exact ⟨report, t, id, h, e⟩

end Store

end MemoTransfer
