import MemoTransfer.Proofs.Transfer.DryRun

/-!
# Importing the same snapshot again

A second import of a request finds the memos that the first one has left. If memos are kept, it
writes nothing: a record whose memo is stored is rejected because of that, and every other one for
the reason for which it was rejected before (`Store.importAs_again`). If memos are overwritten,
every record that is fit has a stored memo by then (`Store.Settled`), so that nothing is created;
and as records that are written over a row once more leave it as it is
(`MemoRow.overwritten_overwritten`), a third import changes nothing.
-/

namespace MemoTransfer

/-! ## What a report says of accepted and rejected records -/

/-- The warnings of an accepted record or the reason of a rejection, whatever was done. -/
def Verdict.told (v : Verdict) : Except Rejection (List String) := v.map Prod.snd

theorem Verdict.toOption_told (v : Verdict) : v.told.toOption = v.toOption.map Prod.snd := by
  cases v <;> rfl

/-- Why a record was rejected, from what is told. -/
def Verdict.rejectionTold? : Except Rejection (List String) → Option Rejection
  | .ok _ => none
  | .error rejection => some rejection

theorem Verdict.rejectionTold?_told (v : Verdict) : rejectionTold? v.told = v.rejection? := by
  cases v <;> rfl

namespace ImportReport

theorem map_accepted (report : ImportReport) :
    (report.verdicts.filterMap Except.toOption).map Prod.snd =
      (report.verdicts.map Verdict.told).filterMap Except.toOption := by
  rw [List.map_filterMap, List.filterMap_map]
  congr 1
  funext v
  exact (Verdict.toOption_told v).symm

theorem rejections_eq_told (report : ImportReport) :
    report.rejections = (report.verdicts.map Verdict.told).filterMap Verdict.rejectionTold? := by
  rw [rejections_eq, List.filterMap_map]
  congr 1
  funext v
  exact (Verdict.rejectionTold?_told v).symm

/-- Reports that tell the same of each record have the same number of imported records, the same
errors and the same warnings. -/
theorem response_congr {a b : ImportReport}
    (same : a.verdicts.map Verdict.told = b.verdicts.map Verdict.told) (elapsed elapsed' : Nat) :
    (a.response elapsed).importedCount = (b.response elapsed').importedCount ∧
      (a.response elapsed).errors = (b.response elapsed').errors ∧
      (a.response elapsed).warnings = (b.response elapsed').warnings := by
  have accepted : (a.verdicts.filterMap Except.toOption).map Prod.snd =
      (b.verdicts.filterMap Except.toOption).map Prod.snd := by
    rw [a.map_accepted, b.map_accepted, same]
  have rejected : a.rejections = b.rejections := by
    rw [a.rejections_eq_told, b.rejections_eq_told, same]
  have counted := congrArg List.length accepted
  have warned := congrArg List.flatten accepted
  simp only [List.length_map] at counted
  rw [← List.flatMap_def, ← List.flatMap_def] at warned
  simp only [response_eq]
  exact ⟨by rw [counted], by rw [rejected], warned⟩

/-- A report of updates alone counts no memo as created and every imported one as updated. -/
theorem response_updated (report : ImportReport)
    (h : ∀ v ∈ report.verdicts, ∀ d ∈ v.disposition?, d = .updated) (elapsed : Nat) :
    (report.response elapsed).createdCount = 0 ∧
      (report.response elapsed).updatedCount = (report.response elapsed).importedCount := by
  have each : ∀ x ∈ report.verdicts.filterMap Except.toOption, x.1.disposition = .updated := by
    intro x hx
    obtain ⟨v, hv, e⟩ := List.mem_filterMap.1 hx
    cases v with
    | error rejection => cases e
    | ok y =>
      cases e
      exact h _ hv _ rfl
  have created : report.verdicts.countP (·.disposition? = some .created) = 0 := by
    rw [← Verdict.countP_accepted, List.countP_eq_zero]
    intro x hx
    simp [each x hx]
  have updated : report.verdicts.countP (·.disposition? = some .updated) =
      (report.verdicts.filterMap Except.toOption).length := by
    rw [← Verdict.countP_accepted, List.countP_eq_length]
    intro x hx
    simp [each x hx]
  rw [response_eq, created, updated]
  exact ⟨rfl, rfl⟩

end ImportReport

/-! ## Rows that are written over twice -/

namespace MemoRow

variable {options : ImportOptions}

/-- The last record decides what the row says. -/
theorem overwritten_concat_eq (t : MemoRow) (records : List MemoRecord) (last : MemoRecord) :
    t.overwritten options (records ++ [last]) =
      { t with
        content := last.content
        visibility := last.knownVisibility.1.name
        pinned := last.pinned
        payload := { Payload.ofContent last.content last.location with tags := last.tags }.write
        createdTs := if options.preserveTimestamps then last.createdAt.seconds else t.createdTs
        updatedTs := if options.preserveTimestamps then last.updatedAt.seconds else t.updatedTs
        displayTs := (lastDisplay (records ++ [last])).or t.displayTs } := by
  obtain ⟨id, uid, creatorId, rowStatus⟩ := t.overwritten_keys options records
  have display := t.overwritten_displayTs options (records ++ [last])
  rw [overwritten_concat] at display ⊢
  rw [← display]
  cases h : options.preserveTimestamps with
  | true => simp [patch, MemoRecord.toPatch, *]
  | false =>
    obtain ⟨created, updated⟩ := t.overwritten_times h records
    simp [patch, MemoRecord.toPatch, *]

/-- **Records that are written over a row a second time leave it as it is.** -/
theorem overwritten_overwritten (t : MemoRow) (records : List MemoRecord) :
    (t.overwritten options records).overwritten options records =
      t.overwritten options records := by
  induction records using List.reverseRecOn with
  | nil => rfl
  | append_singleton records last _ =>
    rw [overwritten_concat_eq _ records last, overwritten_concat_eq t records last]
    cases lastDisplay (records ++ [last]) <;> cases options.preserveTimestamps <;> rfl

end MemoRow

namespace Store

variable {s t : Store} {owner : UserId} {options : ImportOptions} {now : Int} {r : MemoRecord}
  {records : List MemoRecord} {limit : Nat} {e : Error}

/-! ## Refused records -/

theorem merged_of_refusal (h : s.refusal? options r = some e) (owner : UserId) (now : Int) :
    s.merged owner options now r = s :=
  merged_of_refused (by rw [admits_eq, h]; rfl) owner now

theorem verdict_of_refusal (h : s.refusal? options r = some e) (owner : UserId) :
    s.verdict owner options r = .error ⟨r.uid, e⟩ := by
  rw [verdict, h]

/-- Records that change nothing are all imported into the same store. -/
theorem mergedAll_of_same (h : ∀ r ∈ records, s.merged owner options now r = s) :
    s.mergedAll owner options now records = s ∧
      s.verdicts owner options now records = records.map (s.verdict owner options) := by
  induction records with
  | nil => exact ⟨rfl, rfl⟩
  | cons r records ih =>
    rw [List.forall_mem_cons] at h
    obtain ⟨merged, verdicts⟩ := ih h.2
    rw [mergedAll_cons, Store.verdicts, h.1, merged, verdicts]
    exact ⟨rfl, rfl⟩

/-- A record without a stored memo is never refused because of one. -/
theorem ne_memoAlreadyExists (absent : s.rowByUid? r.uid = none)
    (h : s.refusal? options r = some e) (uid : String) : e ≠ .memoAlreadyExists uid := by
  rw [refusal?, absent] at h
  rintro rfl
  cases hl : s.contentLimit with
  | error e' => simp [hl, Error.during] at h
  | ok limit => simp [hl] at h

/-- The memo of a record that is fit is stored once it has been imported. -/
theorem isSome_rowByUid?_merged_of_fit (real : options.validateOnly = false)
    (known : s.users.any (·.id = owner) = true) (fit : s.refusal? options r = none) (now : Int) :
    ((s.merged owner options now r).rowByUid? r.uid).isSome = true := by
  have admitted : s.admits options r = true := by
    rw [admits_eq, fit]
    rfl
  cases stored : s.rowByUid? r.uid with
  | some row =>
    apply isSome_rowByUid?_merged
    rw [stored, Option.isSome_some]
  | none =>
    have same : (r.toMemo owner options now).uid = r.uid := rfl
    rw [merged_of_new real admitted stored known, rowByUid?_withRow, stored, Option.none_or,
      if_pos same, Option.isSome_some]

/-- The memo of a record that was fit when it was imported is stored from then on. -/
theorem isSome_rowByUid?_mergedAll_of_fit (real : options.validateOnly = false)
    (known : s.users.any (·.id = owner) = true) {i : ℕ} (hr : records[i]? = some r)
    (fit : (s.mergedAll owner options now (records.take i)).refusal? options r = none) :
    ((s.mergedAll owner options now records).rowByUid? r.uid).isSome = true := by
  have known' : (s.mergedAll owner options now (records.take i)).users.any (·.id = owner) =
      true := by
    rw [users_mergedAll, known]
  rw [mergedAll_split s owner options now hr]
  exact isSome_rowByUid?_mergedAll (isSome_rowByUid?_merged_of_fit real known' fit now) owner
    options now _

/-! ## Memos that are kept -/

/-- A record whose memo is not stored in the end was refused, for a reason that stays. -/
theorem exists_refusal_of_absent (real : options.validateOnly = false)
    (known : s.users.any (·.id = owner) = true) {i : ℕ} (hr : records[i]? = some r)
    (absent : (s.mergedAll owner options now records).rowByUid? r.uid = none) :
    ∃ e, (s.mergedAll owner options now (records.take i)).refusal? options r = some e ∧
      (s.mergedAll owner options now records).refusal? options r = some e ∧
      ∀ uid, e ≠ .memoAlreadyExists uid := by
  -- a memo that is stored on the way would be stored in the end
  have before : (s.mergedAll owner options now (records.take i)).rowByUid? r.uid = none := by
    cases stored : (s.mergedAll owner options now (records.take i)).rowByUid? r.uid with
    | none => rfl
    | some row =>
      have there : ((s.mergedAll owner options now (records.take i)).rowByUid? r.uid).isSome =
          true := by
        rw [stored, Option.isSome_some]
      have later := isSome_rowByUid?_mergedAll there owner options now (records.drop i)
      rw [← mergedAll_append, List.take_append_drop, absent] at later
      cases later
  cases fit : (s.mergedAll owner options now (records.take i)).refusal? options r with
  | none =>
    have there := isSome_rowByUid?_mergedAll_of_fit real known hr fit
    rw [absent] at there
    cases there
  | some e =>
    refine ⟨e, rfl, ?_, ne_memoAlreadyExists before fit⟩
    rw [← fit]
    apply refusal?_congr
    · rw [contentLimit_mergedAll, contentLimit_mergedAll]
    · rw [absent, before]
      exact .inr rfl

/-- If memos are kept, every record of a snapshot that has been imported is refused. -/
theorem exists_refusal_of_kept (real : options.validateOnly = false)
    (keep : options.overwriteExisting = false) (known : s.users.any (·.id = owner) = true)
    (now : Int) (hr : r ∈ records) :
    ∃ e, (s.mergedAll owner options now records).refusal? options r = some e := by
  obtain ⟨i, hi⟩ := List.mem_iff_getElem?.1 hr
  cases stored : (s.mergedAll owner options now records).rowByUid? r.uid with
  | some row =>
    refine ⟨_, refusal?_of_stored keep ?_⟩
    rw [stored, Option.isSome_some]
  | none =>
    obtain ⟨e, -, refused, -⟩ := exists_refusal_of_absent real known hi stored
    exact ⟨e, refused⟩

/-- If memos are kept, a snapshot that has been imported changes nothing. -/
theorem mergedAll_of_kept (real : options.validateOnly = false)
    (keep : options.overwriteExisting = false) (known : s.users.any (·.id = owner) = true)
    (now now' : Int) (records : List MemoRecord) :
    (s.mergedAll owner options now records).mergedAll owner options now' records =
        s.mergedAll owner options now records ∧
      (s.mergedAll owner options now records).verdicts owner options now' records =
        records.map ((s.mergedAll owner options now records).verdict owner options) := by
  refine mergedAll_of_same fun r hr => ?_
  obtain ⟨e, refused⟩ := exists_refusal_of_kept real keep known now hr
  exact merged_of_refusal refused owner now'

/-- If memos are kept, a record that is imported again is rejected because its memo exists if and
only if the memo is stored, and otherwise as it was before. -/
theorem rejection?_again (real : options.validateOnly = false)
    (keep : options.overwriteExisting = false) (known : s.users.any (·.id = owner) = true)
    {i : ℕ} {v v' : Verdict} (hr : records[i]? = some r)
    (hv : (s.verdicts owner options now records)[i]? = some v)
    (hv' : (records.map ((s.mergedAll owner options now records).verdict owner options))[i]? =
      some v') :
    (((s.mergedAll owner options now records).rowByUid? r.uid).isSome = true ↔
        v'.rejection? = some ⟨r.uid, .memoAlreadyExists r.uid⟩) ∧
      ((s.mergedAll owner options now records).rowByUid? r.uid = none →
        v'.rejection?.isSome = true ∧ v'.rejection? = v.rejection?) := by
  have known' (records : List MemoRecord) :
      (s.mergedAll owner options now records).users.any (·.id = owner) = true := by
    rw [users_mergedAll, known]
  rw [getElem?_verdicts, hr] at hv
  rw [List.getElem?_map, hr] at hv'
  cases hv
  cases hv'
  rw [rejection?_verdict (known' _), rejection?_verdict (known' _)]
  cases stored : (s.mergedAll owner options now records).rowByUid? r.uid with
  | some row =>
    have there : ((s.mergedAll owner options now records).rowByUid? r.uid).isSome = true := by
      rw [stored, Option.isSome_some]
    rw [refusal?_of_stored keep there]
    simp
  | none =>
    obtain ⟨e, before, after, other⟩ := exists_refusal_of_absent real known hr stored
    rw [before, after]
    simp [other]

/-! ## Memos that are overwritten -/

/-- Every record that is fit has a stored memo. -/
def Settled (s : Store) (options : ImportOptions) (records : List MemoRecord) : Prop :=
  ∀ r ∈ records, s.refusal? options r = none → (s.rowByUid? r.uid).isSome = true

theorem refusal?_merged (overwrite : options.overwriteExisting = true) (s : Store) (owner : UserId)
    (now : Int) (r r' : MemoRecord) :
    (s.merged owner options now r').refusal? options r = s.refusal? options r :=
  refusal?_congr (contentLimit_merged s owner options now r') (.inl overwrite)

theorem refusal?_mergedAll (overwrite : options.overwriteExisting = true) (s : Store)
    (owner : UserId) (now : Int) (records : List MemoRecord) (r : MemoRecord) :
    (s.mergedAll owner options now records).refusal? options r = s.refusal? options r :=
  refusal?_congr (contentLimit_mergedAll s owner options now records) (.inl overwrite)

/-- Records that have been imported are settled. -/
theorem settled_mergedAll (real : options.validateOnly = false)
    (overwrite : options.overwriteExisting = true) (known : s.users.any (·.id = owner) = true)
    (now : Int) (records : List MemoRecord) :
    (s.mergedAll owner options now records).Settled options records := by
  intro r hr fit
  obtain ⟨i, hi⟩ := List.mem_iff_getElem?.1 hr
  refine isSome_rowByUid?_mergedAll_of_fit real known hi ?_
  rw [refusal?_mergedAll overwrite] at fit ⊢
  exact fit

theorem Settled.merged (h : s.Settled options records)
    (overwrite : options.overwriteExisting = true) (owner : UserId) (now : Int) (r : MemoRecord) :
    (s.merged owner options now r).Settled options records := by
  intro r' hr fit
  rw [refusal?_merged overwrite] at fit
  exact isSome_rowByUid?_merged (h r' hr fit) owner options now r

theorem Settled.mergedAll (h : s.Settled options records)
    (overwrite : options.overwriteExisting = true) (owner : UserId) (now : Int)
    (records' : List MemoRecord) :
    (s.mergedAll owner options now records').Settled options records := by
  intro r hr fit
  rw [refusal?_mergedAll overwrite] at fit
  exact isSome_rowByUid?_mergedAll (h r hr fit) owner options now records'

/-- What is told of records that are overwritten depends on the limit alone. -/
theorem map_told_verdicts (overwrite : options.overwriteExisting = true)
    (real : options.validateOnly = false) (known : s.users.any (·.id = owner) = true) (now : Int)
    (records : List MemoRecord) :
    (s.verdicts owner options now records).map Verdict.told = records.map fun r =>
      (s.refusal? options r).elim (.ok (r.warnings options)) fun e => .error ⟨r.uid, e⟩ := by
  have one (s : Store) (known : s.users.any (·.id = owner) = true) (r : MemoRecord) :
      (s.verdict owner options r).told =
        (s.refusal? options r).elim (.ok (r.warnings options)) fun e => .error ⟨r.uid, e⟩ := by
    have step := s.reconciled owner options now r
    generalize s.verdict owner options r = v, s.merged owner options now r = t at step ⊢
    cases step with
    | refused unfit =>
      rw [unfit]
      rfl
    | validated _ dry =>
      rw [real] at dry
      cases dry
    | updated fit _ _ =>
      rw [fit]
      rfl
    | created fit _ _ _ =>
      rw [fit]
      rfl
    | unowned _ _ _ unknown =>
      rw [known] at unknown
      cases unknown
  induction records generalizing s with
  | nil => rfl
  | cons r records ih =>
    have known' : (s.merged owner options now r).users.any (·.id = owner) = true := by
      rw [users_merged, known]
    simp only [Store.verdicts, List.map_cons, one s known, ih known', refusal?_merged overwrite]

/-- A record that is settled updates its memo, or is refused. -/
theorem Settled.verdicts_eq (h : s.Settled options records)
    (overwrite : options.overwriteExisting = true) (real : options.validateOnly = false)
    (owner : UserId) (now : Int) :
    s.verdicts owner options now records = records.map fun r =>
      (s.refusal? options r).elim (.ok (⟨.updated, 0, 0⟩, r.warnings options)) fun e =>
        .error ⟨r.uid, e⟩ := by
  induction records generalizing s with
  | nil => rfl
  | cons r records ih =>
    have first : s.verdict owner options r =
        (s.refusal? options r).elim (.ok (⟨.updated, 0, 0⟩, r.warnings options)) fun e =>
          .error ⟨r.uid, e⟩ := by
      cases refused : s.refusal? options r with
      | some e => exact verdict_of_refusal refused owner
      | none =>
        rw [verdict, refused, real, h r List.mem_cons_self refused]
        rfl
    have further : (s.merged owner options now r).Settled options records := fun r' hr =>
      h.merged overwrite owner now r r' (List.mem_cons_of_mem r hr)
    rw [Store.verdicts, List.map_cons, first, ih further]
    simp only [refusal?_merged overwrite]

/-- Settled records are reported as updated if they are accepted. -/
theorem Settled.eq_updated (h : s.Settled options records)
    (overwrite : options.overwriteExisting = true) (real : options.validateOnly = false)
    (owner : UserId) (now : Int) :
    ∀ v ∈ s.verdicts owner options now records, ∀ d ∈ v.disposition?, d = .updated := by
  rw [h.verdicts_eq overwrite real]
  refine List.forall_mem_map.2 fun r _ d hd => ?_
  cases refused : s.refusal? options r with
  | some e =>
    rw [refused] at hd
    cases hd
  | none =>
    rw [refused] at hd
    exact (Option.some.inj hd).symm

/-- What is reported of settled records is reported again. -/
theorem Settled.verdicts_mergedAll (h : s.Settled options records)
    (overwrite : options.overwriteExisting = true) (real : options.validateOnly = false)
    (owner : UserId) (now now' : Int) :
    (s.mergedAll owner options now records).verdicts owner options now' records =
      s.verdicts owner options now records := by
  rw [(h.mergedAll overwrite owner now records).verdicts_eq overwrite real,
    h.verdicts_eq overwrite real]
  simp only [refusal?_mergedAll overwrite]

/-- What is told of records is told again. -/
theorem map_told_again (overwrite : options.overwriteExisting = true)
    (real : options.validateOnly = false) (known : s.users.any (·.id = owner) = true)
    (now now' : Int) (records : List MemoRecord) :
    ((s.mergedAll owner options now records).verdicts owner options now' records).map
        Verdict.told = (s.verdicts owner options now records).map Verdict.told := by
  have known' : (s.mergedAll owner options now records).users.any (·.id = owner) = true := by
    rw [users_mergedAll, known]
  rw [map_told_verdicts overwrite real known', map_told_verdicts overwrite real known]
  simp only [refusal?_mergedAll overwrite]

/-- What a record that is fit and has a stored memo does to each row. -/
theorem memos_withPatch_toPatch (hs : s.WellFormed) {row : MemoRow}
    (stored : s.rowByUid? r.uid = some row) (options : ImportOptions) :
    (s.withPatch (r.toPatch row.id options)).memos = s.memos.map fun t =>
      if r.uid = t.uid then t.patch (r.toPatch t.id options) else t := by
  obtain ⟨mem, key⟩ := mem_of_rowByUid? stored
  refine List.map_congr_left fun t ht => ?_
  by_cases same : r.uid = t.uid
  · obtain rfl : row = t := Option.some.inj (stored.symm.trans (same ▸ hs.rowByUid?_eq ht))
    have here : row.id = (r.toPatch row.id options).id := rfl
    rw [if_pos same, if_pos here]
  · have other : t.id ≠ (r.toPatch row.id options).id := by
      intro e
      obtain rfl : t = row := hs.eq_of_id ht mem e
      exact same key.symm
    rw [if_neg same, if_neg other]

/-- **What settled records do to the store**: each row is written over with the records that count
for it. -/
theorem Settled.mergedAll_eq (h : s.Settled options records) (hs : s.WellFormed)
    (hl : s.contentLimit = .ok limit) (overwrite : options.overwriteExisting = true)
    (real : options.validateOnly = false) (owner : UserId) (now : Int) :
    s.mergedAll owner options now records = { s with
      memos := s.memos.map fun t => t.overwritten options (counting limit t.uid records) } := by
  induction records generalizing s with
  | nil => simp
  | cons r records ih =>
    have further : (s.merged owner options now r).Settled options records := fun r' hr =>
      h.merged overwrite owner now r r' (List.mem_cons_of_mem r hr)
    have limit' := (s.contentLimit_merged owner options now r).trans hl
    rw [mergedAll_cons, ih further (hs.merged owner options now r) limit']
    by_cases short : byteLength r.content ≤ limit
    · have admitted : s.admits options r = true := by
        simp [admits, hl, overwrite, short]
      have fit : s.refusal? options r = none := by
        rw [admits_eq] at admitted
        simpa using admitted
      obtain ⟨row, stored⟩ := Option.isSome_iff_exists.1 (h r List.mem_cons_self fit)
      have merged := merged_of_stored real admitted stored owner now
      have memos := memos_withPatch_toPatch hs stored options
      have rows : (s.withPatch (r.toPatch row.id options)).memos.map
          (fun t => t.overwritten options (counting limit t.uid records)) =
          s.memos.map fun t => t.overwritten options (counting limit t.uid (r :: records)) := by
        rw [memos, List.map_map]
        refine List.map_congr_left fun t _ => ?_
        by_cases same : r.uid = t.uid <;> simp [counting_cons, MemoRecord.Counts, same, short]
      rw [merged, rows]
      rfl
    · have rows (t : MemoRow) : counting limit t.uid (r :: records) =
          counting limit t.uid records := by
        rw [counting_cons, if_neg fun counts => short counts.2]
      simp only [merged_of_long hl short, rows]

/-- **Settled records that are imported once more change nothing.** -/
theorem Settled.mergedAll_mergedAll (h : s.Settled options records) (hs : s.WellFormed)
    (overwrite : options.overwriteExisting = true) (real : options.validateOnly = false)
    (owner : UserId) (now now' : Int) :
    (s.mergedAll owner options now records).mergedAll owner options now' records =
      s.mergedAll owner options now records := by
  cases hl : s.contentLimit with
  | error e =>
    have refused (r : MemoRecord) : s.refusal? options r =
        some (Error.during "get content length limit" e) := by
      simp [refusal?, hl, overwrite]
    have same (now : Int) : s.mergedAll owner options now records = s :=
      (mergedAll_of_same fun r _ => merged_of_refusal (refused r) owner now).1
    rw [same, same]
  | ok limit =>
    have first := h.mergedAll_eq hs hl overwrite real owner now
    have settled := h.mergedAll overwrite owner now records
    have limit' := (s.contentLimit_mergedAll owner options now records).trans hl
    rw [settled.mergedAll_eq (hs.mergedAll owner options now records) limit' overwrite real owner
      now', first]
    simp only [List.map_map]
    congr 1
    refine List.map_congr_left fun t _ => ?_
    have key := (t.overwritten_keys options (counting limit t.uid records)).2.1
    rw [Function.comp_apply, key, t.overwritten_overwritten]

/-! ## The whole request -/

variable {username : String} {request : ImportRequest} {snapshot : Snapshot}
  {first : ImportReport}

/-- An import that fails fails again, and nothing has changed. -/
theorem importAs_error_again (hs : s.WellFormed)
    (h : s.importAs username request now = (.error e, t)) (now' : Int) :
    t = s ∧ t.importAs username request now' = (.error e, t) := by
  cases hu : s.user? username with
  | none =>
    cases (importAs_of_unknown hu request now).symm.trans h
    exact ⟨rfl, importAs_of_unknown hu request now'⟩
  | some user =>
    cases hr : request.snapshot with
    | error e' =>
      cases (importAs_of_error hu hr now).symm.trans h
      exact ⟨rfl, importAs_of_error hu hr now'⟩
    | ok snapshot => cases (importAs_eq hs hu hr now).symm.trans h

/-- What an import that goes through has done. -/
theorem of_importAs_ok (hs : s.WellFormed) (hr : request.snapshot = .ok snapshot)
    (h : s.importAs username request now = (.ok first, t)) :
    ∃ user, s.user? username = some user ∧
      first = ⟨s.verdicts user.id request.options now snapshot.records,
        request.options.validateOnly⟩ ∧
      t = s.mergedAll user.id request.options now snapshot.records := by
  cases hu : s.user? username with
  | none => cases (importAs_of_unknown hu request now).symm.trans h
  | some user =>
    cases (importAs_eq hs hu hr now).symm.trans h
    exact ⟨user, rfl, rfl, rfl⟩

/-- **A request that is imported again.** If it fails, it fails again. Otherwise, if memos are kept,
the second import writes nothing and imports nothing: a record is rejected because its memo exists
if and only if the memo is stored, and every other one for the reason of the first import. If memos
are overwritten, the second import creates nothing and updates the memos of the records that the
first one has imported, with the same errors and warnings; and a third import leaves the store as
it is and reports the same. -/
theorem importAs_again (hs : s.WellFormed) (real : request.options.validateOnly = false)
    (now now' now'' : Int) :
    (∀ e t, s.importAs username request now = (.error e, t) →
      t = s ∧ t.importAs username request now' = (.error e, t)) ∧
    ∀ snapshot first t, request.snapshot = .ok snapshot →
      s.importAs username request now = (.ok first, t) →
      (request.options.overwriteExisting = false →
        ∃ second, t.importAs username request now' = (.ok second, t) ∧
          second.verdicts.length = snapshot.records.length ∧
          (∀ elapsed, (second.response elapsed).importedCount = 0) ∧
          ∀ (i : ℕ) (r : MemoRecord) (v v' : Verdict), snapshot.records[i]? = some r →
            first.verdicts[i]? = some v → second.verdicts[i]? = some v' →
            ((t.rowByUid? r.uid).isSome = true ↔
              v'.rejection? = some ⟨r.uid, .memoAlreadyExists r.uid⟩) ∧
            (t.rowByUid? r.uid = none →
              v'.rejection?.isSome = true ∧ v'.rejection? = v.rejection?)) ∧
      (request.options.overwriteExisting = true →
        ∃ second u, t.importAs username request now' = (.ok second, u) ∧
          u.importAs username request now'' = (.ok second, u) ∧
          ∀ elapsed elapsed', (second.response elapsed').createdCount = 0 ∧
            (second.response elapsed').importedCount = (first.response elapsed).importedCount ∧
            (second.response elapsed').errors = (first.response elapsed).errors ∧
            (second.response elapsed').warnings = (first.response elapsed).warnings ∧
            (second.response elapsed').updatedCount =
              (second.response elapsed').importedCount) := by
  refine ⟨fun e t h => importAs_error_again hs h now', fun snapshot first t hr h => ?_⟩
  obtain ⟨user, hu, rfl, rfl⟩ := of_importAs_ok hs hr h
  have known := any_id_of_user? hu
  have hs' := hs.mergedAll user.id request.options now snapshot.records
  have hu' : (s.mergedAll user.id request.options now snapshot.records).user? username =
      some user := by
    rw [user?, users_mergedAll]
    exact hu
  have second := importAs_eq hs' hu' hr now'
  refine ⟨fun keep => ?_, fun overwrite => ?_⟩
  · obtain ⟨same, each⟩ := mergedAll_of_kept (s := s) real keep known now now' snapshot.records
    rw [same, each] at second
    refine ⟨_, second, List.length_map _, fun elapsed => ?_, fun i r v v' hr hv hv' =>
      rejection?_again real keep known hr hv hv'⟩
    rw [ImportReport.response_eq, List.filterMap_eq_nil_iff.2]
    · rfl
    · refine List.forall_mem_map.2 fun r hr => ?_
      obtain ⟨e, refused⟩ := exists_refusal_of_kept (s := s) real keep known now hr
      rw [verdict_of_refusal refused]
      rfl
  · have settled := settled_mergedAll (s := s) real overwrite known now snapshot.records
    have third := importAs_eq (hs'.mergedAll user.id request.options now' snapshot.records)
      (by rw [user?, users_mergedAll]; exact hu') hr now''
    rw [settled.mergedAll_mergedAll hs' overwrite real user.id now' now'',
      settled.verdicts_mergedAll overwrite real user.id now' now''] at third
    refine ⟨_, _, second, third, fun elapsed elapsed' => ?_⟩
    obtain ⟨created, updated⟩ := ImportReport.response_updated ⟨_, request.options.validateOnly⟩
      (settled.eq_updated overwrite real user.id now') elapsed'
    obtain ⟨imported, errors, warnings⟩ := ImportReport.response_congr
      (a := ⟨_, request.options.validateOnly⟩) (b := ⟨_, request.options.validateOnly⟩)
      (map_told_again (s := s) overwrite real known now now' snapshot.records) elapsed' elapsed
    exact ⟨created, imported, errors, warnings, updated⟩

/-- A memo that a snapshot brings twice is created once, and from then on updated twice. -/
theorem importAs_again_repeating : ∃ first second t u,
    lone.importAs "alice" ⟨repeating.encode, "", { overwriteExisting := true }⟩ 0 =
        (.ok first, t) ∧
      t.importAs "alice" ⟨repeating.encode, "", { overwriteExisting := true }⟩ 60 =
        (.ok second, u) ∧
      u.importAs "alice" ⟨repeating.encode, "", { overwriteExisting := true }⟩ 120 =
        (.ok second, u) ∧
      (first.response 0).createdCount = 1 ∧ (second.response 0).createdCount = 0 ∧
      (second.response 0).updatedCount = 2 := by
  have keys : lone.WellFormed := WellFormed.empty.of_memos rfl rfl
  have known : lone.user? "alice" = some ⟨1, "alice"⟩ := rfl
  have finite : repeating.IsFinite := by decide
  have brought : (ImportRequest.mk repeating.encode "" { overwriteExisting := true }).snapshot =
      .ok repeating := ImportRequest.snapshot_encode finite "" _
  have run := importAs_eq keys known brought 0
  obtain ⟨-, again⟩ := @importAs_again lone "alice"
    ⟨repeating.encode, "", { overwriteExisting := true }⟩ keys rfl 0 60 120
  obtain ⟨second, u, next, last, counts⟩ := (again repeating _ _ brought run).2 rfl
  obtain ⟨created, imported, -, -, updated⟩ := counts 0 0
  refine ⟨_, second, _, u, run, next, last, by rfl, created, ?_⟩
  rw [updated, imported]
  rfl

end Store

end MemoTransfer
