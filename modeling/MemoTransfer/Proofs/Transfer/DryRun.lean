import MemoTransfer.Proofs.Transfer.Verdicts

/-!
# Dry runs

A dry run changes nothing, and it rejects the same records for the same reasons as the import that
it announces (`Store.importAs_dryRun`). The two drift apart only where a snapshot brings a text key
twice: if memos are not to be overwritten, the import has made the memo of the first record by the
time it comes to the second one, which is then rejected because the memo exists.
-/

namespace MemoTransfer

/-- The same request, as a dry run or not. -/
def ImportRequest.validating (request : ImportRequest) (only : Bool) : ImportRequest :=
  { request with options := { request.options with validateOnly := only } }

@[simp] theorem ImportRequest.snapshot_validating (request : ImportRequest) (only : Bool) :
    (request.validating only).snapshot = request.snapshot := rfl

/-- Before the record number `i` a memo with the text key was created. -/
def CreatedBefore (records : List MemoRecord) (verdicts : List Verdict) (i : ℕ) (uid : String) :
    Prop :=
  ∃ j < i, ∃ r v, records[j]? = some r ∧ r.uid = uid ∧ verdicts[j]? = some v ∧
    v.disposition? = some .created

namespace Store

variable {s t : Store} {owner : UserId} {options : ImportOptions} {now : Int} {r : MemoRecord}
  {records : List MemoRecord} {i j : ℕ}

/-! ## Nothing is written -/

theorem merged_of_validateOnly (h : options.validateOnly = true) (s : Store) (owner : UserId)
    (now : Int) (r : MemoRecord) : s.merged owner options now r = s := by
  simp [merged, h]

theorem mergedAll_of_validateOnly (h : options.validateOnly = true) (s : Store) (owner : UserId)
    (now : Int) (records : List MemoRecord) : s.mergedAll owner options now records = s := by
  induction records with
  | nil => rfl
  | cons r records ih => rw [mergedAll_cons, merged_of_validateOnly h, ih]

/-! ## What a refusal depends on -/

/-- A refusal depends on the limit, and on whether the memo is stored unless it is overwritten. -/
theorem refusal?_congr (limit : t.contentLimit = s.contentLimit)
    (stored : options.overwriteExisting = true ∨
      (t.rowByUid? r.uid).isSome = (s.rowByUid? r.uid).isSome) :
    t.refusal? options r = s.refusal? options r := by
  unfold refusal?
  rw [limit]
  rcases stored with overwrite | same
  · simp [overwrite]
  · rw [same]

theorem refusal?_of_stored (keep : options.overwriteExisting = false)
    (h : (s.rowByUid? r.uid).isSome = true) :
    s.refusal? options r = some (.memoAlreadyExists r.uid) := by
  simp [refusal?, keep, h]

/-! ## The records before -/

/-- The verdict on a record does not depend on those behind it. -/
theorem getElem?_verdicts_take (s : Store) (owner : UserId) (options : ImportOptions) (now : Int)
    (records : List MemoRecord) (h : j < i) :
    (s.verdicts owner options now (records.take i))[j]? =
      (s.verdicts owner options now records)[j]? := by
  rw [getElem?_verdicts, getElem?_verdicts, List.getElem?_take_of_lt h, List.take_take,
    Nat.min_eq_left h.le]

/-- A memo that is stored only after some of the records was created from one of them. -/
theorem createdBefore_of_isSome (hs : s.WellFormed) {uid : String} (free : s.rowByUid? uid = none)
    (h : ((s.mergedAll owner options now (records.take i)).rowByUid? uid).isSome = true) :
    CreatedBefore records (s.verdicts owner options now records) i uid := by
  obtain ⟨j, r, v, hr, key, hv, created⟩ := exists_created_of_isSome hs free h
  have earlier : j < i := by
    have inside := (List.getElem?_eq_some_iff.1 hr).1
    rw [List.length_take] at inside
    omega
  rw [List.getElem?_take_of_lt earlier] at hr
  rw [getElem?_verdicts_take s owner options now records earlier] at hv
  exact ⟨j, earlier, r, v, hr, key, hv, created⟩

/-- The memo of a record that was created before is stored when a record comes. -/
theorem isSome_of_createdBefore {uid : String}
    (h : CreatedBefore records (s.verdicts owner options now records) i uid) :
    ((s.mergedAll owner options now (records.take i)).rowByUid? uid).isSome = true := by
  obtain ⟨j, earlier, r, v, hr, rfl, hv, created⟩ := h
  exact isSome_of_created earlier hr hv created

/-- **The records before one do not decide on its refusal**, unless they have created its memo. -/
theorem refusal?_mergedAll_take (hs : s.WellFormed)
    (h : options.overwriteExisting = true ∨
      ¬CreatedBefore records (s.verdicts owner options now records) i r.uid) :
    (s.mergedAll owner options now (records.take i)).refusal? options r =
      s.refusal? options r := by
  apply refusal?_congr (contentLimit_mergedAll s owner options now _)
  apply h.imp_right
  intro unmade
  cases stored : s.rowByUid? r.uid with
  | some row =>
    apply isSome_rowByUid?_mergedAll
    rw [stored, Option.isSome_some]
  | none =>
    rw [Option.isSome_none, ← Bool.not_eq_true]
    exact fun made => unmade (createdBefore_of_isSome hs stored made)

variable {username : String} {user : User}

/-- **A dry run is without effect and foretells the import.** Nothing is written; a problem of the
whole request is the same in both; and each record is rejected by both or by neither, for the same
reason, except that one whose memo the import has created in the meantime is rejected because it
exists, if memos are not overwritten. -/
theorem importAs_dryRun (hs : s.WellFormed) (hu : s.user? username = some user)
    (request : ImportRequest) (now now' : Int) :
    (∀ e, request.snapshot = .error e →
      s.importAs username (request.validating true) now = (.error e, s) ∧
        s.importAs username (request.validating false) now' = (.error e, s)) ∧
    ∀ snapshot, request.snapshot = .ok snapshot → ∃ dry real t,
      s.importAs username (request.validating true) now = (.ok dry, s) ∧
      s.importAs username (request.validating false) now' = (.ok real, t) ∧
      dry.verdicts.length = snapshot.records.length ∧
      real.verdicts.length = snapshot.records.length ∧
      ∀ (i : ℕ) (r : MemoRecord) (foretold actual : Verdict), snapshot.records[i]? = some r →
        dry.verdicts[i]? = some foretold → real.verdicts[i]? = some actual →
        (request.options.overwriteExisting = true ∨
            ¬CreatedBefore snapshot.records real.verdicts i r.uid →
          foretold.rejection? = actual.rejection?) ∧
        (request.options.overwriteExisting = false →
            CreatedBefore snapshot.records real.verdicts i r.uid →
          actual.rejection? = some ⟨r.uid, .memoAlreadyExists r.uid⟩) := by
  constructor
  · intro e problem
    have same (only : Bool) := (request.snapshot_validating only).trans problem
    exact ⟨importAs_of_error hu (same true) now, importAs_of_error hu (same false) now'⟩
  · intro snapshot brought
    have same (only : Bool) := (request.snapshot_validating only).trans brought
    have dry := importAs_eq hs hu (same true) now
    rw [mergedAll_of_validateOnly rfl] at dry
    have real := importAs_eq hs hu (same false) now'
    refine ⟨_, _, _, dry, real, length_verdicts .., length_verdicts .., ?_⟩
    intro i r foretold actual inside hf ha
    have known := any_id_of_user? hu
    have known' := known
    rw [← users_mergedAll s user.id (request.validating false).options now'
      (snapshot.records.take i)] at known'
    rw [getElem?_verdicts, inside, mergedAll_of_validateOnly rfl] at hf
    rw [getElem?_verdicts, inside] at ha
    cases hf
    cases ha
    rw [rejection?_verdict known, rejection?_verdict known']
    constructor
    · intro apart
      rw [refusal?_mergedAll_take hs apart]
      rfl
    · intro keep created
      have keep' : (request.validating false).options.overwriteExisting = false := keep
      rw [refusal?_of_stored keep' (isSome_of_createdBefore created), Option.map_some]

/-- The request to import a snapshot in which a text key comes twice. -/
def repeatedly : ImportRequest := ⟨repeating.encode, "", {}⟩

/-- The dry run accepts the text key both times, and the import rejects it the second time. -/
theorem importAs_dryRun_repeating : ∃ dry real t,
    lone.importAs "alice" (repeatedly.validating true) 0 = (.ok dry, lone) ∧
      lone.importAs "alice" (repeatedly.validating false) 60 = (.ok real, t) ∧
      dry.rejections = [] ∧
      real.verdicts[1]?.bind Verdict.rejection? = some ⟨"a", .memoAlreadyExists "a"⟩ := by
  have keys : lone.WellFormed := WellFormed.empty.of_memos rfl rfl
  have known : lone.user? "alice" = some ⟨1, "alice"⟩ := rfl
  have finite : repeating.IsFinite := by decide
  have brought : repeatedly.snapshot = .ok repeating := ImportRequest.snapshot_encode finite "" _
  have same (only : Bool) := (repeatedly.snapshot_validating only).trans brought
  obtain ⟨dry, real, t, foretell, run, -, -, each⟩ :=
    (importAs_dryRun keys known repeatedly 0 60).2 repeating brought
  have dryVerdicts := foretell.symm.trans (importAs_eq keys known (same true) 0)
  have realVerdicts := run.symm.trans (importAs_eq keys known (same false) 60)
  simp only [Prod.mk.injEq, Except.ok.injEq] at dryVerdicts realVerdicts
  obtain ⟨⟨rfl, -⟩, ⟨rfl, rfl⟩⟩ := And.intro dryVerdicts realVerdicts
  refine ⟨_, _, _, foretell, run, by rfl, ?_⟩
  exact (each 1 _ _ _ rfl rfl rfl).2 rfl ⟨0, Nat.one_pos, _, _, rfl, rfl, rfl, rfl⟩

end Store

end MemoTransfer
