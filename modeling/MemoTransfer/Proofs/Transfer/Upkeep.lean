import MemoTransfer.Proofs.Transfer.Operations
import MemoTransfer.Proofs.Transfer.Verdicts

/-!
# What is kept of every memo

Whatever users do with a store, each of its memos stays in step with its own content: its property
is the one that the content has, and instants can name its times. Its content was let in when it was
written, so it is within a limit that was in force at some moment (`Store.served_upholds`), though
perhaps not within the present one. The limit in force is the one that was set last
(`AccountOperation.limit`).
-/

namespace MemoTransfer

open MemoTransfer.Calendar MemoTransfer.Number

/-! ## The limit in force -/

/-- The limit after the operation, given the one before it. -/
def AccountOperation.limit (before : Nat) : AccountOperation → Nat
  | setContentLimit limit => limit.toNat
  | _ => before

/-- The limit that operations leave in force: the last one that was set, or the default. -/
def limitAfter (ops : List AccountOperation) : Nat :=
  ops.foldl AccountOperation.limit Store.defaultContentLimit

theorem limitAfter_concat (ops : List AccountOperation) (op : AccountOperation) :
    limitAfter (ops ++ [op]) = op.limit (limitAfter ops) := by
  rw [limitAfter, List.foldl_concat, ← limitAfter]

theorem readUInt64?_natDigits (n : UInt64) : readUInt64? (natDigits n.toNat) = some n := by
  have plain : ∀ ds, natDigits n.toNat ≠ '+' :: ds := by
    intro ds h
    have digit := all_isDigit_natDigits n.toNat
    rw [h, List.all_cons, Bool.and_eq_true] at digit
    exact absurd digit.1 (by decide)
  have small : n.toNat < 2 ^ 64 := n.toNat_lt
  unfold readUInt64?
  split
  · rename_i ds h
    exact absurd h (plain ds)
  · rw [readNat?_natDigits]
    simp [small]

namespace Store

variable {s t u : Store}

/-- A setting has the value that it was given. -/
theorem setting?_setSetting (s : Store) (name value : String) :
    (s.setSetting name value).setting? name = some value := by
  unfold setSetting
  split
  · rename_i present
    unfold setting? at present ⊢
    generalize s.settings = settings at present
    induction settings with
    | nil => cases present
    | cons p settings ih =>
      obtain ⟨key, old⟩ := p
      by_cases same : name = key
      · subst same
        simp
      · simp only [List.map_cons, if_neg (Ne.symm same), List.lookup_cons,
          beq_eq_false_iff_ne.2 same] at present ⊢
        exact ih present
  · rename_i absent
    rw [Bool.not_eq_true, Option.isSome_eq_false_iff, Option.isNone_iff_eq_none] at absent
    unfold setting? at absent ⊢
    rw [List.lookup_append, absent]
    simp

theorem contentLimit_setContentLimit (s : Store) (limit : UInt64) :
    (s.setContentLimit limit.toNat).contentLimit = .ok limit.toNat := by
  rw [setContentLimit, contentLimit, setting?_setSetting]
  simp only [natText, String.toList_ofList, readUInt64?_natDigits]

/-- **The limit after an operation is the one that it sets, or the one before it.** -/
theorem Performed.contentLimit {op : AccountOperation} (h : s.Performed op t) {limit : Nat}
    (hl : s.contentLimit = .ok limit) : t.contentLimit = .ok (op.limit limit) := by
  cases h with
  | unchanged other =>
    have kept : op.limit limit = limit := by
      cases op with
      | setContentLimit limit => exact absurd rfl (other limit)
      | ensureUser | addMemo | archiveMemo | removeMemo | exportMemos | importMemos => rfl
    rw [kept, hl]
  | enrolled _ | written _ _ _ _ | archived _ | removed _ => exact hl
  | limited limit => exact s.contentLimit_setContentLimit limit
  | imported owner _ =>
    rw [contentLimit_mergedAll, hl]
    rfl

/-! ## Where contents come from -/

/-- Every content of the later store is one of the earlier store, or within its limit. -/
def Admits (s t : Store) : Prop :=
  ∀ r ∈ t.memos, (∃ r' ∈ s.memos, r'.content = r.content) ∨ s.Allows r.content

namespace Admits

theorem of_memos (h : t.memos ⊆ s.memos) : s.Admits t := fun r hr => .inl ⟨r, h hr, rfl⟩

theorem refl (s : Store) : s.Admits s := of_memos fun _ hr => hr

/-- The limit stays meanwhile. -/
theorem trans (h : s.Admits t) (limit : t.contentLimit = s.contentLimit) (h' : t.Admits u) :
    s.Admits u := by
  intro r hr
  rcases h' r hr with ⟨r', hr', e⟩ | ⟨n, hn, short⟩
  · rw [← e]
    exact h r' hr'
  · exact .inr ⟨n, limit ▸ hn, short⟩

theorem withRow {m : Memo} (h : s.Allows m.content) : s.Admits (s.withRow m) := by
  intro r hr
  rcases List.mem_append.1 hr with hr | hr
  · exact .inl ⟨r, hr, rfl⟩
  · rw [List.mem_singleton.1 hr]
    exact .inr h

theorem withPatch {p : MemoPatch} (h : ∀ content ∈ p.content, s.Allows content) :
    s.Admits (s.withPatch p) := by
  intro r hr
  obtain ⟨t, ht, rfl⟩ := List.mem_map.1 hr
  split
  · cases given : p.content with
    | none => exact .inl ⟨t, ht, by rw [MemoRow.patch, given]; rfl⟩
    | some content =>
      rw [MemoRow.patch, given]
      exact .inr (h content given)
  · exact .inl ⟨t, ht, rfl⟩

end Admits

/-- A record that is not refused has a content within the limit. -/
theorem allows_of_fit {options : ImportOptions} {r : MemoRecord}
    (fit : s.refusal? options r = none) : s.Allows r.content := by
  unfold refusal? at fit
  split at fit
  · cases fit
  · cases hl : s.contentLimit with
    | error e => simp [hl] at fit
    | ok limit => exact ⟨limit, hl, by simpa [hl] using fit⟩

theorem admits_merged (s : Store) (owner : UserId) (options : ImportOptions) (now : Int)
    (r : MemoRecord) : s.Admits (s.merged owner options now r) := by
  have step := s.reconciled owner options now r
  generalize s.verdict owner options r = v, s.merged owner options now r = t at step ⊢
  cases step with
  | refused _ => exact .refl s
  | validated _ _ => exact .refl s
  | updated fit _ _ =>
    refine .withPatch fun content given => ?_
    cases given
    exact allows_of_fit fit
  | created fit _ _ _ => exact .withRow (allows_of_fit fit)
  | unowned _ _ _ _ => exact .refl s

theorem admits_mergedAll (s : Store) (owner : UserId) (options : ImportOptions) (now : Int)
    (records : List MemoRecord) : s.Admits (s.mergedAll owner options now records) := by
  induction records generalizing s with
  | nil => exact .refl s
  | cons r records ih =>
    have limit := s.contentLimit_merged owner options now r
    exact (s.admits_merged owner options now r).trans limit (ih _)

/-- **An operation takes in contents within the limit only.** -/
theorem Performed.admits {op : AccountOperation} (h : s.Performed op t) : s.Admits t := by
  cases h with
  | unchanged _ => exact .refl s
  | enrolled _ => exact .of_memos fun _ hr => hr
  | written _ allowed _ _ => exact .withRow allowed
  | archived id => exact .withPatch fun content given => by cases given
  | removed id => exact .of_memos (List.filter_subset_self _)
  | limited limit =>
    obtain ⟨settings, h⟩ := s.setSetting_eq contentLimitName (natText limit.toNat)
    rw [setContentLimit, h]
    exact .of_memos fun _ hr => hr
  | imported owner _ => exact s.admits_mergedAll owner _ _ _

/-! ## Runs of operations -/

/-- The store that operations of accounts make out of the empty one. -/
def served (ops : List AccountOperation) : Store := ops.foldl AccountOperation.perform .empty

theorem served_concat (ops : List AccountOperation) (op : AccountOperation) :
    served (ops ++ [op]) = op.perform (served ops) := by
  rw [served, List.foldl_concat, ← served]

theorem inUse_served (ops : List AccountOperation) : (served ops).InUse := InUse.empty.foldl ops

theorem contentLimit_served (ops : List AccountOperation) :
    (served ops).contentLimit = .ok (limitAfter ops) := by
  induction ops using List.reverseRecOn with
  | nil => rfl
  | append_singleton ops op ih =>
    rw [served_concat, limitAfter_concat]
    exact (performed (inUse_served ops).wellFormed op).contentLimit ih

/-- Every content was within the limit that was in force when it was written. -/
theorem exists_limit_of_served (ops : List AccountOperation) : ∀ r ∈ (served ops).memos,
    ∃ before, before <+: ops ∧ byteLength r.content ≤ limitAfter before := by
  induction ops using List.reverseRecOn with
  | nil => exact fun r hr => absurd hr List.not_mem_nil
  | append_singleton ops op ih =>
    intro r hr
    rw [served_concat] at hr
    have step := performed (inUse_served ops).wellFormed op
    rcases step.admits r hr with ⟨r', hr', e⟩ | ⟨n, hn, short⟩
    · obtain ⟨before, earlier, short⟩ := ih r' hr'
      exact ⟨before, earlier.trans (List.prefix_append ops [op]), e ▸ short⟩
    · rw [contentLimit_served] at hn
      cases hn
      exact ⟨ops, List.prefix_append ops [op], short⟩

/-- **What is kept of every memo.** After any operations of accounts, the property of each memo is
the one that its content has, instants can name its times, and its content is no longer than the
limit that was in force at some moment of the run. -/
theorem served_upholds (ops : List AccountOperation) : ∀ r ∈ (served ops).memos,
    r.memo.payload.property = (Payload.ofContent r.memo.content none).property ∧
      r.memo.HasTimes ∧
      ∃ before, before <+: ops ∧ (served before).contentLimit = .ok (limitAfter before) ∧
        byteLength r.memo.content ≤ limitAfter before := by
  intro r hr
  have sound := ((inUse_served ops).isSound r hr).memo
  obtain ⟨before, earlier, short⟩ := exists_limit_of_served ops r hr
  exact ⟨sound.property, sound.toHasTimes, before, earlier, contentLimit_served before, short⟩

/-- A memo is written, and then the limit is lowered. -/
def tightened : List AccountOperation :=
  [.ensureUser "alice", .setContentLimit 20,
    .addMemo ⟨1, "alice"⟩ "- [ ] water #plants" .everyone true "a" .epoch, .setContentLimit 4]

/-- The memo is longer than the present limit, but not than an earlier one. -/
theorem served_upholds_tightened : ∃ r ∈ (served tightened).memos,
    limitAfter tightened < byteLength r.memo.content ∧
      r.memo.payload.property.hasIncompleteTasks = true ∧
      ∃ before, before <+: tightened ∧ byteLength r.memo.content ≤ limitAfter before := by
  have stored : MemoRow.ofMemo 1 ⟨0, "a", 1, .normal, "- [ ] water #plants", .everyone, true,
      .ofContent "- [ ] water #plants" none, 0, 0, none⟩ ∈ (served tightened).memos :=
    List.mem_singleton.2 rfl
  obtain ⟨property, -, before, earlier, -, short⟩ := served_upholds tightened _ stored
  refine ⟨_, stored, by decide +kernel, ?_, before, earlier, short⟩
  rw [property]
  decide +kernel

end Store

end MemoTransfer
