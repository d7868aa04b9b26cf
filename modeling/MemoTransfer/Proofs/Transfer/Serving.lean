import MemoTransfer.Proofs.Transfer.Scripts

/-!
# A store that serves calls

A store answers calls one at a time, in whatever order they come (`Store.Serves`). Each of them
creates one memo, changes one or leaves the memos as they are (`Store.Effect`). So the keys of the
table are kept, its length tells how many memos were created (`Store.Serves.length_memos`), and if
none is updated, the memos that were created are what has been added (`Store.Serves.eq_withRows`).

A few answers are certain, whatever has happened before (`Call.IsTruthful`): that there is a memo
with a text key or not, what the limit is, and why a memo of a known user is not created. A record
whose import does not overwrite is therefore created, or it is rejected because its memo exists or
because it is too long (`Course.created_or_beaten`).
-/

namespace MemoTransfer

/-! ## Calls -/

/-- The memo that the call has created, as it was given. -/
def Call.createdMemo? : Call → Option Memo
  | createMemo memo (.ok _) => some memo
  | _ => none

theorem Call.createdMemo?_ok (memo memo' : Memo) :
    (createMemo memo (.ok memo')).createdMemo? = some memo := rfl

/-- The answer is one that the store gives, whatever memos it has. -/
def Call.IsTruthful (s : Store) : Call → Prop
  | getMemo query answer => ∀ uid, query = .byUid uid → ∃ found, answer = .ok found
  | contentLimit answer => answer = s.contentLimit
  | createMemo memo (.error e) =>
    s.users.any (·.id = memo.creatorId) = true → e = .memoAlreadyExists memo.uid
  | _ => True

theorem Call.isTruthful_congr {s t : Store} (users : t.users = s.users)
    (limit : t.contentLimit = s.contentLimit) {c : Call} (h : c.IsTruthful t) : c.IsTruthful s := by
  cases c with
  | contentLimit answer => exact h.trans limit
  | createMemo memo answer =>
    cases answer with
    | ok _ => trivial
    | error e =>
      intro known
      exact h (users ▸ known)
  | _ => exact h

/-! ## One call -/

namespace Store

variable {s t u : Store} {c : Call} {calls : List Call}

/-- The store has answered the call and become the other one. -/
inductive Answers (s : Store) : Call → Store → Prop
  | ask (d : Demand) : s.Answers (d.noted ((d.ask memoStore .deferred).run s).1)
      ((d.ask memoStore .deferred).run s).2

theorem ask_createMemo_ok {memo : Memo} {x : Memo × Store} (h : s.createMemo memo = .ok x) :
    ((Demand.createMemo memo).ask memoStore .deferred).run s = (.ok x.1, x.2) :=
  change_ends (α := Memo) h

theorem ask_createMemo_error {memo : Memo} {e : Error} (h : s.createMemo memo = .error e) :
    ((Demand.createMemo memo).ask memoStore .deferred).run s = (.error e, s) :=
  change_ends_error (α := Memo) h

theorem ask_updateMemo_ok {p : MemoPatch} (h : s.updateMemo p = .ok t) :
    ((Demand.updateMemo p).ask memoStore .deferred).run s = (.ok (), t) := by
  have done : (s.updateMemo p).map (fun s' => ((), s')) = .ok ((), t) := by rw [h]; rfl
  exact change_ends done

theorem ask_updateMemo_error {p : MemoPatch} {e : Error} (h : s.updateMemo p = .error e) :
    ((Demand.updateMemo p).ask memoStore .deferred).run s = (.error e, s) := by
  have failed : (s.updateMemo p).map (fun s' => ((), s')) = .error e := by rw [h]; rfl
  exact change_ends_error failed

theorem Answers.exists_demand (h : s.Answers c t) : ∃ d : Demand,
    c = d.noted ((d.ask memoStore .deferred).run s).1 ∧
      t = ((d.ask memoStore .deferred).run s).2 := by
  obtain ⟨d⟩ := h
  exact ⟨d, rfl, rfl⟩

/-- A search for a memo tells what the store holds. -/
theorem Answers.getMemo_answer {query : MemoQuery} {answer : Except Error (Option Memo)}
    (h : s.Answers (.getMemo query answer) t) : answer = s.getMemo query ∧ t = s := by
  obtain ⟨d, asked, rfl⟩ := h.exists_demand
  cases d <;> cases asked
  exact ⟨rfl, rfl⟩

theorem Answers.contentLimit_answer {answer : Except Error Nat} (h : s.Answers (.contentLimit answer) t) :
    t = s := by
  obtain ⟨d, asked, rfl⟩ := h.exists_demand
  cases d <;> cases asked
  rfl

/-- A change that the store reports as done has been done. -/
theorem Answers.updateMemo_answer {p : MemoPatch} (h : s.Answers (.updateMemo p (.ok ())) t) :
    s.updateMemo p = .ok t := by
  obtain ⟨d, asked, rfl⟩ := h.exists_demand
  cases d with
  | updateMemo q =>
    cases updated : s.updateMemo q with
    | error e => simp [Demand.noted, ask_updateMemo_error updated] at asked
    | ok u =>
      rw [ask_updateMemo_ok updated] at asked ⊢
      cases asked
      exact updated
  | _ => cases asked

/-- What a call does to a store. -/
inductive Effect (s : Store) : Call → Store → Prop
  | created {memo memo' : Memo} (free : s.rowByUid? memo.uid = none) :
      s.Effect (.createMemo memo (.ok memo')) (s.withRow memo)
  | patched (p : MemoPatch) : s.Effect (.updateMemo p (.ok ())) (s.withPatch p)
  | kept {c : Call} (quiet : c.createdMemo? = none) : s.Effect c s

/-- **A call creates a memo, changes one or leaves the store as it is.** -/
theorem Answers.effect (h : s.Answers c t) : s.Effect c t := by
  obtain ⟨d⟩ := h
  cases d with
  | createMemo memo =>
    cases created : s.createMemo memo with
    | error e =>
      rw [ask_createMemo_error created]
      exact .kept rfl
    | ok x =>
      obtain ⟨free, -, -, after⟩ := of_createMemo created
      rw [ask_createMemo_ok created, after]
      exact .created free
  | updateMemo p =>
    cases updated : s.updateMemo p with
    | error e =>
      rw [ask_updateMemo_error updated]
      exact .kept rfl
    | ok t =>
      rw [ask_updateMemo_ok updated]
      rcases of_updateMemo updated with rfl | rfl
      · exact .kept rfl
      · exact .patched p
  | _ => exact .kept rfl

theorem Answers.isTruthful (hs : s.WellFormed) (h : s.Answers c t) : c.IsTruthful s := by
  obtain ⟨d⟩ := h
  cases d with
  | getMemo query =>
    rintro uid rfl
    exact ⟨_, getMemo_byUid hs uid⟩
  | createMemo memo =>
    cases created : s.createMemo memo with
    | ok x =>
      rw [ask_createMemo_ok created]
      trivial
    | error e =>
      rw [ask_createMemo_error created]
      intro known
      rw [createMemo, known] at created
      split at created
      · cases created
        rfl
      · cases created
  | contentLimit => exact rfl
  | _ => trivial

theorem Effect.wellFormed (hs : s.WellFormed) (h : s.Effect c t) : t.WellFormed := by
  cases h with
  | created free => exact hs.withRow free
  | patched p => exact hs.withPatch p
  | kept _ => exact hs

theorem Effect.users (h : s.Effect c t) : t.users = s.users := by
  cases h <;> rfl

theorem Effect.contentLimit (h : s.Effect c t) : t.contentLimit = s.contentLimit := by
  cases h <;> rfl

/-! ## Several calls -/

/-- The store has answered the calls, one after another, and become the other one. -/
inductive Serves : Store → List Call → Store → Prop
  | refl (s : Store) : s.Serves [] s
  | call {s t u : Store} {c : Call} {calls : List Call} (answer : s.Answers c t)
      (rest : t.Serves calls u) : s.Serves (c :: calls) u

namespace Serves

theorem wellFormed (hs : s.WellFormed) (h : s.Serves calls t) : t.WellFormed := by
  induction h with
  | refl s => exact hs
  | call answer _ ih => exact ih (answer.effect.wellFormed hs)

/-- **All answers are truthful**, at any time. -/
theorem isTruthful (hs : s.WellFormed) (h : s.Serves calls t) : ∀ c ∈ calls, c.IsTruthful s := by
  induction h with
  | refl s => exact fun c hc => absurd hc List.not_mem_nil
  | call answer _ ih =>
    refine List.forall_mem_cons.2 ⟨answer.isTruthful hs, fun c hc => ?_⟩
    exact Call.isTruthful_congr answer.effect.users answer.effect.contentLimit
      (ih (answer.effect.wellFormed hs) c hc)

/-- **As many memos are added as are created.** -/
theorem length_memos (h : s.Serves calls t) :
    t.memos.length = s.memos.length + (calls.filterMap Call.createdMemo?).length := by
  induction h with
  | refl s => rfl
  | call answer _ ih =>
    rw [ih]
    cases answer.effect with
    | @created memo memo' free =>
      rw [List.filterMap_cons_some (Call.createdMemo?_ok memo memo'), withRow, List.length_append,
        List.length_singleton, List.length_cons]
      omega
    | patched p => rw [List.filterMap_cons_none rfl, withPatch, List.length_map]
    | kept quiet => rw [List.filterMap_cons_none quiet]

/-- **The memos that were created are all that has changed**, if none is updated. -/
theorem eq_withRows (h : s.Serves calls t) (created : ∀ c ∈ calls, c.hasUpdated = false) :
    t = s.withRows (calls.filterMap Call.createdMemo?) := by
  induction h with
  | refl s => rfl
  | call answer _ ih =>
    rw [List.forall_mem_cons] at created
    rw [ih created.2]
    cases answer.effect with
    | @created memo memo' free =>
      rw [List.filterMap_cons_some (Call.createdMemo?_ok memo memo')]
      rfl
    | patched p => cases created.1
    | kept quiet => rw [List.filterMap_cons_none quiet]

end Serves

/-- The text keys of new rows. -/
theorem uids_withRows (s : Store) (ms : List Memo) :
    (s.withRows ms).memos.map (·.uid) = s.memos.map (·.uid) ++ ms.map (·.uid) := by
  induction ms generalizing s with
  | nil => exact (List.append_nil _).symm
  | cons m ms ih =>
    show ((s.withRow m).withRows ms).memos.map (·.uid) = _
    rw [ih, withRow, List.map_append, List.append_assoc]
    rfl

end Store

/-! ## The calls of a record -/

section

variable {r : MemoRecord} {owner : UserId} {options : ImportOptions} {now : Int}
  {found : Option Memo} {x : Except Error (Option Memo)} {d : Except Error Disposition}
  {call : Call} {calls : List Call}

theorem Examined.createdMemo? (h : Examined r options x calls) :
    calls.filterMap Call.createdMemo? = [] := by
  cases h <;> rfl

/-- Without leave to overwrite, a record that is fit has no memo. -/
theorem Examined.found_eq_none (h : Examined r options (.ok found) calls)
    (keep : options.overwriteExisting = false) : found = none := by
  cases h with
  | fit _ limit short free =>
    cases found with
    | none => rfl
    | some memo =>
      rw [free rfl] at keep
      cases keep

theorem Written.createdMemo? (h : Written r owner options now found d call) :
    call.createdMemo? = if d = .ok .created then some (r.toMemo owner options now) else none := by
  cases h <;> rfl

theorem Call.filterMap_createdMemo?_of_isReference {references : List Call}
    (referring : ∀ c ∈ references, c.isReference = true) :
    references.filterMap Call.createdMemo? = [] := by
  rw [List.filterMap_eq_nil_iff]
  intro c hc
  have reference := referring c hc
  cases c <;> first | rfl | cases reference

/-- The record with the text key was rejected because its memo exists or because it is too long. -/
def Verdict.IsBeaten (v : Verdict) (uid : String) : Prop :=
  v = .error ⟨uid, .memoAlreadyExists uid⟩ ∨
    v = .error ⟨uid, .during "create memo" (.memoAlreadyExists uid)⟩ ∨
    ∃ limit, v = .error ⟨uid, .contentTooLong limit⟩

namespace Course

variable {y : Except Error (Imported × List String)} {s : Store}

/-- **A record is reported as created if a call has created its memo**, and only then. -/
theorem createdMemos (h : Course r owner options now y calls) :
    calls.filterMap Call.createdMemo? =
      if Verdict.disposition? (y.mapError (Rejection.mk r.uid)) = some .created then
        [r.toMemo owner options now]
      else [] := by
  cases h with
  | refused examined => rw [examined.createdMemo?]; rfl
  | validated dry examined => rw [examined.createdMemo?]; rfl
  | failed real examined written =>
    rw [List.filterMap_append, examined.createdMemo?, List.nil_append,
      List.filterMap_cons_none written.createdMemo?]
    rfl
  | @done found calls first second d call attachments relations real examined written attached
      related =>
    rw [List.filterMap_append, examined.createdMemo?, List.nil_append, List.filterMap_cons,
      written.createdMemo?,
      Call.filterMap_createdMemo?_of_isReference (attached.referring related)]
    cases d <;> rfl

/-- What is reported of a record that is not only validated. -/
theorem concerned (h : Course r owner options now y calls) (real : options.validateOnly = false) :
    Verdict.disposition? (y.mapError (Rejection.mk r.uid)) = some .created ∨
      Verdict.disposition? (y.mapError (Rejection.mk r.uid)) = some .updated ∨
      ∃ e, y = .error e := by
  cases h with
  | refused _ => exact .inr (.inr ⟨_, rfl⟩)
  | validated dry _ =>
    rw [real] at dry
    cases dry
  | failed _ _ _ => exact .inr (.inr ⟨_, rfl⟩)
  | done _ _ written _ _ =>
    cases written with
    | updated memo => exact .inr (.inl rfl)
    | created memo => exact .inl rfl

/-- Nothing is updated without leave to overwrite. -/
theorem disposition?_ne_updated (h : Course r owner options now y calls)
    (keep : options.overwriteExisting = false) :
    Verdict.disposition? (y.mapError (Rejection.mk r.uid)) ≠ some .updated := by
  cases h with
  | done real examined written attached related =>
    rw [examined.found_eq_none keep] at written
    cases written with
    | created memo => exact fun e => by cases e
  | _ => exact fun e => by cases e

/-- The limit could be read for a record that was created. -/
theorem exists_limit (h : Course r owner options now y calls)
    (made : Verdict.disposition? (y.mapError (Rejection.mk r.uid)) = some .created)
    (truthful : ∀ c ∈ calls, c.IsTruthful s) : ∃ limit, s.contentLimit = .ok limit := by
  cases h with
  | done real examined written attached related =>
    cases examined with
    | fit _ limit short free =>
      have answered : (Except.ok limit : Except Error Nat) = s.contentLimit :=
        truthful (.contentLimit (.ok limit)) (by simp)
      exact ⟨limit, answered.symm⟩
  | _ => cases made

/-- **Without leave to overwrite, a record is created or beaten.** -/
theorem created_or_beaten (h : Course r owner options now y calls)
    (real : options.validateOnly = false) (keep : options.overwriteExisting = false)
    (truthful : ∀ c ∈ calls, c.IsTruthful s) (known : s.users.any (·.id = owner) = true)
    {limit : Nat} (hl : s.contentLimit = .ok limit) :
    Verdict.disposition? (y.mapError (Rejection.mk r.uid)) = some .created ∨
      Verdict.IsBeaten (y.mapError (Rejection.mk r.uid)) r.uid := by
  cases h with
  | refused examined =>
    cases examined with
    | unknown e =>
      obtain ⟨found, answered⟩ := truthful _ List.mem_cons_self r.uid rfl
      cases answered
    | taken memo _ => exact .inr (.inl rfl)
    | unlimited found e =>
      have answered : (Except.error e : Except Error Nat) = s.contentLimit :=
        truthful (.contentLimit (.error e)) (by simp)
      rw [hl] at answered
      cases answered
    | tooLong found limit long => exact .inr (.inr (.inr ⟨limit, rfl⟩))
  | validated dry _ =>
    rw [real] at dry
    cases dry
  | failed _ examined written =>
    rw [examined.found_eq_none keep] at written
    cases written with
    | notCreated e =>
      have answered : e = .memoAlreadyExists r.uid :=
        truthful (.createMemo (r.toMemo owner options now) (.error e)) (by simp) known
      rw [answered]
      exact .inr (.inr (.inl rfl))
  | done _ examined written _ _ =>
    rw [examined.found_eq_none keep] at written
    cases written with
    | created memo => exact .inl rfl

end Course

end

/-! ## Passages -/

namespace Passage

variable {p : Passage} {owner : UserId} {options : ImportOptions} {now : Int} {s : Store}

/-- The record was reported as created. -/
def created (p : Passage) : Bool := p.verdict.disposition? = some .created

theorem Follows.createdMemos (h : p.Follows owner options now) :
    p.calls.filterMap Call.createdMemo? =
      if p.created then [p.record.toMemo owner options now] else [] := by
  obtain ⟨y, verdict, course⟩ := h
  rw [course.createdMemos, created, verdict]
  simp only [decide_eq_true_eq]

theorem Follows.concerned (h : p.Follows owner options now) (real : options.validateOnly = false) :
    p.verdict.disposition? = some .created ∨ p.verdict.disposition? = some .updated ∨
      ∃ e, p.verdict = .error ⟨p.record.uid, e⟩ := by
  obtain ⟨y, verdict, course⟩ := h
  rw [verdict]
  refine (course.concerned real).imp_right (Or.imp_right ?_)
  rintro ⟨e, rfl⟩
  exact ⟨e, rfl⟩

theorem Follows.hasUpdated_eq_false (h : p.Follows owner options now)
    (keep : options.overwriteExisting = false) : ∀ c ∈ p.calls, c.hasUpdated = false := by
  have none : p.calls.countP Call.hasUpdated = 0 := by
    rw [h.countP_hasUpdated]
    obtain ⟨y, verdict, course⟩ := h
    rw [verdict, if_neg (course.disposition?_ne_updated keep)]
  intro c hc
  simpa using List.countP_eq_zero.1 none c hc

theorem Follows.exists_limit (h : p.Follows owner options now) (made : p.created = true)
    (truthful : ∀ c ∈ p.calls, c.IsTruthful s) : ∃ limit, s.contentLimit = .ok limit := by
  obtain ⟨y, verdict, course⟩ := h
  rw [created, verdict, decide_eq_true_eq] at made
  exact course.exists_limit made truthful

theorem Follows.created_or_beaten (h : p.Follows owner options now)
    (real : options.validateOnly = false) (keep : options.overwriteExisting = false)
    (truthful : ∀ c ∈ p.calls, c.IsTruthful s) (known : s.users.any (·.id = owner) = true)
    {limit : Nat} (hl : s.contentLimit = .ok limit) :
    p.created = true ∨ p.verdict.IsBeaten p.record.uid := by
  obtain ⟨y, verdict, course⟩ := h
  rw [created, verdict, decide_eq_true_eq]
  exact course.created_or_beaten real keep truthful known hl

end Passage

end MemoTransfer
