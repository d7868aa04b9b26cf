import MemoTransfer.Proofs.Transfer.Calls
import MemoTransfer.Proofs.Transfer.Summing

/-!
# The courses of an import

Whatever a store and a reference importer answer, the import of a record takes one of a few courses
(`Course`). The record is examined: its memo is looked for, then the limit is asked for. If it is
refused, or nothing is to be written, this is all. Otherwise the memo is written by one call, and
if that succeeds, the references are brought in. Every import of a record takes such a course
(`importRecord_noted`).

What is true of every course follows from that, case by case: there is at most one call that writes
(`Course.countP_isWrite_le`), none in a dry run and none for a record that is longer than the limit
that was answered, and a record is reported as created or updated by the number of calls that have
done so.
-/

namespace MemoTransfer

variable {σ α : Type}

/-! ## Courses -/

/-- What an examination of a record may come to, and its calls. -/
inductive Examined (r : MemoRecord) (options : ImportOptions) :
    Except Error (Option Memo) → List Call → Prop
  /-- The memo cannot be looked for. -/
  | unknown (e : Error) : Examined r options (.error (.during "check for existing memo" e))
      [.getMemo (.byUid r.uid) (.error e)]
  /-- There is a memo, and it is to stay. -/
  | taken (memo : Memo) (keep : options.overwriteExisting = false) :
      Examined r options (.error (.memoAlreadyExists r.uid))
        [.getMemo (.byUid r.uid) (.ok (some memo))]
  /-- The limit cannot be read. -/
  | unlimited (found : Option Memo) (e : Error) :
      Examined r options (.error (.during "get content length limit" e))
        [.getMemo (.byUid r.uid) (.ok found), .contentLimit (.error e)]
  /-- The content is too long. -/
  | tooLong (found : Option Memo) (limit : Nat) (long : limit < byteLength r.content) :
      Examined r options (.error (.contentTooLong limit))
        [.getMemo (.byUid r.uid) (.ok found), .contentLimit (.ok limit)]
  /-- The record is fit. -/
  | fit (found : Option Memo) (limit : Nat) (short : ¬limit < byteLength r.content)
      (free : found.isSome = true → options.overwriteExisting = true) :
      Examined r options (.ok found)
        [.getMemo (.byUid r.uid) (.ok found), .contentLimit (.ok limit)]

/-- What the writing of a record over the memo that was found may come to, and its call. -/
inductive Written (r : MemoRecord) (owner : UserId) (options : ImportOptions) (now : Int) :
    Option Memo → Except Error Disposition → Call → Prop
  | updated (memo : Memo) : Written r owner options now (some memo) (.ok .updated)
      (.updateMemo (r.toPatch memo.id options) (.ok ()))
  | notUpdated (memo : Memo) (e : Error) :
      Written r owner options now (some memo) (.error (.during "update existing memo" e))
        (.updateMemo (r.toPatch memo.id options) (.error e))
  | created (memo : Memo) : Written r owner options now none (.ok .created)
      (.createMemo (r.toMemo owner options now) (.ok memo))
  | notCreated (e : Error) : Written r owner options now none (.error (.during "create memo" e))
      (.createMemo (r.toMemo owner options now) (.error e))

/-- What has come in with an answer of the importer. -/
def Arrivals.ofAnswer : ReferenceResult → Arrivals
  | .imported n => { count := n }
  | .notImported message => { warnings := [message] }

/-- What bringing in references of one kind may come to, and its calls. -/
inductive Brought {γ : Type} (skip : Bool) (refs : List γ) (call : ReferenceResult → Call) :
    Arrivals → List Call → Prop
  /-- There are none, or they are to be skipped. -/
  | nothing (idle : (skip || refs.isEmpty) = true) : Brought skip refs call {} []
  /-- The importer is asked, once. -/
  | asked (wanted : (skip || refs.isEmpty) = false) (answer : ReferenceResult) :
      Brought skip refs call (.ofAnswer answer) [call answer]

/-- What the import of a record may come to, and its calls. -/
inductive Course (r : MemoRecord) (owner : UserId) (options : ImportOptions) (now : Int) :
    Except Error (Imported × List String) → List Call → Prop
  | refused {e : Error} {calls : List Call} (examined : Examined r options (.error e) calls) :
      Course r owner options now (.error e) calls
  | validated {found : Option Memo} {calls : List Call} (dry : options.validateOnly = true)
      (examined : Examined r options (.ok found) calls) :
      Course r owner options now (.ok (⟨.validated, 0, 0⟩, r.knownVisibility.2)) calls
  | failed {found : Option Memo} {calls : List Call} {e : Error} {call : Call}
      (real : options.validateOnly = false) (examined : Examined r options (.ok found) calls)
      (written : Written r owner options now found (.error e) call) :
      Course r owner options now (.error e) (calls ++ [call])
  | done {found : Option Memo} {calls first second : List Call} {d : Disposition} {call : Call}
      {attachments relations : Arrivals}
      (real : options.validateOnly = false) (examined : Examined r options (.ok found) calls)
      (written : Written r owner options now found (.ok d) call)
      (attached : Brought options.skipAttachments r.attachments
        (.importAttachments r.uid r.attachments) attachments first)
      (related : Brought options.skipRelations r.relations
        (.importRelations r.uid r.relations) relations second) :
      Course r owner options now (.ok (⟨d, attachments.count, relations.count⟩,
          r.knownVisibility.2 ++ attachments.warnings ++ relations.warnings))
        (calls ++ call :: (first ++ second))

/-! ## Every import takes a course -/

section

variable (store : MemoStore (StateM σ)) (references : ReferenceImporter (StateM σ))
  (r : MemoRecord) (owner : UserId) (options : ImportOptions) (now : Int)

/-- A step of an import is one call. -/
theorem importStep_noted (step : String) (act : ExceptT Error (StateM σ) α)
    (call : Except Error α → Call) (s : σ) :
    ∃ answer t, Noted (importStep step act) (importStep step (.mk (watch act.run call))) s
      (answer.mapError (Error.during step)) t [call answer] :=
  ⟨_, _, (Noted.call act call s).adapt _⟩

theorem examine_noted (s : σ) : ∃ x t calls,
    Noted (examine store r options) (examine store.watched r options) s x t calls ∧
      Examined r options x calls := by
  obtain ⟨answer, t, looked⟩ := importStep_noted "check for existing memo"
    (store.getMemo (.byUid r.uid)) (.getMemo (.byUid r.uid)) s
  cases answer with
  | error e => exact ⟨_, _, _, looked.bind_error, .unknown e⟩
  | ok found =>
    cases taken : found.isSome && !options.overwriteExisting with
    | true =>
      obtain ⟨stored, keep⟩ := Bool.and_eq_true_iff.1 taken
      obtain ⟨memo, rfl⟩ := Option.isSome_iff_exists.1 stored
      have keep' : options.overwriteExisting = false := by simpa using keep
      refine ⟨_, t, _, looked.bind_quiet ?_, .taken memo keep'⟩
      rw [taken, if_pos rfl, if_pos rfl]
      exact (Noted.throw _ _).bind_error
    | false =>
      obtain ⟨limit, u, asked⟩ := importStep_noted "get content length limit" store.contentLimit
        .contentLimit t
      have free : found.isSome = true → options.overwriteExisting = true := by
        intro stored
        simpa [stored] using taken
      cases limit with
      | error e =>
        refine ⟨_, u, _, looked.bind ?_, .unlimited found e⟩
        rw [taken, if_neg Bool.false_ne_true, if_neg Bool.false_ne_true]
        exact asked.bind_error
      | ok limit =>
        by_cases long : limit < byteLength r.content
        · have refused : checkLength r.content limit = .error (.contentTooLong limit) := if_pos long
          refine ⟨_, u, _, looked.bind ?_, .tooLong found limit long⟩
          rw [taken, if_neg Bool.false_ne_true, if_neg Bool.false_ne_true]
          exact asked.bind_quiet (Noted.of_except refused u).bind_error
        · have fits : checkLength r.content limit = .ok () := if_neg long
          refine ⟨_, u, _, looked.bind ?_, .fit found limit long free⟩
          rw [taken, if_neg Bool.false_ne_true, if_neg Bool.false_ne_true]
          exact asked.bind_quiet ((Noted.of_except fits u).bind_quiet (.pure found u))

theorem writeMemo_noted (found : Option Memo) (s : σ) : ∃ x t call,
    Noted (writeMemo store owner r options now found)
        (writeMemo store.watched owner r options now found) s x t [call] ∧
      Written r owner options now found x call := by
  cases found with
  | some memo =>
    obtain ⟨answer, t, updated⟩ := importStep_noted "update existing memo"
      (store.updateMemo (r.toPatch memo.id options)) (.updateMemo (r.toPatch memo.id options)) s
    cases answer with
    | error e => exact ⟨_, t, _, updated.bind_error, .notUpdated memo e⟩
    | ok => exact ⟨_, t, _, updated.bind_quiet (.pure _ _), .updated memo⟩
  | none =>
    obtain ⟨answer, t, created⟩ := importStep_noted "create memo"
      (store.createMemo (r.toMemo owner options now)) (.createMemo (r.toMemo owner options now)) s
    cases answer with
    | error e => exact ⟨_, t, _, created.bind_error, .notCreated e⟩
    | ok memo => exact ⟨_, t, _, created.bind_quiet (.pure _ _), .created memo⟩

theorem bringIn_noted {γ : Type} (skip : Bool) (refs : List γ)
    (importRefs : List γ → StateM σ ReferenceResult) (call : List γ → ReferenceResult → Call)
    (s : σ) :
    ∃ arrivals t calls, Noted (ExceptT.lift (bringIn skip refs importRefs))
        (ExceptT.lift (bringIn skip refs fun refs => watch (importRefs refs) (call refs))) s
        (.ok arrivals) t calls ∧
      Brought skip refs (call refs) arrivals calls := by
  unfold bringIn
  cases idle : skip || refs.isEmpty with
  | true =>
    rw [if_pos rfl, if_pos rfl]
    exact ⟨{}, s, [], .lift rfl fun before => by rw [List.append_nil]; rfl, .nothing idle⟩
  | false =>
    rw [if_neg Bool.false_ne_true, if_neg Bool.false_ne_true]
    cases run : (importRefs refs).run s with
    | mk answer t =>
      have noted (before : List Call) : (watch (importRefs refs) (call refs)).run ⟨s, before⟩ =
          (answer, ⟨t, before ++ [call refs answer]⟩) := by
        rw [watch_run, run]
      refine ⟨.ofAnswer answer, t, [call refs answer], .lift ?_ fun before => ?_,
        .asked idle answer⟩
      · rw [StateT.run_bind, run]
        cases answer <;> rfl
      · rw [StateT.run_bind, noted]
        cases answer <;> rfl

theorem importRecord_noted (s : σ) : ∃ x t calls,
    Noted (importRecord store owner r options references now)
        (importRecord store.watched owner r options references.watched now) s x t calls ∧
      Course r owner options now x calls := by
  obtain ⟨x, t, calls, examined, course⟩ := examine_noted store r options s
  cases x with
  | error e => exact ⟨_, t, _, examined.bind_error, .refused course⟩
  | ok found =>
    cases dry : options.validateOnly with
    | true =>
      refine ⟨_, t, _, examined.bind_quiet ?_, .validated dry course⟩
      dsimp only
      rw [dry, if_pos rfl, if_pos rfl]
      exact .pure _ _
    | false =>
      obtain ⟨outcome, u, call, written, form⟩ :=
        writeMemo_noted store r owner options now found t
      cases outcome with
      | error e =>
        refine ⟨_, u, _, examined.bind ?_, .failed dry course form⟩
        dsimp only
        rw [dry, if_neg Bool.false_ne_true, if_neg Bool.false_ne_true]
        exact written.bind_error
      | ok d =>
        obtain ⟨attachments, v, first, attached, brought⟩ :=
          bringIn_noted options.skipAttachments r.attachments (references.importAttachments r.uid)
            (.importAttachments r.uid) u
        obtain ⟨relations, w, second, related, brought'⟩ :=
          bringIn_noted options.skipRelations r.relations (references.importRelations r.uid)
            (.importRelations r.uid) v
        refine ⟨_, w, _, examined.bind ?_, .done dry course form brought brought'⟩
        dsimp only
        rw [dry, if_neg Bool.false_ne_true, if_neg Bool.false_ne_true]
        exact written.bind (attached.bind (related.bind_quiet (.pure _ _)))

end

/-! ## What is true of every course -/

section

variable {r : MemoRecord} {owner : UserId} {options : ImportOptions} {now : Int}
  {found : Option Memo} {x : Except Error (Option Memo)} {d : Except Error Disposition}
  {call : Call} {calls : List Call} {y : Except Error (Imported × List String)}

/-- An examination does not write. -/
theorem Examined.isWrite_eq_false (h : Examined r options x calls) :
    ∀ c ∈ calls, c.isWrite = false := by
  cases h <;> simp [Call.isWrite]

/-- Whatever limit is answered in the examination of a fit record allows its content. -/
theorem Examined.short (h : Examined r options (.ok found) calls) {limit : Nat}
    (answered : .contentLimit (.ok limit) ∈ calls) : ¬limit < byteLength r.content := by
  cases h with
  | fit _ limit' short free =>
    simp only [List.mem_cons, reduceCtorEq, Call.contentLimit.injEq, Except.ok.injEq,
      List.not_mem_nil, or_false, false_or] at answered
    rw [answered]
    exact short

theorem Written.isWrite (h : Written r owner options now found d call) : call.isWrite = true := by
  cases h <;> rfl

theorem Written.hasCreated_iff (h : Written r owner options now found d call) :
    call.hasCreated = true ↔ d = .ok .created := by
  cases h <;> simp [Call.hasCreated]

theorem Written.hasUpdated_iff (h : Written r owner options now found d call) :
    call.hasUpdated = true ↔ d = .ok .updated := by
  cases h <;> simp [Call.hasUpdated]

/-- The references of one kind are brought in by calls of the importer. -/
theorem Brought.isReference {γ : Type} {skip : Bool} {refs : List γ}
    {ask : ReferenceResult → Call} {arrivals : Arrivals} (h : Brought skip refs ask arrivals calls)
    (referring : ∀ answer, (ask answer).isReference = true) :
    ∀ c ∈ calls, c.isReference = true := by
  cases h with
  | nothing _ => exact fun c hc => absurd hc List.not_mem_nil
  | asked _ answer => exact List.forall_mem_singleton.2 (referring answer)

/-- Behind the call that writes, there are only calls of the importer. -/
theorem Brought.referring {first second : List Call} {attachments relations : Arrivals}
    (attached : Brought options.skipAttachments r.attachments
      (.importAttachments r.uid r.attachments) attachments first)
    (related : Brought options.skipRelations r.relations
      (.importRelations r.uid r.relations) relations second) :
    ∀ c ∈ first ++ second, c.isReference = true :=
  List.forall_mem_append.2
    ⟨attached.isReference fun _ => rfl, related.isReference fun _ => rfl⟩

variable {references : List Call}

/-- The calls around the one that writes do not ask for the limit behind the examination. -/
theorem Written.contentLimit_mem (written : Written r owner options now found d call)
    (referring : ∀ c ∈ references, c.isReference = true) {answer : Except Error Nat}
    (h : .contentLimit answer ∈ calls ++ call :: references) : .contentLimit answer ∈ calls := by
  rcases List.mem_append.1 h with h | h
  · exact h
  · rcases List.mem_cons.1 h with rfl | h
    · cases written.isWrite
    · cases referring _ h

/-- Only the call that writes counts. -/
theorem Examined.countP_done {f : Call → Bool} (writes : ∀ c, f c = true → c.isWrite = true)
    (examined : Examined r options x calls) (call : Call)
    (referring : ∀ c ∈ references, c.isReference = true) :
    (calls ++ call :: references).countP f = if f call then 1 else 0 := by
  have quiet : ∀ c ∈ references, c.isWrite = false := fun c hc =>
    Call.isWrite_of_isReference (referring c hc)
  rw [List.countP_append, Call.countP_eq_zero writes examined.isWrite_eq_false, List.countP_cons,
    Call.countP_eq_zero writes quiet, Nat.zero_add, Nat.zero_add]

theorem Examined.countP_failed {f : Call → Bool} (writes : ∀ c, f c = true → c.isWrite = true)
    (examined : Examined r options x calls) (call : Call) :
    (calls ++ [call]).countP f = if f call then 1 else 0 :=
  examined.countP_done writes call (by simp)

/-- **A record is written by one call at most.** -/
theorem Course.countP_isWrite_le (h : Course r owner options now y calls) :
    calls.countP Call.isWrite ≤ 1 := by
  cases h with
  | refused examined =>
    rw [Call.countP_eq_zero (fun _ => id) examined.isWrite_eq_false]
    exact Nat.zero_le 1
  | validated dry examined =>
    rw [Call.countP_eq_zero (fun _ => id) examined.isWrite_eq_false]
    exact Nat.zero_le 1
  | failed real examined written =>
    rw [examined.countP_failed fun _ => id]
    split <;> omega
  | done real examined written attached related =>
    rw [examined.countP_done (fun _ => id) _ (attached.referring related)]
    split <;> omega

/-- **A dry run does not write.** -/
theorem Course.countP_isWrite_of_dry (h : Course r owner options now y calls)
    (dry : options.validateOnly = true) : calls.countP Call.isWrite = 0 := by
  cases h with
  | refused examined => exact Call.countP_eq_zero (fun _ => id) examined.isWrite_eq_false
  | validated dry examined => exact Call.countP_eq_zero (fun _ => id) examined.isWrite_eq_false
  | failed real => simp [dry] at real
  | done real => simp [dry] at real

/-- **A record is not written if its content is longer than the limit that was answered for it.** -/
theorem Course.countP_isWrite_of_long (h : Course r owner options now y calls) {limit : Nat}
    (answered : .contentLimit (.ok limit) ∈ calls) (long : limit < byteLength r.content) :
    calls.countP Call.isWrite = 0 := by
  cases h with
  | refused examined => exact Call.countP_eq_zero (fun _ => id) examined.isWrite_eq_false
  | validated dry examined => exact Call.countP_eq_zero (fun _ => id) examined.isWrite_eq_false
  | failed real examined written =>
    have asked := written.contentLimit_mem (by simp) answered
    exact (examined.short asked long).elim
  | done real examined written attached related =>
    have asked := written.contentLimit_mem (attached.referring related) answered
    exact (examined.short asked long).elim

/-- **What was done with a record was done by a call**, and what a call has done is reported. -/
theorem Course.countP_eq {f : Call → Bool} {done : Disposition}
    (writes : ∀ c, f c = true → c.isWrite = true) (real : done ≠ .validated)
    (tells : ∀ {found d call}, Written r owner options now found d call →
      (f call = true ↔ d = .ok done))
    (h : Course r owner options now y calls) :
    calls.countP f =
      if Verdict.disposition? (y.mapError (Rejection.mk r.uid)) = some done then 1 else 0 := by
  cases h with
  | refused examined =>
    simp [Call.countP_eq_zero writes examined.isWrite_eq_false, Except.mapError]
  | validated dry examined =>
    simp [Call.countP_eq_zero writes examined.isWrite_eq_false, Except.mapError, real.symm]
  | failed _ examined written =>
    simp [examined.countP_failed writes, tells written, Except.mapError]
  | done _ examined written attached related =>
    simp [examined.countP_done writes _ (attached.referring related), tells written,
      Except.mapError]

end

end MemoTransfer
