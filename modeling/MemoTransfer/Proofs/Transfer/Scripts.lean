import MemoTransfer.Proofs.Transfer.Accounting

/-!
# Scripts of calls

An import that shares its store with others is not run in one go: between two of its calls, the
others may call the store too. So the import is written down as a script, which waits for the answer
to each of its calls (`Script`). The script of an import is the import itself, for a store and a
reference importer that put each call into the script (`Script.ofImport`). With a real store in
their place it does what the import does (`Script.interpret_ofImport`).

The answers that a script is given, wherever they come from, are those of some store, namely of the
one that has noted them beforehand (`replayed`). So every import of a script takes its records in
passages, whatever happens to the store in between (`Script.Leads.exists_passages`).
-/

namespace MemoTransfer

/-! ## Demands -/

/-- A call of a store or of a reference importer that has not been answered. -/
inductive Demand
  | listMemos (query : MemoQuery)
  | getMemo (query : MemoQuery)
  | createMemo (memo : Memo)
  | updateMemo (patch : MemoPatch)
  | listAttachments (id : MemoId)
  | listRelations (id : MemoId)
  | contentLimit
  | importAttachments (uid : String) (refs : List AttachmentRef)
  | importRelations (uid : String) (refs : List RelationRef)

namespace Demand

/-- What is answered. -/
abbrev Response : Demand → Type
  | listMemos _ => Except Error (List Memo)
  | getMemo _ => Except Error (Option Memo)
  | createMemo _ => Except Error Memo
  | updateMemo _ => Except Error Unit
  | listAttachments _ => Except Error (List Attachment)
  | listRelations _ => Except Error (List Relation)
  | contentLimit => Except Error Nat
  | importAttachments _ _ => ReferenceResult
  | importRelations _ _ => ReferenceResult

/-- The call with its answer. -/
def noted : (d : Demand) → d.Response → Call
  | listMemos q, x => .listMemos q x
  | getMemo q, x => .getMemo q x
  | createMemo m, x => .createMemo m x
  | updateMemo p, x => .updateMemo p x
  | listAttachments id, x => .listAttachments id x
  | listRelations id, x => .listRelations id x
  | contentLimit, x => .contentLimit x
  | importAttachments uid refs, x => .importAttachments uid refs x
  | importRelations uid refs, x => .importRelations uid refs x

/-- The answer of a call of this kind. -/
def response? : (d : Demand) → Call → Option d.Response
  | listMemos _, .listMemos _ x => some x
  | getMemo _, .getMemo _ x => some x
  | createMemo _, .createMemo _ x => some x
  | updateMemo _, .updateMemo _ x => some x
  | listAttachments _, .listAttachments _ x => some x
  | listRelations _, .listRelations _ x => some x
  | contentLimit, .contentLimit x => some x
  | importAttachments _ _, .importAttachments _ _ x => some x
  | importRelations _ _, .importRelations _ _ x => some x
  | _, _ => none

theorem response?_noted (d : Demand) (x : d.Response) : d.response? (d.noted x) = some x := by
  cases d <;> rfl

/-- What is answered where there is nothing to answer. -/
def idle : (d : Demand) → d.Response
  | listMemos _ | getMemo _ | createMemo _ | updateMemo _ | listAttachments _ | listRelations _
  | contentLimit => .error .migration
  | importAttachments _ _ | importRelations _ _ => .imported 0

/-- Has the demand answered. -/
def ask {m : Type → Type} (store : MemoStore m) (references : ReferenceImporter m) :
    (d : Demand) → m d.Response
  | listMemos q => (store.listMemos q).run
  | getMemo q => (store.getMemo q).run
  | createMemo memo => (store.createMemo memo).run
  | updateMemo p => (store.updateMemo p).run
  | listAttachments id => (store.listAttachments id).run
  | listRelations id => (store.listRelations id).run
  | contentLimit => store.contentLimit.run
  | importAttachments uid refs => references.importAttachments uid refs
  | importRelations uid refs => references.importRelations uid refs

end Demand

section

variable {m : Type → Type} (answer : (d : Demand) → m d.Response)

/-- The store whose calls are answered like this. -/
def MemoStore.answering : MemoStore m where
  listMemos q := .mk (answer (.listMemos q))
  getMemo q := .mk (answer (.getMemo q))
  createMemo memo := .mk (answer (.createMemo memo))
  updateMemo p := .mk (answer (.updateMemo p))
  listAttachments id := .mk (answer (.listAttachments id))
  listRelations id := .mk (answer (.listRelations id))
  contentLimit := .mk (answer .contentLimit)

/-- The reference importer whose calls are answered like this. -/
def ReferenceImporter.answering : ReferenceImporter m where
  importAttachments uid refs := answer (.importAttachments uid refs)
  importRelations uid refs := answer (.importRelations uid refs)

/-- The import for a store and a reference importer whose calls are answered like this. -/
def importAnswering [Monad m] (user : Except Error User) (request : ImportRequest) (now : Int) :
    ExceptT Error m ImportReport :=
  importMemos (.answering answer) user request (.answering answer) now

end

/-! ## Scripts -/

/-- What is to be done with the answers to calls. -/
inductive Script (α : Type)
  | done (result : α)
  | call (demand : Demand) (next : demand.Response → Script α)

namespace Script

variable {α β : Type}

/-- One script after another. -/
def andThen (p : Script α) (f : α → Script β) : Script β :=
  match p with
  | done a => f a
  | call d next => call d fun x => (next x).andThen f

instance : Monad Script where
  pure := done
  bind := andThen

theorem andThen_done (p : Script α) : p.andThen done = p := by
  induction p with
  | done a => rfl
  | call d next ih => simp only [andThen, ih]

theorem andThen_andThen {γ : Type} (p : Script α) (f : α → Script β) (g : β → Script γ) :
    (p.andThen f).andThen g = p.andThen fun a => (f a).andThen g := by
  induction p with
  | done a => rfl
  | call d next ih => simp only [andThen, ih]

instance : LawfulMonad Script := .mk' Script andThen_done (fun _ _ => rfl) andThen_andThen

/-- The script of a single call. -/
def ask (d : Demand) : Script d.Response := call d done

/-- The script of an import. -/
def ofImport (user : Except Error User) (request : ImportRequest) (now : Int) :
    Script (Except Error ImportReport) :=
  (importAnswering ask user request now).run

/-! ## Carrying scripts out -/

variable {m : Type → Type} [Monad m]

/-- Carries a script out. -/
def interpret (answer : (d : Demand) → m d.Response) : Script α → m α
  | done a => pure a
  | call d next => answer d >>= fun x => (next x).interpret answer

variable {answer : (d : Demand) → m d.Response}

theorem interpret_ask [LawfulMonad m] (d : Demand) : (ask d).interpret answer = answer d :=
  bind_pure (answer d)

theorem interpret_bind [LawfulMonad m] (p : Script α) (f : α → Script β) :
    (p >>= f).interpret answer = p.interpret answer >>= fun a => (f a).interpret answer := by
  induction p with
  | done a => exact (pure_bind a fun a => (f a).interpret answer).symm
  | call d next ih =>
    show (answer d >>= fun x => (next x >>= f).interpret answer) =
      (answer d >>= fun x => (next x).interpret answer) >>= fun a => (f a).interpret answer
    simp only [ih, bind_assoc]

theorem interpret_map [LawfulMonad m] (f : α → β) (p : Script α) :
    (f <$> p).interpret answer = f <$> p.interpret answer := by
  rw [← bind_pure_comp, interpret_bind, ← bind_pure_comp]
  rfl

end Script

/-- With these answers, the script does what the action does. -/
def Plays {m : Type → Type} [Monad m] (answer : (d : Demand) → m d.Response) {α : Type}
    (p : ExceptT Error Script α) (act : ExceptT Error m α) : Prop :=
  p.run.interpret answer = act.run

namespace Plays

variable {m : Type → Type} [Monad m] {answer : (d : Demand) → m d.Response} {α β : Type}
  {p p' : ExceptT Error Script α} {act act' : ExceptT Error m α}

theorem pure (a : α) : Plays answer (Pure.pure a) (Pure.pure a) := rfl

theorem throw (e : Error) : Plays answer (throw e : ExceptT Error Script α) (throw e) := rfl

theorem of_except (x : Except Error α) : Plays answer (liftM x) (liftM x) := by
  cases x <;> rfl

theorem ite {c : Prop} [Decidable c] (h : Plays answer p act) (h' : Plays answer p' act') :
    Plays answer (if c then p else p') (if c then act else act') := by
  split
  · exact h
  · exact h'

variable [LawfulMonad m]

theorem bind {f : α → ExceptT Error Script β} {g : α → ExceptT Error m β}
    (h : Plays answer p act) (h' : ∀ a, Plays answer (f a) (g a)) :
    Plays answer (p >>= f) (act >>= g) := by
  unfold Plays at h h' ⊢
  rw [ExceptT.run_bind, ExceptT.run_bind, Script.interpret_bind, h]
  congr 1
  funext x
  cases x with
  | error e => rfl
  | ok a => exact h' a

theorem adapt (h : Plays answer p act) (change : Error → Error) :
    Plays answer (p.adapt change) (act.adapt change) := by
  show (Except.mapError change <$> p.run).interpret answer = Except.mapError change <$> act.run
  rw [Script.interpret_map, h]

theorem lift {p : Script α} {act : m α} (h : p.interpret answer = act) :
    Plays answer (ExceptT.lift p) (ExceptT.lift act) := by
  subst h
  exact Script.interpret_map _ _

theorem mapM {f : α → ExceptT Error Script β} {g : α → ExceptT Error m β}
    (h : ∀ a, Plays answer (f a) (g a)) (as : List α) :
    Plays answer (as.mapM f) (as.mapM g) := by
  induction as with
  | nil => exact .pure _
  | cons a as ih =>
    rw [List.mapM_cons, List.mapM_cons]
    exact (h a).bind fun b => ih.bind fun bs => .pure _

end Plays

/-! ## The script of an import -/

section

variable {m : Type → Type} [Monad m] [LawfulMonad m] (answer : (d : Demand) → m d.Response)
  (r : MemoRecord) (owner : UserId) (options : ImportOptions) (now : Int)

theorem examine_plays : Plays answer (examine (.answering Script.ask) r options)
    (examine (.answering answer) r options) := by
  have looked : Plays answer ((MemoStore.answering Script.ask).getMemo (.byUid r.uid))
      ((MemoStore.answering answer).getMemo (.byUid r.uid)) := Script.interpret_ask _
  have asked : Plays answer (MemoStore.answering Script.ask).contentLimit
      (MemoStore.answering answer).contentLimit := Script.interpret_ask _
  refine (looked.adapt _).bind fun existing => ?_
  have rest := (asked.adapt (Error.during "get content length limit")).bind fun limit =>
    (Plays.of_except (checkLength r.content limit)).bind fun _ => .pure existing
  exact .ite (.bind (.throw _) fun _ => rest) rest

theorem writeMemo_plays (found : Option Memo) :
    Plays answer (writeMemo (.answering Script.ask) owner r options now found)
      (writeMemo (.answering answer) owner r options now found) := by
  cases found with
  | some memo =>
    have updated : Plays answer
        ((MemoStore.answering Script.ask).updateMemo (r.toPatch memo.id options))
        ((MemoStore.answering answer).updateMemo (r.toPatch memo.id options)) :=
      Script.interpret_ask _
    exact (updated.adapt _).bind fun _ => .pure _
  | none =>
    have created : Plays answer
        ((MemoStore.answering Script.ask).createMemo (r.toMemo owner options now))
        ((MemoStore.answering answer).createMemo (r.toMemo owner options now)) :=
      Script.interpret_ask _
    exact (created.adapt _).bind fun _ => .pure _

theorem bringIn_plays {α : Type} (skip : Bool) (refs : List α)
    {p : List α → Script ReferenceResult} {act : List α → m ReferenceResult}
    (h : ∀ refs, (p refs).interpret answer = act refs) :
    Plays answer (ExceptT.lift (bringIn skip refs p)) (ExceptT.lift (bringIn skip refs act)) := by
  refine .lift ?_
  unfold bringIn
  split
  · rfl
  · rw [Script.interpret_bind, h]
    congr 1
    funext x
    cases x <;> rfl

theorem importRecord_plays :
    Plays answer (importRecord (.answering Script.ask) owner r options (.answering Script.ask) now)
      (importRecord (.answering answer) owner r options (.answering answer) now) := by
  refine (examine_plays answer r options).bind fun existing => ?_
  dsimp only
  refine .ite (.pure _) ?_
  refine (writeMemo_plays answer r owner options now existing).bind fun disposition => ?_
  refine (bringIn_plays answer _ _ fun _ => Script.interpret_ask _).bind fun attachments => ?_
  exact (bringIn_plays answer _ _ fun _ => Script.interpret_ask _).bind fun relations => .pure _

theorem reconcile_plays : Plays answer
    (ExceptT.lift (reconcile (.answering Script.ask) owner options (.answering Script.ask) now r))
    (ExceptT.lift (reconcile (.answering answer) owner options (.answering answer) now r)) := by
  refine .lift ?_
  unfold reconcile
  rw [Script.interpret_bind, importRecord_plays answer r owner options now]
  congr 1
  funext x
  cases x <;> rfl

/-- **The script of an import does what the import does**, wherever the answers come from. -/
theorem Script.interpret_ofImport (user : Except Error User) (request : ImportRequest) (now : Int) :
    (ofImport user request now).interpret answer =
      (importAnswering answer user request now).run := by
  refine Plays.bind (.of_except user) fun user => ?_
  refine Plays.bind (.of_except request.snapshot) fun snapshot => ?_
  refine Plays.bind (.mapM (fun r => ?_) snapshot.records) fun verdicts => .pure _
  exact reconcile_plays answer r user.id request.options now

end

/-! ## What a script leads to -/

/-- With these calls and their answers the first script has become the other one. -/
inductive Script.Leads {α : Type} : Script α → List Call → Script α → Prop
  | refl (p : Script α) : p.Leads [] p
  | call {d : Demand} {next : d.Response → Script α} {x : d.Response} {calls : List Call}
      {q : Script α} (rest : (next x).Leads calls q) : (call d next).Leads (d.noted x :: calls) q

/-- Gives the answers of calls that have been noted. -/
def replayed (d : Demand) : StateM (List Call) d.Response
  | [] => (d.idle, [])
  | call :: calls => ((d.response? call).getD d.idle, calls)

namespace Script

/-- A script takes the course that was noted. -/
theorem Leads.run_interpret {α : Type} {p q : Script α} {calls : List Call} (h : p.Leads calls q)
    {a : α} (finished : q = .done a) (before : List Call) :
    (p.interpret fun d => watch (replayed d) d.noted).run ⟨calls, before⟩ =
      (a, ⟨[], before ++ calls⟩) := by
  induction h generalizing before with
  | refl p =>
    subst finished
    rw [List.append_nil]
    rfl
  | @call d next x calls q _ ih =>
    have answered : (replayed d).run (d.noted x :: calls) = (x, calls) := by
      show ((d.response? (d.noted x)).getD d.idle, calls) = (x, calls)
      rw [d.response?_noted, Option.getD_some]
    rw [interpret, StateT.run_bind, watch_run, answered, List.append_cons before _ calls]
    exact ih finished _

/-- **Whatever it is answered, an import takes its records in passages.** -/
theorem Leads.exists_passages {user : User} {request : ImportRequest} {now : Int}
    {snapshot : Snapshot} {calls : List Call} {result : Except Error ImportReport}
    (brought : request.snapshot = .ok snapshot)
    (h : (ofImport (.ok user) request now).Leads calls (.done result)) :
    ∃ passages : List Passage,
      result = .ok ⟨passages.map Passage.verdict, request.options.validateOnly⟩ ∧
      calls = passages.flatMap Passage.calls ∧ passages.map Passage.record = snapshot.records ∧
      ∀ p ∈ passages, p.Follows user.id request.options now := by
  obtain ⟨passages, t, noted, records, follows⟩ :=
    importMemos_noted (.answering replayed) (.answering replayed) user brought now calls
  have run := h.run_interpret rfl []
  rw [interpret_ofImport] at run
  obtain ⟨result_eq, left⟩ := Prod.mk.inj (run.symm.trans (noted.watched []))
  obtain ⟨-, calls_eq⟩ := Watched.mk.inj left
  exact ⟨passages, result_eq, calls_eq, records, follows⟩

end Script

end MemoTransfer
