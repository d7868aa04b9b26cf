import MemoTransfer.Proofs.Transfer.Runs
import MemoTransfer.Transfer.Import

/-!
# Calls of a store

A store and a reference importer may answer every call as they like: with an error, or differently
from one call to the next, out of a state of their own. A watched store does the same and notes each
call with its answer (`MemoStore.watched`). `Noted plain watched s x t calls` says that the action
on the store and the one on the watched store both end with the result `x` and in the state `t`, and
that these calls are noted meanwhile. As with runs, the calls of a sequence are put together from
those of its parts, and a failure of the first part ends it.
-/

namespace MemoTransfer

variable {σ α β : Type}

/-! ## Calls -/

/-- A call of a store or of a reference importer, with its answer. -/
inductive Call
  | listMemos (query : MemoQuery) (answer : Except Error (List Memo))
  | getMemo (query : MemoQuery) (answer : Except Error (Option Memo))
  | createMemo (memo : Memo) (answer : Except Error Memo)
  | updateMemo (patch : MemoPatch) (answer : Except Error Unit)
  | listAttachments (id : MemoId) (answer : Except Error (List Attachment))
  | listRelations (id : MemoId) (answer : Except Error (List Relation))
  | contentLimit (answer : Except Error Nat)
  | importAttachments (uid : String) (refs : List AttachmentRef) (answer : ReferenceResult)
  | importRelations (uid : String) (refs : List RelationRef) (answer : ReferenceResult)

namespace Call

/-- The call asks for a memo to be written. -/
def isWrite : Call → Bool
  | createMemo _ _ | updateMemo _ _ => true
  | _ => false

/-- The call has created a memo. -/
def hasCreated : Call → Bool
  | createMemo _ (.ok _) => true
  | _ => false

/-- The call has updated a memo. -/
def hasUpdated : Call → Bool
  | updateMemo _ (.ok _) => true
  | _ => false

/-- The call is one of the reference importer. -/
def isReference : Call → Bool
  | importAttachments _ _ _ | importRelations _ _ _ => true
  | _ => false

theorem isWrite_of_hasCreated {c : Call} (h : c.hasCreated = true) : c.isWrite = true := by
  cases c <;> first | rfl | simp [hasCreated] at h

theorem isWrite_of_hasUpdated {c : Call} (h : c.hasUpdated = true) : c.isWrite = true := by
  cases c <;> first | rfl | simp [hasUpdated] at h

theorem isWrite_of_isReference {c : Call} (h : c.isReference = true) : c.isWrite = false := by
  cases c <;> first | rfl | simp [isReference] at h

/-- Calls that do not write are not counted among those that do. -/
theorem countP_eq_zero {f : Call → Bool} (writes : ∀ c, f c = true → c.isWrite = true)
    {calls : List Call} (quiet : ∀ c ∈ calls, c.isWrite = false) : calls.countP f = 0 := by
  rw [List.countP_eq_zero]
  intro c hc counted
  have write := writes c counted
  rw [quiet c hc] at write
  cases write

end Call

/-! ## Watching -/

/-- A state, with the calls that have been made. -/
structure Watched (σ : Type) where
  state : σ
  calls : List Call

/-- Does the same, and notes a call with the answer. -/
def watch (act : StateM σ α) (call : α → Call) : StateM (Watched σ) α := fun w =>
  let (answer, state) := act.run w.state
  (answer, ⟨state, w.calls ++ [call answer]⟩)

theorem watch_run (act : StateM σ α) (call : α → Call) (s : σ) (before : List Call) :
    (watch act call).run ⟨s, before⟩ =
      ((act.run s).1, ⟨(act.run s).2, before ++ [call (act.run s).1]⟩) := rfl

/-- The store that notes each call of it. -/
def MemoStore.watched (store : MemoStore (StateM σ)) : MemoStore (StateM (Watched σ)) where
  listMemos q := .mk (watch (store.listMemos q).run (.listMemos q))
  getMemo q := .mk (watch (store.getMemo q).run (.getMemo q))
  createMemo m := .mk (watch (store.createMemo m).run (.createMemo m))
  updateMemo p := .mk (watch (store.updateMemo p).run (.updateMemo p))
  listAttachments id := .mk (watch (store.listAttachments id).run (.listAttachments id))
  listRelations id := .mk (watch (store.listRelations id).run (.listRelations id))
  contentLimit := .mk (watch store.contentLimit.run .contentLimit)

/-- The reference importer that notes each call of it. -/
def ReferenceImporter.watched (references : ReferenceImporter (StateM σ)) :
    ReferenceImporter (StateM (Watched σ)) where
  importAttachments uid refs :=
    watch (references.importAttachments uid refs) (.importAttachments uid refs)
  importRelations uid refs :=
    watch (references.importRelations uid refs) (.importRelations uid refs)

/-! ## What is noted -/

/-- The plain action and the watched one both end with `x` and in `t`, and the calls are noted. -/
structure Noted (plain : ExceptT Error (StateM σ) α)
    (watched : ExceptT Error (StateM (Watched σ)) α) (s : σ) (x : Except Error α) (t : σ)
    (calls : List Call) : Prop where
  plain : Ends plain s x t
  watched : ∀ before, Ends watched ⟨s, before⟩ x ⟨t, before ++ calls⟩

namespace Noted

variable {p : ExceptT Error (StateM σ) α} {w : ExceptT Error (StateM (Watched σ)) α}
  {f : α → ExceptT Error (StateM σ) β} {g : α → ExceptT Error (StateM (Watched σ)) β}
  {s t u : σ} {v : α} {e : Error} {x : Except Error α} {y : Except Error β}
  {calls later : List Call}

theorem pure (v : α) (s : σ) :
    Noted (Pure.pure v : ExceptT Error (StateM σ) α) (Pure.pure v) s (.ok v) s [] := by
  refine ⟨.pure v s, fun before => ?_⟩
  rw [List.append_nil]
  exact .pure v _

theorem throw (e : Error) (s : σ) :
    Noted (throw e : ExceptT Error (StateM σ) α) (throw e) s (.error e) s [] := by
  refine ⟨.throw e s, fun before => ?_⟩
  rw [List.append_nil]
  exact .throw e _

theorem of_except {x y : Except Error α} (h : x = y) (s : σ) :
    Noted (liftM x : ExceptT Error (StateM σ) α) (liftM x) s y s [] := by
  refine ⟨.of_except h s, fun before => ?_⟩
  rw [List.append_nil]
  exact .of_except h _

theorem bind (h : Noted p w s (.ok v) t calls) (h' : Noted (f v) (g v) t y u later) :
    Noted (p >>= f) (w >>= g) s y u (calls ++ later) := by
  refine ⟨h.plain.bind h'.plain, fun before => ?_⟩
  rw [← List.append_assoc]
  exact (h.watched before).bind (h'.watched _)

/-- The second action calls nothing. -/
theorem bind_quiet (h : Noted p w s (.ok v) t calls) (h' : Noted (f v) (g v) t y u []) :
    Noted (p >>= f) (w >>= g) s y u calls := by
  simpa using h.bind h'

theorem bind_error (h : Noted p w s (.error e) t calls) :
    Noted (p >>= f) (w >>= g) s (.error e) t calls :=
  ⟨h.plain.bind_error, fun before => (h.watched before).bind_error⟩

theorem adapt (change : Error → Error) (h : Noted p w s x t calls) :
    Noted (p.adapt change) (w.adapt change) s (x.mapError change) t calls :=
  ⟨h.plain.adapt change, fun before => (h.watched before).adapt change⟩

/-- A call is noted with its answer. -/
theorem call (act : ExceptT Error (StateM σ) α) (call : Except Error α → Call) (s : σ) :
    Noted act (.mk (watch act.run call)) s (act.run.run s).1 (act.run.run s).2
      [call (act.run.run s).1] :=
  ⟨rfl, fun _ => rfl⟩

/-- An action that does not fail. -/
theorem lift {act : StateM σ α} {act' : StateM (Watched σ) α} (h : act.run s = (v, t))
    (h' : ∀ before, act'.run ⟨s, before⟩ = (v, ⟨t, before ++ calls⟩)) :
    Noted (ExceptT.lift act) (ExceptT.lift act') s (.ok v) t calls :=
  ⟨.lift h, fun before => .lift (h' before)⟩

end Noted

end MemoTransfer
