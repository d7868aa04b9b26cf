import MemoTransfer.Transfer.Export
import MemoTransfer.Transfer.Import

/-!
# Runs on a store

An action on a state may fail and then leaves the state as it is at that moment. `Ends act s r t`
says that, run on `s`, the action ends with the result `r` and leaves `t`. As with readers, the run
of a sequence is put together from the runs of its parts, but a failure of the first part ends it
(`Ends.bind_error`). A list of actions is run one after another (`Ends.mapM_cons`), and if none of
them changes the state, all of them are run on the same one (`Ends.mapM_answers`). The import of a
record and the export of a memo are run to their ends even if they fail (`reconcile_run_of_ends`,
`exportEntry_run_of_ends`).
-/

namespace MemoTransfer

variable {σ ε α β : Type}

/-- Run on `s`, the action ends with `r` and leaves `t`. -/
def Ends (act : ExceptT ε (StateM σ) α) (s : σ) (r : Except ε α) (t : σ) : Prop :=
  act.run.run s = (r, t)

namespace Ends

variable {act : ExceptT ε (StateM σ) α} {f : α → ExceptT ε (StateM σ) β} {s t u : σ} {v : α} {e : ε}
  {r : Except ε β}

theorem pure (v : α) (s : σ) : Ends (Pure.pure v : ExceptT ε (StateM σ) α) s (.ok v) s := rfl

theorem throw (e : ε) (s : σ) :
    Ends (throw e : ExceptT ε (StateM σ) α) s (.error e) s := rfl

theorem bind (h : Ends act s (.ok v) t) (h' : Ends (f v) t r u) : Ends (act >>= f) s r u := by
  unfold Ends at h h' ⊢
  rw [ExceptT.run_bind, StateT.run_bind, h]
  exact h'

theorem bind_error (h : Ends act s (.error e) t) : Ends (act >>= f) s (.error e) t := by
  unfold Ends at h ⊢
  rw [ExceptT.run_bind, StateT.run_bind, h]
  rfl

/-- Questions that are asked one after another. -/
theorem bind_answer {x : Except ε α} {g : α → Except ε β} (h : Ends act s x s)
    (h' : ∀ v, Ends (f v) s (g v) s) : Ends (act >>= f) s (x >>= g) s := by
  cases x with
  | error e => exact h.bind_error
  | ok v => exact h.bind (h' v)

/-- A question that is asked on a condition. -/
theorem bind_if {c : Bool} {w : α} (h : Ends act s (.ok v) s)
    (h' : Ends (f (if c then v else w)) s r t) :
    Ends (if c then act >>= f else Pure.pure w >>= f) s r t := by
  cases c with
  | true => exact h.bind h'
  | false => exact h'

/-- A result that is computed without the state. -/
theorem of_except {x y : Except ε α} (h : x = y) (s : σ) :
    Ends (liftM x : ExceptT ε (StateM σ) α) s y s := by
  subst h
  cases x <;> rfl

/-- An action that does not fail. -/
theorem lift {act : StateM σ α} (h : act.run s = (v, t)) :
    Ends (ExceptT.lift act : ExceptT ε (StateM σ) α) s (.ok v) t := by
  unfold Ends
  rw [ExceptT.run_lift, StateT.run_map, h]
  rfl

theorem adapt {ε' : Type} {act : ExceptT ε (StateM σ) α} {x : Except ε α} (g : ε → ε')
    (h : Ends act s x t) : Ends (act.adapt g) s (x.mapError g) t := by
  unfold Ends at h ⊢
  rw [ExceptT.run_adapt, StateT.run_map, h]
  rfl

/-! ## Lists of actions -/

theorem mapM_cons {g : β → ExceptT ε (StateM σ) α} {b : β} {bs : List β} {vs : List α}
    (h : Ends (g b) s (.ok v) t) (h' : Ends (bs.mapM g) t (.ok vs) u) :
    Ends ((b :: bs).mapM g) s (.ok (v :: vs)) u := by
  rw [List.mapM_cons]
  exact h.bind (h'.bind (.pure _ _))

/-- Actions that only ask. -/
theorem mapM_answers {g : β → ExceptT ε (StateM σ) α} {answer : β → α} {bs : List β}
    (h : ∀ b ∈ bs, Ends (g b) s (.ok (answer b)) s) :
    Ends (bs.mapM g) s (.ok (bs.map answer)) s := by
  induction bs with
  | nil => exact .pure _ _
  | cons b bs ih =>
    exact mapM_cons (h b List.mem_cons_self) (ih fun b' hb => h b' (List.mem_cons_of_mem b hb))

end Ends

/-- The run that catches the error of a record leaves what the record leaves. -/
theorem reconcile_run_of_ends {store : MemoStore (StateM σ)}
    {references : ReferenceImporter (StateM σ)} {owner : UserId} {options : ImportOptions}
    {now : Int} {r : MemoRecord} {s t : σ} {x : Except Error (Imported × List String)}
    (h : Ends (importRecord store owner r options references now) s x t) :
    (reconcile store owner options references now r).run s =
      (x.mapError (Rejection.mk r.uid), t) := by
  unfold reconcile
  rw [StateT.run_bind, h]
  cases x <;> rfl

/-- The run that catches the error of a memo leaves what the memo leaves. -/
theorem exportEntry_run_of_ends {store : MemoStore (StateM σ)} {request : ExportRequest} {m : Memo}
    {s t : σ} {x : Except Error MemoRecord} (h : Ends (exportMemo store request m) s x t) :
    (exportEntry store request m).run s = (x.mapError (SkippedMemo.mk m.id), t) := by
  unfold exportEntry
  rw [StateT.run_bind, h]
  cases x <;> rfl

/-! ## Operations of a store -/

namespace Store

variable {s t : Store}

theorem ask_ends (f : Store → Except Error α) (s : Store) : Ends (ask f) s (f s) s := rfl

theorem change_ends {f : Store → Except Error (α × Store)} {v : α} (h : f s = .ok (v, t)) :
    Ends (change f) s (.ok v) t := by
  show change f s = _
  rw [change, h]

theorem change_ends_error {f : Store → Except Error (α × Store)} {e : Error} (h : f s = .error e) :
    Ends (change f) s (.error e) s := by
  show change f s = _
  rw [change, h]

end Store

end MemoTransfer
