/-!
# Runs of readers

A reader is an action on a state, which is the text that is still unread, and it may fail.
`Yields act s v t` says that it does not fail: run on `s` it gives `v` and leaves `t`. A run of a
sequence is a run of its first part followed by a run of its second part (`Yields.bind`), and every
run of a sequence is of that form (`Yields.of_bind`), so that what a reader does is put together
from what its parts do, in both directions.
-/

namespace MemoTransfer

variable {σ ε α β : Type}

/-- Run on `s`, the action gives `v` and leaves `t`. -/
def Yields (act : StateT σ (Except ε) α) (s : σ) (v : α) (t : σ) : Prop := act.run s = .ok (v, t)

/-- A sequence that does not fail consists of parts that do not. -/
theorem exists_ok_of_bind {x : Except ε α} {f : α → Except ε β} {w : β} (h : x >>= f = .ok w) :
    ∃ v, x = .ok v ∧ f v = .ok w := by
  cases x with
  | error e => cases h
  | ok v => exact ⟨v, rfl, h⟩

namespace Yields

variable {act : StateT σ (Except ε) α} {f : α → StateT σ (Except ε) β} {s t t' u : σ} {v v' : α}
  {w : β}

/-! ## What is given -/

theorem pure (v : α) (s : σ) : Yields (pure v : StateT σ (Except ε) α) s v s := rfl

theorem get (s : σ) : Yields (get : StateT σ (Except ε) σ) s s s := rfl

theorem set (s t : σ) : Yields (set t : StateT σ (Except ε) PUnit) s ⟨⟩ t := rfl

theorem modify (g : σ → σ) (s : σ) :
    Yields (modify g : StateT σ (Except ε) PUnit) s ⟨⟩ (g s) := rfl

/-- A value that is computed without the state. -/
theorem lift {e : Except ε α} (h : e = .ok v) (s : σ) :
    Yields (liftM e : StateT σ (Except ε) α) s v s := by
  subst h
  rfl

theorem bind (h : Yields act s v t) (h' : Yields (f v) t w u) : Yields (act >>= f) s w u := by
  unfold Yields at h h' ⊢
  rw [StateT.run_bind, h]
  exact h'

/-- The value of an action, changed by a function. -/
theorem bind_pure {g : α → β} (h : Yields act s v t) :
    Yields (do return g (← act)) s (g v) t := h.bind (.pure _ _)

/-! ## What must have been given -/

theorem of_bind (h : Yields (act >>= f) s w u) : ∃ v t, Yields act s v t ∧ Yields (f v) t w u := by
  unfold Yields at h
  rw [StateT.run_bind] at h
  cases hact : act.run s with
  | error e =>
    rw [hact] at h
    cases h
  | ok p =>
    rw [hact] at h
    exact ⟨p.1, p.2, hact, h⟩

theorem unique (h : Yields act s v t) (h' : Yields act s v' t') : v = v' ∧ t = t' := by
  unfold Yields at h h'
  rw [h] at h'
  cases h'
  exact ⟨rfl, rfl⟩

/-- What a sequence does after a first part of which the run is known. -/
theorem next (h : Yields act s v t) (h' : Yields (act >>= f) s w u) : Yields (f v) t w u := by
  obtain ⟨v', t', first, further⟩ := h'.of_bind
  obtain ⟨rfl, rfl⟩ := h.unique first
  exact further

theorem of_pure (h : Yields (Pure.pure v : StateT σ (Except ε) α) s v' t) : v = v' ∧ s = t := by
  cases h
  exact ⟨rfl, rfl⟩

theorem not_throw {e : ε} : ¬Yields (throw e : StateT σ (Except ε) α) s v t := by
  intro h
  cases h

theorem of_lift {e : Except ε α} (h : Yields (liftM e : StateT σ (Except ε) α) s v t) :
    e = .ok v ∧ s = t := by
  cases e with
  | error e => cases h
  | ok v =>
    cases h
    exact ⟨rfl, rfl⟩

end Yields

end MemoTransfer
