import MemoTransfer.Content.Pattern
import Mathlib.Data.List.Basic

/-!
# The matches of a pattern

What the search of a pattern does with a text that is put together from parts: a part where no match
can begin stays as it is, and a part that is one match becomes a space, whatever follows. The search
finds something just if the pattern matches at some place (`occursIn_iff`), and what it leaves of a
text has no new words (`infix_of_infix_blankAll`).
-/

namespace MemoTransfer.Content.Pattern

variable {α : Type} {p : Pattern α} {before : Option Char} {c : Char} {cs rest : List Char}

/-! ## One place -/

theorem findFrom_of_none (h : p before (c :: cs) = none) :
    p.findFrom 0 before (c :: cs) = p.findFrom 0 (some c) cs := by
  rw [findFrom, h]

theorem findFrom_of_some {a : α} {length : Nat} (h : p before (c :: cs) = some (a, length)) :
    p.findFrom 0 before (c :: cs) = a :: p.findFrom (length - 1) (some c) cs := by
  rw [findFrom, h]

theorem blankFrom_of_none (h : p before (c :: cs) = none) :
    p.blankFrom 0 before (c :: cs) = c :: p.blankFrom 0 (some c) cs := by
  rw [blankFrom, h]

theorem blankFrom_of_some {a : α} {length : Nat} (h : p before (c :: cs) = some (a, length)) :
    p.blankFrom 0 before (c :: cs) = ' ' :: p.blankFrom (length - 1) (some c) cs := by
  rw [blankFrom, h]

/-- A place that is looked at leaves one character. -/
theorem exists_blankFrom_cons (p : Pattern α) (before : Option Char) (c : Char) (cs : List Char) :
    ∃ d skip, p.blankFrom 0 before (c :: cs) = d :: p.blankFrom skip (some c) cs := by
  cases h : p before (c :: cs) with
  | none => exact ⟨_, _, blankFrom_of_none h⟩
  | some x => exact ⟨_, _, blankFrom_of_some h⟩

/-- The last character of a text, or else the one before it. -/
theorem getLast?_cons_or (c : Char) (cs : List Char) (before : Option Char) :
    (c :: cs).getLast?.or before = cs.getLast?.or (some c) := by
  rw [List.getLast?_cons, Option.or_some, Option.some_or]

/-! ## A part of a text -/

/-- What is left out is not looked at. -/
theorem findFrom_skip (p : Pattern α) (cs rest : List Char) (before : Option Char) :
    p.findFrom cs.length before (cs ++ rest) = p.findFrom 0 (cs.getLast?.or before) rest := by
  induction cs generalizing before with
  | nil => rfl
  | cons c cs ih =>
    rw [List.length_cons, List.cons_append, findFrom, ih, getLast?_cons_or]

/-- What is left out is not looked at. -/
theorem blankFrom_skip (p : Pattern α) (cs rest : List Char) (before : Option Char) :
    p.blankFrom cs.length before (cs ++ rest) = p.blankFrom 0 (cs.getLast?.or before) rest := by
  induction cs generalizing before with
  | nil => rfl
  | cons c cs ih =>
    rw [List.length_cons, List.cons_append, blankFrom, ih, getLast?_cons_or]

/-- Every match of the pattern begins with the character. -/
def StartsWith (p : Pattern α) (d : Char) : Prop :=
  ∀ {c : Char}, c ≠ d → ∀ before rest, p before (c :: rest) = none

/-- A part without the character that every match begins with stays as it is. -/
theorem StartsWith.blankFrom_append {d : Char} (h : p.StartsWith d) (absent : d ∉ cs)
    (before : Option Char) (rest : List Char) :
    p.blankFrom 0 before (cs ++ rest) = cs ++ p.blankFrom 0 (cs.getLast?.or before) rest := by
  induction cs generalizing before with
  | nil => rfl
  | cons c cs ih =>
    rw [List.mem_cons, not_or] at absent
    rw [List.cons_append, blankFrom_of_none (h (Ne.symm absent.1) _ _), ih absent.2,
      getLast?_cons_or, List.cons_append]

/-- A part that is one match becomes a space. -/
theorem blankFrom_match {a : α} (h : p before (c :: cs ++ rest) = some (a, (c :: cs).length)) :
    p.blankFrom 0 before (c :: cs ++ rest) =
      ' ' :: p.blankFrom 0 ((c :: cs).getLast?.or before) rest := by
  rw [List.cons_append] at h ⊢
  rw [blankFrom_of_some h, List.length_cons, Nat.add_sub_cancel, blankFrom_skip, getLast?_cons_or]

/-! ## A whole text -/

/-- Nothing is found just if the pattern matches nowhere: the place of the first match is always
reached. -/
theorem findFrom_eq_nil_iff :
    p.findFrom 0 before cs = [] ↔
      ∀ l d r, cs = l ++ d :: r → p (l.getLast?.or before) (d :: r) = none := by
  induction cs generalizing before with
  | nil => exact ⟨fun _ l d r parted => by simp at parted, fun _ => rfl⟩
  | cons c cs ih =>
    cases h : p before (c :: cs) with
    | some x =>
      refine ⟨fun empty => ?_, fun nowhere => ?_⟩
      · rw [findFrom_of_some h] at empty
        exact absurd empty (List.cons_ne_nil _ _)
      · exact absurd (h.symm.trans (nowhere [] c cs rfl)) (Option.some_ne_none _)
    | none =>
      rw [findFrom_of_none h, ih]
      constructor
      · rintro nowhere (_ | ⟨d, l⟩) e r parted
        · cases parted
          exact h
        · cases parted
          rw [getLast?_cons_or]
          exact nowhere l e r rfl
      · intro nowhere l d r parted
        have later := nowhere (c :: l) d r (by rw [parted, List.cons_append])
        rwa [getLast?_cons_or] at later

/-- **A pattern occurs in a text just if it matches at some place of it.** -/
theorem occursIn_iff :
    p.occursIn cs = true ↔ ∃ l d r, cs = l ++ d :: r ∧ (p l.getLast? (d :: r)).isSome = true := by
  rw [occursIn, findAll, Bool.not_eq_true', ← Bool.not_eq_true, List.isEmpty_iff,
    findFrom_eq_nil_iff]
  simp only [Option.or_none]
  push Not
  simp only [Option.isSome_iff_ne_none]

/-- A text without the character that every match begins with stays as it is. -/
theorem StartsWith.blankAll_eq {d : Char} (h : p.StartsWith d) (absent : d ∉ cs) :
    p.blankAll cs = cs := by
  have kept := h.blankFrom_append absent none []
  rwa [blankFrom, List.append_nil] at kept

/-- A pattern does not occur in a text without the character that its matches begin with. -/
theorem StartsWith.not_occursIn {d : Char} (h : p.StartsWith d) (absent : d ∉ cs) :
    ¬p.occursIn cs = true := by
  rw [occursIn_iff]
  rintro ⟨l, c, r, rfl, here⟩
  have other : c ≠ d := by
    rintro rfl
    exact absent (List.mem_append_right l List.mem_cons_self)
  rw [h other] at here
  cases here

/-- What a text begins with after its matches became spaces, up to a space, it began with before. -/
theorem prefix_of_prefix_blankFrom {w : List Char} (unspaced : ' ' ∉ w)
    (h : w <+: p.blankFrom 0 before cs) : w <+: cs := by
  induction cs generalizing before w with
  | nil => exact h
  | cons c cs ih =>
    cases w with
    | nil => exact List.nil_prefix
    | cons d w =>
      rw [List.mem_cons, not_or] at unspaced
      cases here : p before (c :: cs) with
      | none =>
        rw [blankFrom_of_none here, List.cons_prefix_cons] at h
        exact List.cons_prefix_cons.2 ⟨h.1, ih unspaced.2 h.2⟩
      | some x =>
        rw [blankFrom_of_some here, List.cons_prefix_cons] at h
        exact absurd h.1.symm unspaced.1

theorem infix_of_infix_blankFrom {w : List Char} (unspaced : ' ' ∉ w) {skip : Nat}
    (h : w <:+: p.blankFrom skip before cs) : w <:+: cs := by
  induction cs generalizing before skip with
  | nil => cases skip <;> exact h
  | cons c cs ih =>
    cases skip with
    | succ skip => exact List.infix_cons (ih h)
    | zero =>
      obtain ⟨d, skip, read⟩ := p.exists_blankFrom_cons before c cs
      rw [read] at h
      rcases List.infix_cons_iff.1 h with front | later
      · rw [← read] at front
        exact (prefix_of_prefix_blankFrom unspaced front).isInfix
      · exact List.infix_cons (ih later)

/-- **No words are made where matches are taken out.** What stands in the text that is left, without
a space, stood in the text before. -/
theorem infix_of_infix_blankAll {w : List Char} (unspaced : ' ' ∉ w) (h : w <:+: p.blankAll cs) :
    w <:+: cs :=
  infix_of_infix_blankFrom unspaced h

end MemoTransfer.Content.Pattern
