import Mathlib.Data.List.TakeWhile
import Mathlib.Tactic.FinCases
import MemoTransfer.Json.Printer
import MemoTransfer.Json.Reader.Kinds
import MemoTransfer.Proofs.Reading
import MemoTransfer.Proofs.Text.Bytes

/-!
# What readers give

`Gives r bs v` says that the reader `r` takes the bytes `bs` from the front of a text, with any
white space before them, and gives `v`. What follows them is any text that does not prolong a
numeral (`EndsNumeral`); in a JSON text that is a comma, a closing mark or white space.
`Gives.run_eq` says what this means for a whole text.

A value begins with one of a few characters (`Opens`), by which a list or an optional member tells
that it is there.
-/

namespace MemoTransfer.Json

open MemoTransfer.Utf8

variable {α β : Type}

/-- The characters that a value begins with. -/
def Opens (c : Char) : Prop := c.isDigit = true ∨ c ∈ ['-', '"', '[', '\x7b', 'n', 't', 'f']

instance (c : Char) : Decidable (Opens c) := inferInstanceAs (Decidable (_ ∨ _))

/-- An ASCII character that is no white space. -/
def IsMark (c : Char) : Prop := c.toNat < 128 ∧ isSpace (byteOf c) = false

instance (c : Char) : Decidable (IsMark c) := inferInstanceAs (Decidable (_ ∧ _))

/-- No numeral goes on into the text. -/
def EndsNumeral (rest : Bytes) : Prop :=
  ∀ b ∈ rest.head?, isDigitByte b = false ∧ Char.ofUInt8 b ∉ ['.', 'e', 'E']

/-- Every byte is white space. -/
def AllSpace (bs : Bytes) : Prop := ∀ b ∈ bs, isSpace b = true

/-- The text begins as a value does. -/
def Begins (bs : Bytes) : Prop := ∃ c tl, bs = byteOf c :: tl ∧ Opens c

/-- The reader takes the text, with white space before it, and gives the value. -/
structure Gives (r : Reader α) (bs : Bytes) (v : α) : Prop where
  begins : Begins bs
  yields : ∀ space rest, AllSpace space → EndsNumeral rest →
    Yields r (space ++ (bs ++ rest)) v rest

/-! ## First characters and what follows -/

theorem Opens.toNat_lt {c : Char} (h : Opens c) : c.toNat < 128 := by
  rcases h with h | h
  · exact toNat_lt_of_isDigit h
  · fin_cases h <;> decide

theorem isSpace_byteOf {c : Char} (h : c.toNat < 128) :
    isSpace (byteOf c) = decide (c ∈ [' ', '\t', '\n', '\r']) := by
  have e : ∀ d : Char, d.toNat < 128 → ((byteOf c = byteOf d) ↔ c = d) := fun d hd =>
    ⟨fun hb => by rw [← ofUInt8_byteOf h, hb, ofUInt8_byteOf hd], fun hc => by rw [hc]⟩
  have h₁ := e ' ' (by decide)
  have h₂ := e '\t' (by decide)
  have h₃ := e '\n' (by decide)
  have h₄ := e '\r' (by decide)
  rw [Bool.eq_iff_iff]
  simp only [isSpace, Bool.or_eq_true, decide_eq_true_eq, List.mem_cons, List.not_mem_nil, or_false]
  rw [← h₁, ← h₂, ← h₃, ← h₄, or_assoc, or_assoc]
  exact Iff.rfl

theorem Opens.isMark {c : Char} (h : Opens c) : IsMark c := by
  refine ⟨h.toNat_lt, ?_⟩
  rw [isSpace_byteOf h.toNat_lt, decide_eq_false_iff_not]
  intro hc
  revert h
  fin_cases hc <;> decide

theorem allSpace_nil : AllSpace [] := by
  intro b hb
  cases hb

theorem endsNumeral_nil : EndsNumeral [] := by
  intro b hb
  cases hb

theorem endsNumeral_cons {b : UInt8}
    (h : isDigitByte b = false ∧ Char.ofUInt8 b ∉ ['.', 'e', 'E']) (rest : Bytes) :
    EndsNumeral (b :: rest) := by
  intro b' hb
  cases hb
  exact h

theorem isDigitByte_of_isSpace {b : UInt8} (h : isSpace b = true) :
    isDigitByte b = false ∧ Char.ofUInt8 b ∉ ['.', 'e', 'E'] := by
  simp only [isSpace, Bool.or_eq_true, decide_eq_true_eq] at h
  rcases h with ((rfl | rfl) | rfl) | rfl <;> decide

/-- White space before a text that ends a numeral ends it as well. -/
theorem AllSpace.endsNumeral {space rest : Bytes} (hs : AllSpace space) (hr : EndsNumeral rest) :
    EndsNumeral (space ++ rest) := by
  cases space with
  | nil => exact hr
  | cons b bs => exact endsNumeral_cons (isDigitByte_of_isSpace (hs b List.mem_cons_self)) _

theorem AllSpace.ends {space : Bytes} (hs : AllSpace space) : EndsNumeral space := by
  have ends := hs.endsNumeral endsNumeral_nil
  rwa [List.append_nil] at ends

/-! ## Marks and words -/

namespace Reader

theorem skipSpace_append {space : Bytes} (hs : AllSpace space) {b : UInt8} (hb : isSpace b = false)
    (rest : Bytes) : skipSpace (space ++ b :: rest) = b :: rest := by
  rw [skipSpace, List.dropWhile_append_of_pos hs, List.dropWhile_cons_of_neg (by simp [hb])]

theorem peek_yields {space : Bytes} (hs : AllSpace space) {c : Char} (hc : IsMark c)
    (rest : Bytes) :
    Yields peek (space ++ byteOf c :: rest) (some c) (byteOf c :: rest) := by
  refine (Yields.modify skipSpace _).bind ?_
  rw [skipSpace_append hs hc.2]
  refine (Yields.get _).bind ?_
  rw [List.head?_cons, Option.map_some, ofUInt8_byteOf hc.1]
  exact .pure _ _

theorem start_yields {space : Bytes} (hs : AllSpace space) {c : Char} (hc : Opens c)
    (rest : Bytes) : Yields start (space ++ byteOf c :: rest) c (byteOf c :: rest) :=
  (peek_yields hs hc.isMark rest).bind (.pure _ _)

theorem advance_yields (b : UInt8) (rest : Bytes) : Yields advance (b :: rest) ⟨⟩ rest :=
  .modify (List.drop 1) _

theorem letters_yields {cs : List Char} (h : ∀ c ∈ cs, c.toNat < 128) (rest : Bytes) :
    Yields (letters cs) (bytes cs ++ rest) ⟨⟩ rest := by
  induction cs with
  | nil => exact .pure _ _
  | cons c cs ih =>
    rw [bytes_cons (h c List.mem_cons_self), List.cons_append]
    refine (Yields.get _).bind ?_
    simp only [ofUInt8_byteOf (h c List.mem_cons_self), if_true]
    exact (Yields.set _ _).bind (ih fun d hd => h d (List.mem_cons_of_mem c hd))

end Reader

namespace Gives

variable {r : Reader α} {bs : Bytes} {v : α}

/-- The value of the text, changed by a function. -/
theorem map {f : α → β} (h : Gives r bs v) : Gives (do return f (← r)) bs (f v) :=
  ⟨h.begins, fun space rest hs hr => (h.yields space rest hs hr).bind_pure⟩

/-- A whole text with white space around the value. -/
theorem run_eq (h : Gives r bs v) {before after : Bytes} (hb : AllSpace before)
    (ha : AllSpace after) : Reader.run r (before ++ (bs ++ after)) = .ok v := by
  have done : skipSpace after = [] := List.dropWhile_eq_nil_iff.2 ha
  unfold Reader.run
  rw [h.yields before after hb ha.ends]
  show (if (skipSpace after).isEmpty then _ else _) = _
  rw [done]
  rfl

theorem run_bytes (h : Gives r bs v) : Reader.run r bs = .ok v := by
  have whole := h.run_eq allSpace_nil allSpace_nil
  rwa [List.append_nil, List.nil_append] at whole

/-! ## Values without parts -/

theorem boolean (b : Bool) (layout : Layout) (depth : Nat) :
    Gives Reader.boolean (bytes ((Value.boolean b).chars layout depth)) b := by
  cases b with
  | true =>
    refine ⟨⟨'t', _, rfl, by decide⟩, fun space rest hs _ => ?_⟩
    have word : Yields Reader.yes (bytes ['t', 'r', 'u', 'e'] ++ rest) ⟨⟩ rest :=
      Reader.letters_yields (by simp) rest
    exact (Reader.start_yields (c := 't') hs (by decide) _).bind (word.bind (.pure _ _))
  | false =>
    refine ⟨⟨'f', _, rfl, by decide⟩, fun space rest hs _ => ?_⟩
    have word : Yields Reader.no (bytes ['f', 'a', 'l', 's', 'e'] ++ rest) ⟨⟩ rest :=
      Reader.letters_yields (by simp) rest
    exact (Reader.start_yields (c := 'f') hs (by decide) _).bind (word.bind (.pure _ _))

/-- A value in the place of an optional one, unless it begins as `null` does. -/
theorem optional {c : Char} {tl : Bytes} (h : Gives r (byteOf c :: tl) v) (hc : Opens c)
    (hn : c ≠ 'n') : Gives (Reader.optional r) (byteOf c :: tl) (some v) := by
  refine ⟨h.begins, fun space rest hs hr => (Reader.peek_yields hs hc.isMark _).bind ?_⟩
  rw [if_neg fun e => hn (Option.some.inj e)]
  exact (h.yields [] rest allSpace_nil hr).bind_pure

theorem null : Gives (Reader.optional r) (bytes ['n', 'u', 'l', 'l']) none := by
  refine ⟨⟨'n', _, rfl, by decide⟩, fun space rest hs _ => ?_⟩
  have word : Yields Reader.null (bytes ['n', 'u', 'l', 'l'] ++ rest) ⟨⟩ rest :=
    Reader.letters_yields (by simp) rest
  exact (Reader.peek_yields hs (c := 'n') (by decide) _).bind (word.bind (.pure _ _))

end Gives

end MemoTransfer.Json
