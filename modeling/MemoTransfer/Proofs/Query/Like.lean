import Mathlib.Data.List.Forall2
import Mathlib.Data.List.TakeWhile
import MemoTransfer.Query.Like

/-!
# What a pattern finds

The pattern of a text matches what contains the text, but for the case of ASCII letters, and nothing
else (`Like.matchesAll_containing`): whatever the text is, each of its characters stands for itself,
since the wildcards among them are escaped. A comparison sees the pattern of a text as the pattern
of what it sees of the text (`Like.seen_containing`), unless a null character cuts it off.
-/

namespace MemoTransfer.Query.Like

variable {c : Char} {text content pattern : List Char}

/-! ## Escaped texts -/

/-- The second text is the first one, but for the case of ASCII letters. -/
abbrev SameLetters (text among : List Char) : Prop :=
  List.Forall₂ (fun c d => sameLetter c d = true) text among

/-- The text occurs in the content, but for the case of ASCII letters. -/
def Occurs (text content : List Char) : Prop :=
  ∃ before among after, content = before ++ (among ++ after) ∧ SameLetters text among

theorem anyEnd_iff (p : List Char → Bool) (text : List Char) :
    anyEnd p text = true ↔ ∃ before rest, text = before ++ rest ∧ p rest = true := by
  induction text with
  | nil => simp [anyEnd, and_assoc]
  | cons c text ih =>
    rw [anyEnd, Bool.or_eq_true, ih]
    constructor
    · rintro (whole | ⟨before, rest, rfl, found⟩)
      · exact ⟨[], c :: text, rfl, whole⟩
      · exact ⟨c :: before, rest, rfl, found⟩
    · rintro ⟨_ | ⟨d, before⟩, rest, e, found⟩
      · exact .inl (by rw [e]; exact found)
      · cases e
        exact .inr ⟨before, rest, rfl, found⟩

/-- An escaped character stands for itself. -/
theorem matchesAll_escape_cons (c : Char) (text pattern : List Char) :
    matchesAll (escape (c :: text) ++ pattern) content = match content with
      | [] => false
      | d :: rest => sameLetter c d && matchesAll (escape text ++ pattern) rest := by
  rw [escape]
  cases special : isSpecial c with
  | true =>
    rw [if_pos rfl, List.cons_append, List.cons_append]
    cases content <;> rfl
  | false =>
    rw [if_neg Bool.false_ne_true, List.cons_append]
    simp only [isSpecial, Bool.or_eq_false_iff, decide_eq_false_iff_not] at special
    obtain ⟨⟨percent, underscore⟩, backslash⟩ := special
    cases content with
    | nil => rw [matchesAll] <;> simp_all
    | cons d rest => rw [matchesAll] <;> simp_all

/-- The pattern of a text, with another one behind it. -/
theorem matchesAll_escape_append (text pattern content : List Char) :
    matchesAll (escape text ++ pattern) content = true ↔ ∃ among rest,
      content = among ++ rest ∧ SameLetters text among ∧ matchesAll pattern rest = true := by
  induction text generalizing content with
  | nil => simp [escape, SameLetters]
  | cons c text ih =>
    rw [matchesAll_escape_cons]
    cases content with
    | nil => simp [SameLetters]
    | cons d content =>
      rw [Bool.and_eq_true, ih]
      constructor
      · rintro ⟨same, among, rest, rfl, letters, found⟩
        exact ⟨d :: among, rest, rfl, .cons same letters, found⟩
      · rintro ⟨_, rest, e, _ | ⟨same, letters⟩, found⟩
        cases e
        exact ⟨same, _, rest, rfl, letters, found⟩

/-- **The pattern of a text matches what contains the text.** -/
theorem matchesAll_containing (text content : List Char) :
    matchesAll (containing text) content = true ↔ Occurs text content := by
  have anything : ∀ rest, matchesAll ['%'] rest = true := fun rest =>
    (anyEnd_iff _ rest).2 ⟨rest, [], (List.append_nil rest).symm, rfl⟩
  show anyEnd (matchesAll (escape text ++ ['%'])) content = true ↔ _
  rw [anyEnd_iff]
  constructor
  · rintro ⟨before, rest, rfl, found⟩
    obtain ⟨among, after, rfl, letters, -⟩ := (matchesAll_escape_append _ _ _).1 found
    exact ⟨before, among, after, rfl, letters⟩
  · rintro ⟨before, among, after, rfl, letters⟩
    exact ⟨before, among ++ after, rfl,
      (matchesAll_escape_append _ _ _).2 ⟨among, after, rfl, letters, anything after⟩⟩

/-! ## What a comparison sees -/

/-- A character as a comparison sees it. -/
def seenChar (c : Char) : Char := if c = '\ufffe' || c = '\uffff' then '\ufffd' else c

theorem isSpecial_seenChar (c : Char) : isSpecial (seenChar c) = isSpecial c := by
  unfold seenChar
  split
  · rename_i h
    rw [Bool.or_eq_true, decide_eq_true_iff, decide_eq_true_iff] at h
    rcases h with rfl | rfl <;> rfl
  · rfl

/-- A comparison sees all of a text without null characters. -/
theorem seen_eq_map (h : '\x00' ∉ text) : seen text = text.map seenChar := by
  have whole : text.takeWhile (· ≠ '\x00') = text := by
    rw [List.takeWhile_eq_self_iff]
    intro c hc
    rw [decide_eq_true_iff]
    rintro rfl
    exact h hc
  rw [seen, whole]
  rfl

theorem escape_map_seenChar (text : List Char) :
    escape (text.map seenChar) = (escape text).map seenChar := by
  induction text with
  | nil => rfl
  | cons c text ih =>
    rw [List.map_cons, escape, isSpecial_seenChar, escape, ih]
    split <;> rfl

theorem mem_escape (hc : c ∈ escape text) : c ∈ text ∨ c = '\\' := by
  induction text with
  | nil => cases hc
  | cons d text ih =>
    rw [escape] at hc
    split at hc
    all_goals grind

/-- **A comparison sees the pattern of a text as the pattern of what it sees of the text.** -/
theorem seen_containing (h : '\x00' ∉ text) : seen (containing text) = containing (seen text) := by
  have whole : '\x00' ∉ containing text := by
    intro hc
    rw [containing, List.cons_append, List.mem_cons, List.mem_append, List.mem_singleton] at hc
    rcases hc with hc | hc | hc
    · cases hc
    · rcases mem_escape hc with hc | hc
      · exact h hc
      · cases hc
    · cases hc
  rw [seen_eq_map whole, seen_eq_map h, containing, containing, escape_map_seenChar,
    List.map_append, List.map_cons]
  rfl

end MemoTransfer.Query.Like
