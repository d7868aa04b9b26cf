import MemoTransfer.Text.Range

/-!
# White space

The characters with the Unicode property `White_Space`. They separate the terms of a filter, stand
before a tag and a task mark, and may surround the numbers of a written time. Every character that
core calls white space is one of them (`isBlank_of_isWhitespace`), and no digit is
(`isBlank_of_isDigit`).
-/

namespace MemoTransfer.Text

/-- The code points with the property `White_Space`. -/
def blanks : Ranges :=
  [(0x9, 0xD), (0x20, 0x20), (0x85, 0x85), (0xA0, 0xA0), (0x1680, 0x1680), (0x2000, 0x200A),
   (0x2028, 0x2029), (0x202F, 0x202F), (0x205F, 0x205F), (0x3000, 0x3000)]

/-- The character is white space. -/
def isBlank (c : Char) : Bool := blanks.has c

theorem isBlank_of_isWhitespace {c : Char} (h : c.isWhitespace = true) : isBlank c = true := by
  simp only [Char.isWhitespace, Bool.or_eq_true, decide_eq_true_eq] at h
  rcases h with ((rfl | rfl) | rfl) | rfl <;> decide

theorem isBlank_of_isDigit {c : Char} (h : c.isDigit = true) : isBlank c = false := by
  have hc : 48 ≤ c.toNat ∧ c.toNat ≤ 57 := by
    simp only [Char.isDigit, Bool.and_eq_true, decide_eq_true_eq] at h
    exact h
  rw [← Bool.not_eq_true, isBlank, Ranges.has_iff]
  rintro ⟨r, hr, h0, h1⟩
  simp only [blanks, List.mem_cons, List.not_mem_nil, or_false] at hr
  rcases hr with rfl | rfl | rfl | rfl | rfl | rfl | rfl | rfl | rfl | rfl <;>
    dsimp only at h0 h1 <;> omega

/-- The text without the white space it begins with. -/
def trimStart (cs : List Char) : List Char := cs.dropWhile isBlank

end MemoTransfer.Text
