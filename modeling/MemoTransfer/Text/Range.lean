/-!
# Ranges of code points

A class of characters that a standard lists is kept as the list of its ranges of code points.
-/

namespace MemoTransfer.Text

/-- A class of characters: the first and the last code point of each of its ranges. -/
abbrev Ranges := List (Nat × Nat)

/-- The character lies in one of the ranges. -/
def Ranges.has (ranges : Ranges) (c : Char) : Bool :=
  ranges.any fun r => r.1 ≤ c.toNat && c.toNat ≤ r.2

theorem Ranges.has_iff {ranges : Ranges} {c : Char} :
    ranges.has c = true ↔ ∃ r ∈ ranges, r.1 ≤ c.toNat ∧ c.toNat ≤ r.2 := by
  simp [Ranges.has]

end MemoTransfer.Text
