import MemoTransfer.Text.Blank

/-!
# Gaps in a relaxed text

Between the parts of a relaxed JSON text may stand white space of any script, and comments. A
comment goes from a slash and an asterisk to the next asterisk and slash, or from two slashes to the
end of the line. A comment of the first kind that is never closed is no gap.
-/

namespace MemoTransfer.Json.Relaxed

open MemoTransfer.Text

/-- The character may stand between two parts: white space other than the next-line control, or a
byte order mark. -/
def isGap (c : Char) : Bool := isBlank c && c ≠ '\u0085' || c = '\ufeff'

/-- The character ends a line. -/
def endsLine (c : Char) : Bool := c = '\n' || c = '\r' || c = '\u2028' || c = '\u2029'

/-- What follows the line. -/
def afterLine : List Char → List Char
  | [] => []
  | c :: cs => if endsLine c then cs else afterLine cs

/-- What follows the next asterisk and slash. -/
def afterComment? : List Char → Option (List Char)
  | '*' :: '/' :: cs => some cs
  | _ :: cs => afterComment? cs
  | [] => none

theorem length_afterLine_le (cs : List Char) : (afterLine cs).length ≤ cs.length := by
  induction cs with
  | nil => simp [afterLine]
  | cons c cs ih => by_cases h : endsLine c <;> simp [afterLine, h]; omega

theorem length_lt_of_afterComment? {cs rest : List Char} (h : afterComment? cs = some rest) :
    rest.length < cs.length := by
  fun_induction afterComment? cs with
  | case1 cs => cases h; simp only [List.length_cons]; omega
  | case2 c cs _ ih => have := ih h; simp only [List.length_cons]; omega
  | case3 => simp at h

/-- The text without the gap at its front. -/
def skipGaps : List Char → List Char
  | [] => []
  | '/' :: '/' :: cs => skipGaps (afterLine cs)
  | '/' :: '*' :: cs =>
    match _h : afterComment? cs with
    | some rest => skipGaps rest
    | none => '/' :: '*' :: cs
  | c :: cs => if isGap c then skipGaps cs else c :: cs
termination_by cs => cs.length
decreasing_by
  · have := length_afterLine_le cs; simp; omega
  · have := length_lt_of_afterComment? _h; simp; omega
  · simp

example : skipGaps " /* a */\u00a0// b\n\ufeffc".toList = ['c'] := by decide +kernel
example : skipGaps "/* a ".toList = "/* a ".toList := by decide +kernel

end MemoTransfer.Json.Relaxed
