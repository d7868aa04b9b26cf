/-!
# Wildcard patterns

A pattern in which a percent sign stands for any text and an underscore for any character; a
backslash takes the meaning from the character after it. Letters match without regard to case if
they are ASCII letters. `escape` writes a text as the pattern for this text alone.
-/

namespace MemoTransfer.Query.Like

/-- The two characters are the same but for the case of an ASCII letter. -/
def sameLetter (c d : Char) : Bool := c.toLower = d.toLower

/-- The character has a meaning of its own in a pattern. -/
def isSpecial (c : Char) : Bool := c = '%' || c = '_' || c = '\\'

/-- The pattern of a text. -/
def escape : List Char → List Char
  | [] => []
  | c :: cs => if isSpecial c then '\\' :: c :: escape cs else c :: escape cs

/-- The pattern of all texts that contain the text. -/
def containing (text : List Char) : List Char := '%' :: escape text ++ ['%']

/-- The greatest length of a pattern in bytes. -/
def patternLimit : Nat := 50000

/-- A text or a pattern as far as a comparison sees it: up to its first null character, and with the
replacement character in the place of the two last code points of the first plane, which are no
characters. -/
def seen (text : List Char) : List Char :=
  (text.takeWhile (· ≠ '\x00')).map fun c =>
    if c = '\ufffe' || c = '\uffff' then '\ufffd' else c

/-- The predicate holds of the text or of some end of it. -/
def anyEnd (p : List Char → Bool) : List Char → Bool
  | [] => p []
  | c :: cs => p (c :: cs) || anyEnd p cs

/-- The whole text matches the pattern. A backslash at the end of a pattern matches nothing. -/
def matchesAll : List Char → List Char → Bool
  | [], text => text.isEmpty
  | '%' :: pattern, text => anyEnd (matchesAll pattern) text
  | '\\' :: [], _ => false
  | '\\' :: p :: pattern, text =>
    match text with
    | [] => false
    | c :: text => sameLetter p c && matchesAll pattern text
  | p :: pattern, text =>
    match text with
    | [] => false
    | c :: text => (p = '_' || sameLetter p c) && matchesAll pattern text

example : matchesAll (containing ['a', '_']) ['x', 'A', '_'] = true := by decide
example : matchesAll (containing ['a', '_']) ['x', 'A', 'b'] = false := by decide

end MemoTransfer.Query.Like
