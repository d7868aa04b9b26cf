import MemoTransfer.Json.Value
import MemoTransfer.Text.Utf8

/-!
# Writing JSON

The two written forms of a value: `compact` has no white space, and `pretty` puts every item of a
list and every member of an object on a line of its own, two spaces deeper than its enclosing
value. In both a string escapes the quote, the backslash and the controls, and nothing else.
-/

namespace MemoTransfer.Json

open MemoTransfer.Number

/-- One character inside a string. -/
def escapeChar (c : Char) : List Char :=
  match c with
  | '"' => ['\\', '"']
  | '\\' => ['\\', '\\']
  | '\x08' => ['\\', 'b']
  | '\x0c' => ['\\', 'f']
  | '\n' => ['\\', 'n']
  | '\r' => ['\\', 'r']
  | '\t' => ['\\', 't']
  | c =>
    if c.toNat < 0x20 then
      ['\\', 'u', '0', '0', Nat.digitChar (c.toNat / 16), Nat.digitChar (c.toNat % 16)]
    else [c]

/-- A string with its quotes. -/
def stringChars (s : String) : List Char := '"' :: s.toList.flatMap escapeChar ++ ['"']

/-- A floating-point number, or `null` in the place of one that is not finite. -/
def floatingChars (x : Binary64) : List Char :=
  if x.isFinite then x.digits else ['n', 'u', 'l', 'l']

/-- How the items of a list and the members of an object are set out. -/
structure Layout where
  /-- What comes after the opening mark and after each comma, at a depth. -/
  newline : Nat → List Char
  /-- What comes after the name of a member. -/
  colon : List Char

/-- No white space. -/
def Layout.compact : Layout := ⟨fun _ => [], [':']⟩

/-- A line for each item, two spaces for each depth. -/
def Layout.pretty : Layout :=
  ⟨fun depth => '\n' :: List.replicate (2 * depth) ' ', [':', ' ']⟩

namespace Value

mutual

/-- A value at a depth. -/
def chars (layout : Layout) (depth : Nat) : Value → List Char
  | null => ['n', 'u', 'l', 'l']
  | boolean true => ['t', 'r', 'u', 'e']
  | boolean false => ['f', 'a', 'l', 's', 'e']
  | integer n => intDigits n
  | floating x => floatingChars x
  | text s => stringChars s
  | list [] => ['[', ']']
  | list (v :: vs) =>
    '[' :: layout.newline (depth + 1) ++ chars layout (depth + 1) v ++
      itemsChars layout (depth + 1) vs ++ layout.newline depth ++ [']']
  | object [] => ['{', '}']
  | object ((name, v) :: ms) =>
    '{' :: layout.newline (depth + 1) ++ stringChars name ++ layout.colon ++
      chars layout (depth + 1) v ++ membersChars layout (depth + 1) ms ++
      layout.newline depth ++ ['}']

/-- The further items of a list, each after a comma. -/
def itemsChars (layout : Layout) (depth : Nat) : List Value → List Char
  | [] => []
  | v :: vs => ',' :: layout.newline depth ++ chars layout depth v ++ itemsChars layout depth vs

/-- The further members of an object, each after a comma. -/
def membersChars (layout : Layout) (depth : Nat) : List (String × Value) → List Char
  | [] => []
  | (name, v) :: ms =>
    ',' :: layout.newline depth ++ stringChars name ++ layout.colon ++ chars layout depth v ++
      membersChars layout depth ms

end

/-- The value as text without white space. -/
def compact (v : Value) : String := String.ofList (v.chars .compact 0)

/-- The value as text on several lines. -/
def pretty (v : Value) : String := String.ofList (v.chars .pretty 0)

end Value

example : (Value.object [("a", .list [.integer (-1), .null]), ("b", .text "x\"\n")]).compact =
    "\x7b\"a\":[-1,null],\"b\":\"x\\\"\\n\"\x7d" := by decide +kernel

end MemoTransfer.Json
