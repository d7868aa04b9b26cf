import MemoTransfer.Text.Visible

/-!
# Quoted text

How a text is shown inside a message: between double quotes, with a short escape for the usual
controls, the quote and the backslash, and with its code point in braces for every other character
that has no picture of its own.
-/

namespace MemoTransfer.Text

/-- One character inside a quoted text. -/
def quoteChar (c : Char) : List Char :=
  match c with
  | '\x00' => ['\\', '0']
  | '\t' => ['\\', 't']
  | '\n' => ['\\', 'n']
  | '\r' => ['\\', 'r']
  | '"' => ['\\', '"']
  | '\\' => ['\\', '\\']
  | c => if isVisible c then [c] else ['\\', 'u', '{'] ++ Nat.toDigits 16 c.toNat ++ ['}']

/-- A text between quotes. -/
def quoted (s : String) : String :=
  String.ofList ('"' :: s.toList.flatMap quoteChar ++ ['"'])

example : quoted "a\tb" = "\"a\\tb\"" := by decide +kernel

end MemoTransfer.Text
