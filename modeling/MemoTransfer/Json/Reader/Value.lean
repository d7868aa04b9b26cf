import MemoTransfer.Json.Reader.Kinds

/-!
# Reading a value of any kind

Keeps a whole value. Unlike a skipped value, one that is kept may nest only so deep.
-/

namespace MemoTransfer.Json.Reader

/-- A value of any kind with fewer than `depth` enclosing lists and objects within it. -/
def value (depth : Nat) : Reader Value := do
  let c ← start
  if c = 'n' then
    null
    return .null
  else if c = 't' then
    yes
    return .boolean true
  else if c = 'f' then
    no
    return .boolean false
  else if c = '-' ∨ c.isDigit then
    match ← number with
    | .integer n => return .integer n
    | .floating x => return .floating x
  else if c = '"' then
    advance
    return .text (← stringBody)
  else if c = '[' then
    match depth with
    | 0 | 1 => throw .tooDeep
    | depth + 2 =>
      advance
      return .list (← items (value (depth + 1)))
  else if c = '{' then
    match depth with
    | 0 | 1 => throw .tooDeep
    | depth + 2 =>
      advance
      let taken ← members (fun taken name => do
        colon
        return (name, ← value (depth + 1)) :: taken) []
      advance
      return .object taken.reverse
  else throw .expectedValue

end MemoTransfer.Json.Reader
