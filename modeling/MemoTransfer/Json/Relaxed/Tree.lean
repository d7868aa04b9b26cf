import MemoTransfer.Json.Relaxed.Spelled

/-!
# Values of a relaxed text

A value of a relaxed JSON text keeps its numbers and strings as strict JSON spells them, so that the
value can be written as strict JSON without a change to what was strict before (`Relaxed.chars`).
-/

namespace MemoTransfer.Json

/-- A value of a relaxed text. -/
inductive Relaxed
  | null
  | boolean (value : Bool)
  /-- A number with its strict numeral. -/
  | number (numeral : List Char)
  /-- A hexadecimal number that 64 bits cannot hold. -/
  | outsized (negative : Bool)
  | text (value : Spelled)
  | list (items : List Relaxed)
  | object (members : List (Spelled × Relaxed))

namespace Relaxed

instance : Inhabited Relaxed := ⟨null⟩

/-- The first member of an object with the name. -/
def member? (name : String) : Relaxed → Option Relaxed
  | object members => (members.find? (·.1.names name)).map (·.2)
  | _ => none

/-- The items of a list, the values of an object, or a single value. -/
def elements : Relaxed → List Relaxed
  | list items => items
  | object members => members.map (·.2)
  | v => [v]

mutual

/-- The value as strict JSON without white space. -/
def chars : Relaxed → List Char
  | null => ['n', 'u', 'l', 'l']
  | boolean true => ['t', 'r', 'u', 'e']
  | boolean false => ['f', 'a', 'l', 's', 'e']
  | number numeral => numeral
  | outsized negative => (if negative then ['-'] else []) ++ ['9', '.', '0', 'e', '9', '9', '9']
  | text s => s.chars
  | list [] => ['[', ']']
  | list (v :: vs) => '[' :: chars v ++ itemsChars vs ++ [']']
  | object [] => ['{', '}']
  | object ((name, v) :: ms) => '{' :: name.chars ++ ':' :: chars v ++ membersChars ms ++ ['}']

/-- The further items of a list, each after a comma. -/
def itemsChars : List Relaxed → List Char
  | [] => []
  | v :: vs => ',' :: chars v ++ itemsChars vs

/-- The further members of an object, each after a comma. -/
def membersChars : List (Spelled × Relaxed) → List Char
  | [] => []
  | (name, v) :: ms => ',' :: name.chars ++ ':' :: chars v ++ membersChars ms

end

end Relaxed

end MemoTransfer.Json
