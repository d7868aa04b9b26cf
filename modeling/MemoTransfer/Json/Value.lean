import MemoTransfer.Json.Fault

/-!
# JSON values

The values that are written as JSON text, and that stand for members whose kind is decided later.
The members of an object are kept in order and may repeat a name.
-/

namespace MemoTransfer.Json

open MemoTransfer.Number

/-- A JSON value. An integer is kept apart from a floating-point number. -/
inductive Value
  | null
  | boolean (value : Bool)
  | integer (value : Int)
  | floating (value : Binary64)
  | text (value : String)
  | list (items : List Value)
  | object (members : List (String × Value))

namespace Value

instance : Inhabited Value := ⟨null⟩

/-- The value as it is named in a fault. -/
def found : Value → Found
  | null => .null
  | boolean b => .boolean b
  | integer n => .integer n
  | floating x => .floating x
  | text s => .text s
  | list _ => .list
  | object _ => .object

/-- The first member of an object with the name. -/
def member? (name : String) : Value → Option Value
  | object members => members.lookup name
  | _ => none

/-- A list of texts. -/
def texts (items : List String) : Value := list (items.map text)

end Value

end MemoTransfer.Json
