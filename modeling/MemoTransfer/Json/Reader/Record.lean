import MemoTransfer.Json.Reader.Kinds
import MemoTransfer.Json.Reader.Skip

/-!
# Reading records

A record is written as an object with named members in any order, or as the list of its members in
their own order. A member may go by a second name. In an object no member may come twice, and
members with other names are skipped; a member that is left out takes its default, or is missed if
it has none.

The members found so far are a draft of the record, in which each of them may be absent.
-/

namespace MemoTransfer.Json

/-- A member of a record, as it is read into a draft. -/
structure Member (σ : Type) where
  /-- Its name. -/
  name : String
  /-- Its other name. -/
  otherName : Option String
  /-- It has no default. -/
  isRequired : Bool
  /-- The draft holds it. -/
  isGiven : σ → Bool
  /-- Reads its value into a draft. -/
  read : σ → Reader σ

namespace Member

/-- A member that the reader reads and that the draft keeps as the two functions say. -/
def of {σ α : Type} (name : String) (reader : Reader α) (get : σ → Option α)
    (put : σ → α → σ) (isRequired : Bool) : Member σ where
  name
  otherName := none
  isRequired
  isGiven draft := (get draft).isSome
  read draft := do return put draft (← reader)

/-- The member with a second name. -/
def orNamed {σ : Type} (m : Member σ) (otherName : String) : Member σ :=
  { m with otherName := some otherName }

/-- The member goes by this name. -/
def answersTo {σ : Type} (m : Member σ) (name : String) : Bool :=
  m.name = name || m.otherName = some name

end Member

/-- A record: how its members are read, and how a draft becomes a value. -/
structure Record (σ α : Type) where
  /-- The name of the kind of record. -/
  title : String
  /-- Its members in order. -/
  members : List (Member σ)
  /-- The draft without any member. -/
  blank : σ
  /-- The value of a draft, or the first member that it misses. -/
  build : σ → Except Fault α

/-- The value of a member that has no default. -/
def needed {α : Type} (name : String) : Option α → Except Fault α
  | some v => .ok v
  | none => .error (.missingMember name)

namespace Record

variable {σ α : Type}

/-- Reads the member with the name into the draft. -/
def readMember (r : Record σ α) (draft : σ) (name : String) : Reader σ := do
  match r.members.find? (·.answersTo name) with
  | some m =>
    if m.isGiven draft then throw (.repeatedMember m.name)
    Reader.colon
    m.read draft
  | none =>
    Reader.colon
    Reader.skipValue
    return draft

/-- Reads members as the items of a list, from the given place on. -/
def readItems (r : Record σ α) : Nat → List (Member σ) → σ → Reader σ
  | _, [], draft => pure draft
  | place, m :: ms, draft => do
    if ← Reader.moreItems (place = 0) then
      r.readItems (place + 1) ms (← m.read draft)
    else if m.isRequired then
      throw (.shortList place
        (r.title ++ " with " ++ Number.natText r.members.length ++ " elements"))
    else r.readItems (place + 1) ms draft

/-- Reads a record. -/
def reader (r : Record σ α) : Reader α := do
  let c ← Reader.start
  if c = '[' then
    Reader.advance
    let v ← r.build (← r.readItems 0 r.members r.blank)
    Reader.closeList
    return v
  else if c = '{' then
    Reader.advance
    let v ← r.build (← Reader.members r.readMember r.blank)
    Reader.advance
    return v
  else Reader.refuse r.title c

end Record

end MemoTransfer.Json
