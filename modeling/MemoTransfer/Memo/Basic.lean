import MemoTransfer.Number.Binary64

/-!
# Memos

A memo is a note of one user: its text, who may see it, whether it is pinned or archived, its times,
and a payload, which is what has been found out about the text together with the place where it was
written. The number of a memo belongs to one store; its text key `uid` names it everywhere.
-/

namespace MemoTransfer

open MemoTransfer.Number

/-- The number of a memo in its store. -/
abbrev MemoId := Int

/-- The number of a user in its store. -/
abbrev UserId := Int

/-- Who may see a memo. -/
inductive Visibility
  /-- Its owner alone. -/
  | ownerOnly
  /-- Every known user. -/
  | members
  /-- Everyone. -/
  | everyone
  deriving DecidableEq, Repr

namespace Visibility

instance : Inhabited Visibility := ⟨ownerOnly⟩

/-- The name under which a visibility is stored and exchanged. -/
def name : Visibility → String
  | ownerOnly => "PRIVATE"
  | members => "PROTECTED"
  | everyone => "PUBLIC"

/-- All of them with their names. -/
def all : List (String × Visibility) := [ownerOnly, members, everyone].map fun v => (v.name, v)

/-- The visibility with the name. -/
def ofName? (s : String) : Option Visibility := all.lookup s

theorem ofName?_name (v : Visibility) : ofName? v.name = some v := by
  cases v <;> decide +kernel

theorem name_of_ofName? {s : String} {v : Visibility} (h : ofName? s = some v) : v.name = s := by
  obtain ⟨before, after, split, -⟩ := List.lookup_eq_some_iff.1 h
  have listed : (s, v) ∈ all := by simp [split]
  obtain ⟨w, -, e⟩ := List.mem_map.1 listed
  cases e
  rfl

end Visibility

/-- Whether a memo is in use. -/
inductive RowStatus
  | normal
  | archived
  deriving DecidableEq, Repr

namespace RowStatus

instance : Inhabited RowStatus := ⟨normal⟩

/-- The name under which a status is stored. -/
def name : RowStatus → String
  | normal => "NORMAL"
  | archived => "ARCHIVED"

/-- The status with the name. -/
def ofName? (s : String) : Option RowStatus :=
  ([normal, archived].map fun v => (v.name, v)).lookup s

theorem ofName?_name (v : RowStatus) : ofName? v.name = some v := by
  cases v <;> decide +kernel

end RowStatus

/-- Where a memo was written. -/
structure Location where
  placeholder : String
  latitude : Binary64
  longitude : Binary64
  deriving DecidableEq, Repr

/-- What the text of a memo contains. -/
structure Property where
  hasLink : Bool
  hasTaskList : Bool
  hasCode : Bool
  hasIncompleteTasks : Bool
  deriving DecidableEq, Repr

/-- A text without any of it. -/
def Property.plain : Property := ⟨false, false, false, false⟩

/-- What is known of a memo beside its text. -/
structure Payload where
  tags : List String
  property : Property
  location : Option Location
  deriving DecidableEq, Repr

/-- Nothing is known. -/
def Payload.empty : Payload := ⟨[], .plain, none⟩

/-- A memo. Its times are seconds from 1970. -/
structure Memo where
  id : MemoId
  uid : String
  creatorId : UserId
  rowStatus : RowStatus
  content : String
  visibility : Visibility
  pinned : Bool
  payload : Payload
  createdTs : Int
  updatedTs : Int
  displayTs : Option Int
  deriving DecidableEq, Repr

/-- A change of some parts of a memo; the absent ones stay. -/
structure MemoPatch where
  id : MemoId
  content : Option String := none
  visibility : Option Visibility := none
  pinned : Option Bool := none
  rowStatus : Option RowStatus := none
  payload : Option Payload := none
  createdTs : Option Int := none
  updatedTs : Option Int := none
  displayTs : Option Int := none
  deriving DecidableEq, Repr

/-- The patch changes nothing. -/
def MemoPatch.isEmpty (p : MemoPatch) : Bool :=
  p.content.isNone && p.visibility.isNone && p.pinned.isNone && p.rowStatus.isNone &&
    p.payload.isNone && p.createdTs.isNone && p.updatedTs.isNone && p.displayTs.isNone

end MemoTransfer
