import MemoTransfer.Memo.Basic

/-!
# What belongs to memos

Users own memos, attachments describe files that go with a memo, and relations point from one memo
to another.
-/

namespace MemoTransfer

/-- A user of a store. -/
structure User where
  id : UserId
  username : String
  deriving DecidableEq, Repr

/-- The description of a file. The memo it went with may be gone. -/
structure Attachment where
  id : Int
  uid : String
  memoId : Option MemoId
  filename : String
  mimeType : String
  size : Int64
  deriving DecidableEq

/-- What a relation means. -/
inductive RelationKind
  /-- The first memo mentions the second. -/
  | reference
  /-- The first memo is a comment on the second. -/
  | comment
  /-- Something else, by its name. -/
  | other (name : String)
  deriving DecidableEq, Repr

namespace RelationKind

/-- The name under which a kind is stored and exchanged. -/
def name : RelationKind → String
  | reference => "REFERENCE"
  | comment => "COMMENT"
  | other s => s

/-- The kind with the name. -/
def ofName (s : String) : RelationKind :=
  if s = "REFERENCE" then reference else if s = "COMMENT" then comment else other s

theorem name_ofName (s : String) : (ofName s).name = s := by
  unfold ofName
  split
  · rename_i h; rw [h]; rfl
  · split
    · rename_i h; rw [h]; rfl
    · rfl

end RelationKind

/-- A relation between two memos. -/
structure Relation where
  memoId : MemoId
  relatedId : MemoId
  kind : RelationKind
  deriving DecidableEq, Repr

end MemoTransfer
