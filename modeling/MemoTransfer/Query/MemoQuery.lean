import MemoTransfer.Memo.Basic

/-!
# Queries

What is asked of a store: every part that is given narrows the answer.
-/

namespace MemoTransfer

/-- A query for memos. -/
structure MemoQuery where
  id : Option MemoId := none
  uid : Option String := none
  creatorId : Option UserId := none
  rowStatus : Option RowStatus := none
  /-- A filter text. -/
  filter : Option String := none
  /-- Memos that are comments on another one are left out. -/
  excludeComments : Bool := false
  deriving DecidableEq, Repr

namespace MemoQuery

/-- The memo with the number. -/
def byId (id : MemoId) : MemoQuery := { id := some id }

/-- The memo with the text key. -/
def byUid (uid : String) : MemoQuery := { uid := some uid }

/-- The memos of a user. -/
def byCreator (creatorId : UserId) : MemoQuery := { creatorId := some creatorId }

end MemoQuery

end MemoTransfer
