import MemoTransfer.Query.Like
import MemoTransfer.Query.MemoQuery
import MemoTransfer.Query.Term

/-!
# How deep a query is

The parts of a query are joined two by two into one condition, which is a tree: a comparison has
three levels, a look into the payload or into the relations has more, and every part that is joined
adds a level. A condition of more levels than `depthLimit` is refused. The look into another table
counts below the whole condition; and the first tags are joined once more, as tables of their own.
-/

namespace MemoTransfer.Query

/-- The greatest depth of a condition. -/
def depthLimit : Nat := 1000

/-- How many tags become tables of their own. -/
def tagTables : Nat := 63

/-- The term is a tag. -/
def Term.isTag : Term → Bool
  | .tag _ => true
  | _ => false

/-- The levels of the condition that a term is. -/
def Term.depth (t : Term) : Nat := if t.isTag then 4 else 3

/-- The text to look for gives too long a pattern. -/
def Term.isTooLong : Term → Bool
  | .content text => Like.patternLimit < (String.ofList (Like.containing text.toList)).utf8ByteSize
  | _ => false

end MemoTransfer.Query

namespace MemoTransfer.MemoQuery

open MemoTransfer.Query

/-- The levels of each part of a query with the terms of its filter. -/
def partDepths (q : MemoQuery) (terms : List Term) : List Nat :=
  (if q.id.isSome then [3] else []) ++ (if q.uid.isSome then [3] else []) ++
    (if q.creatorId.isSome then [3] else []) ++ (if q.rowStatus.isSome then [3] else []) ++
    (if q.excludeComments then [6] else []) ++ terms.map Term.depth

/-- The levels of a query. The parts are joined to a condition that always holds. -/
def depth (q : MemoQuery) (terms : List Term) : Nat :=
  (q.partDepths terms).foldl (fun whole part => 1 + max whole part) 2

/-- The levels that come below the whole condition or are joined to it. -/
def furtherDepth (q : MemoQuery) (terms : List Term) : Nat :=
  let tags := terms.countP Term.isTag
  max (if q.excludeComments then 4 else 0) (if tags = 0 then 0 else max 3 (min tagTables tags))

/-- The query with the terms of its filter has too many levels. -/
def isTooDeep (q : MemoQuery) (terms : List Term) : Bool :=
  depthLimit < q.depth terms + q.furtherDepth terms

end MemoTransfer.MemoQuery
