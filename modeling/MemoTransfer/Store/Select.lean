import MemoTransfer.Json.Relaxed.Reader
import MemoTransfer.Query.Depth
import MemoTransfer.Store.Basic

/-!
# Selecting memos

The memos that match every part of a query, ordered by their creation and then by their number. Tags
are looked up in the stored payload itself, which is relaxed JSON; a payload that is no JSON makes a
query for a tag fail, if all other conditions hold of its memo. A query with too many conditions, or
with too long a text to look for, fails as well.
-/

namespace MemoTransfer

open MemoTransfer.Json MemoTransfer.Number MemoTransfer.Query

/-! ## Tags of a stored payload -/

/-- How deep a stored payload may nest. -/
def payloadDepth : Nat := 1000

/-- The value compares equal to a text: a string as itself, a list or an object as its written
form. A number that cannot be compared gives no answer. -/
def Json.Relaxed.isTextual? (s : String) : Relaxed → Option Bool
  | .text t => some (t.isText s)
  | .list items => some ((Relaxed.list items).chars = s.toList)
  | .object members => some ((Relaxed.object members).chars = s.toList)
  | .outsized _ => none
  | _ => some false

/-- Whether a stored payload has a tag, unless it is no JSON. Nothing counts after a null character.
-/
def payloadHasTag? (payload tag : String) : Option Bool := do
  let v ← Relaxed.read? payloadDepth (payload.toList.takeWhile (· ≠ '\x00'))
  match v.member? "tags" with
  | some tags => tags.elements.anyM (·.isTextual? tag)
  | none => return false

/-! ## Conditions -/

/-- The row satisfies a term other than a tag. -/
def MemoRow.satisfies (r : MemoRow) : Term → Bool
  | .tag _ => true
  | .visibility v => r.visibility = v.name
  | .pinned p => r.pinned = p
  | .createdAfter t => t < r.createdTs
  | .createdBefore t => r.createdTs < t
  | .content text =>
    Like.matchesAll (Like.seen (Like.containing text.toList)) (Like.seen r.content.toList)

/-- The row satisfies a term that is a tag, unless its payload is no JSON. -/
def MemoRow.hasTag? (r : MemoRow) : Term → Option Bool
  | .tag name => payloadHasTag? r.payload name
  | _ => some true

/-- The row matches the keys, the user and the status of a query. -/
def MemoRow.matches (r : MemoRow) (q : MemoQuery) : Bool :=
  q.id.all (· = r.id) && q.uid.all (· = r.uid) && q.creatorId.all (· = r.creatorId) &&
    q.rowStatus.all (·.name = r.rowStatus)

/-- The row comes before another one. -/
def MemoRow.isBefore (r t : MemoRow) : Bool :=
  r.createdTs < t.createdTs || (r.createdTs = t.createdTs && r.id ≤ t.id)

/-- The rows that satisfy all tags among the terms, unless one of the payloads is no JSON. -/
def rowsWithTags? (terms : List Term) : List MemoRow → Option (List MemoRow)
  | [] => some []
  | r :: rows => do
    let tags ← terms.mapM r.hasTag?
    let rest ← rowsWithTags? terms rows
    return if tags.all id then r :: rest else rest

namespace Store

/-- The rows that match the query and its terms, in order. The terms are tried one after another, so
that a text too long to look for matters only if some row satisfies all terms before it. -/
def select (s : Store) (q : MemoQuery) (terms : List Term) : Except Error (List MemoRow) := do
  if q.isTooDeep terms then
    throw (.database ("Expression tree is too large (maximum depth " ++ natText depthLimit ++ ")"))
  let tried := terms.takeWhile (!·.isTooLong)
  let rows := s.memos.filter fun r => r.matches q && tried.all r.satisfies
  if tried.length < terms.length && !rows.isEmpty then
    throw (.database "LIKE or GLOB pattern too complex")
  match rowsWithTags? terms (rows.filter fun r => !(q.excludeComments && s.isComment r.id)) with
  | some rows => return rows.mergeSort MemoRow.isBefore
  | none => throw (.database "malformed JSON")

/-- The memos that match the query, in order. -/
def listMemos (s : Store) (q : MemoQuery) : Except Error (List Memo) := do
  let terms ← (q.filter.map parseFilter).getD (.ok [])
  return (← s.select q terms).map MemoRow.memo

/-- The first memo that matches the query. -/
def getMemo (s : Store) (q : MemoQuery) : Except Error (Option Memo) :=
  (s.listMemos q).map List.head?

end Store

end MemoTransfer
