import MemoTransfer.Error
import MemoTransfer.Memo.Basic
import MemoTransfer.Query.Like
import MemoTransfer.Query.Token
import MemoTransfer.Text.Uppercase

/-!
# Terms of a filter

Each token of a filter is a term that a memo must satisfy. A token with a colon may name a property
of the memo; a quoted token, and one without a known form, is a text to look for in the content. A
word before a colon that is no known key is refused, unless two slashes follow the colon, as in an
address.
-/

namespace MemoTransfer.Query

open MemoTransfer.Number MemoTransfer.Text

/-- A condition on a memo. -/
inductive Term
  /-- The payload has the tag. -/
  | tag (name : String)
  | visibility (value : Visibility)
  | pinned (value : Bool)
  /-- It was created later than this. -/
  | createdAfter (seconds : Int)
  /-- It was created earlier than this. -/
  | createdBefore (seconds : Int)
  /-- The content contains the text. -/
  | content (text : String)
  deriving DecidableEq, Repr

/-- Why a text is no filter. -/
inductive Fault
  | openQuote
  | emptyTag
  | unknownVisibility (name : String)
  | badPinned (value : String)
  | badSeconds (value : String)
  | unknownKey (key : String)
  deriving DecidableEq, Repr

/-- The wording of a fault. -/
def Fault.message : Fault → String
  | .openQuote => "unterminated quote"
  | .emptyTag => "tag requires a value"
  | .unknownVisibility name => "unknown visibility " ++ name
  | .badPinned value => "pinned expects true|false, got " ++ value
  | .badSeconds value => "expected unix seconds, got " ++ value
  | .unknownKey key => "unknown filter key " ++ key

/-- The parts of a text before and after its first colon. -/
def splitColon : List Char → Option (List Char × List Char)
  | [] => none
  | c :: cs =>
    if c = ':' then some ([], cs)
    else (splitColon cs).map fun (key, value) => (c :: key, value)

/-- The text is an ASCII word. -/
def isWord (cs : List Char) : Bool :=
  !cs.isEmpty && cs.all fun c => c.isAlphanum || c = '_'

/-- Seconds from 1970. -/
def readSeconds (value : List Char) : Except Fault Int :=
  match readInt64? value with
  | some n => .ok n
  | none => .error (.badSeconds (String.ofList value))

/-- The term with a known key. -/
def Term.ofKey? (key : String) (value : List Char) : Option (Except Fault Term) :=
  match key with
  | "tag" =>
    let name := value.dropWhile (· = '#')
    some (if name.isEmpty then .error .emptyTag else .ok (.tag (String.ofList name)))
  | "visibility" =>
    let name := String.ofList (upper value)
    some (match Visibility.ofName? name with
      | some v => .ok (.visibility v)
      | none => .error (.unknownVisibility name))
  | "pinned" =>
    some (match String.ofList value with
      | "true" => .ok (.pinned true)
      | "false" => .ok (.pinned false)
      | other => .error (.badPinned other))
  | "created_after" => some ((readSeconds value).map .createdAfter)
  | "created_before" => some ((readSeconds value).map .createdBefore)
  | _ => none

/-- The term of a token. -/
def Term.ofToken (t : Token) : Except Fault Term :=
  let phrase := Term.content (String.ofList t.text)
  if t.quoted then .ok phrase
  else
    match splitColon t.text with
    | none => .ok phrase
    | some (key, value) =>
      match Term.ofKey? (String.ofList key) value with
      | some term => term
      | none =>
        if isWord key && value.take 2 ≠ ['/', '/'] then .error (.unknownKey (String.ofList key))
        else .ok phrase

/-- The terms of a filter. -/
def parse (filter : String) : Except Fault (List Term) :=
  match tokens? filter.toList with
  | some ts => ts.mapM Term.ofToken
  | none => .error .openQuote

/-- The terms of a filter, or the error that reports why it is none. -/
def parseFilter (filter : String) : Except Error (List Term) :=
  (parse filter).mapError fun fault => .invalidFilter fault.message

end MemoTransfer.Query
