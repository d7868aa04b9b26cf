import MemoTransfer.Json.Fault

/-!
# Errors

What can go wrong when memos are stored, exported or imported, and the wording of each error.
-/

namespace MemoTransfer

open MemoTransfer.Number

/-- What went wrong. -/
inductive Error
  /-- Files could not be read or written. -/
  | io (reason : String)
  /-- The store refused a statement. -/
  | database (reason : String)
  /-- A file is no store. -/
  | migration
  | json (fault : Json.Fault)
  | unsupportedFormat (format : String)
  | unsupportedVersion (version : String)
  | malformedSnapshot (fault : Json.Fault)
  /-- The acting user is unknown. -/
  | identity (reason : String)
  | invalidFilter (reason : String)
  | memoAlreadyExists (uid : String)
  /-- No memo has the given name. -/
  | memoNotFound (name : String)
  /-- A text has more than `max` bytes. -/
  | contentTooLong (max : Nat)
  | invalidSetting (name value : String)
  | fileNotFound (path : String)
  /-- A step of an import failed. -/
  | importFailed (reason : String)
  deriving DecidableEq, Repr

/-- The wording of an error. -/
def Error.message : Error → String
  | .io reason => "IO error: " ++ reason
  | .database reason => "Database error: " ++ reason
  | .migration => "Migration error"
  | .json fault => "JSON error: " ++ fault.message
  | .unsupportedFormat format => "Unsupported format: " ++ format
  | .unsupportedVersion version => "Unsupported snapshot version: " ++ version
  | .malformedSnapshot fault => "Failed to parse snapshot: " ++ fault.message
  | .identity reason => "Failed to resolve current user: " ++ reason
  | .invalidFilter reason => "Invalid filter: " ++ reason
  | .memoAlreadyExists uid => "memo with UID " ++ uid ++ " already exists"
  | .memoNotFound name => "memo not found: " ++ name
  | .contentTooLong max => "content too long (max " ++ natText max ++ " bytes)"
  | .invalidSetting name value => "Invalid setting " ++ name ++ ": " ++ value
  | .fileNotFound path => "File not found: " ++ path
  | .importFailed reason => "Import error: " ++ reason

end MemoTransfer
