/-!
# Where the store is

The path of the store: the one that is named, else the one in the environment, else a file in the
user's data directory.
-/

namespace MemoTransfer.Cli

/-- The variables of the environment that matter. -/
structure Environment where
  /-- The path of the store. -/
  db : Option String := none
  /-- The acting user. -/
  user : Option String := none
  home : Option String := none
  dataHome : Option String := none
  deriving DecidableEq, Repr

/-- A path below a directory. -/
def joinPath (dir path : String) : String :=
  if dir.isEmpty || dir.endsWith "/" then dir ++ path else dir ++ "/" ++ path

/-- The user's data directory: the one that the environment names with a path from the root, else
one below the home directory. -/
def Environment.dataDirectory (env : Environment) : Option String :=
  match env.dataHome with
  | some dir => if dir.startsWith "/" then some dir else below
  | none => below
where
  /-- The data directory below the home directory. -/
  below := env.home.map fun home => joinPath home ".local/share"

/-- The path of the store, if there is a place for it. -/
def storePath (named : Option String) (env : Environment) : Option String :=
  match named, env.db.filter (!·.isEmpty) with
  | some path, _ => some path
  | none, some path => some path
  | none, none => env.dataDirectory.map fun dir => joinPath dir "memoport/memoport.db"

/-- The names on a path. -/
def pathNames (path : String) : List String :=
  (path.splitOn "/").filter fun name => name ≠ "" && name ≠ "."

/-- The path made of the names, from the root or from the current directory. -/
def pathOfNames (rooted : Bool) (names : List String) : String :=
  (if rooted then "/" else "") ++ "/".intercalate names

/-- The directory that holds a path, empty for one in the current directory. -/
def parentDirectory (path : String) : String :=
  pathOfNames (path.startsWith "/") (pathNames path).dropLast

/-- The names without each that two dots follow, so that they lead to the same place without a way
back; two dots stay at the front of a path that does not begin at the root. -/
def straighten (rooted : Bool) (names : List String) : List String :=
  (names.foldl back []).reverse
where
  /-- One name more, in front of the earlier ones in reverse. -/
  back (taken : List String) (name : String) : List String :=
    if name ≠ ".." then name :: taken
    else
      match taken with
      | [] => if rooted then [] else [name]
      | last :: before => if last = ".." then name :: taken else before

/-- The path without needless names. -/
def straightPath (path : String) : String :=
  let rooted := path.startsWith "/"
  let straight := pathOfNames rooted (straighten rooted (pathNames path))
  if straight.isEmpty then "." else straight

end MemoTransfer.Cli
