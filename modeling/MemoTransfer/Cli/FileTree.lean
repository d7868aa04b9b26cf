import MemoTransfer.Cli.Host

/-!
# A tree of files

Directories and files by the names on the way to them from the root, with a current directory. A
path is followed name by name: each name but the last must lead to a directory, and two dots lead
back to the directory above. `FileTree` serves as the files of a command that runs without effects
on the world.
-/

namespace MemoTransfer.Cli

/-- The names on the way from the root to a directory or a file. -/
abbrev Way := List String

/-- Directories and files. -/
structure FileTree where
  /-- The current directory. -/
  here : Way := ["home"]
  directories : List Way := [["home"]]
  files : List (Way × Bytes) := []

namespace FileTree

/-- The way leads to a directory. -/
def isDirectory (t : FileTree) (way : Way) : Bool := way.isEmpty || t.directories.contains way

/-- The bytes of the file to which the way leads. -/
def file? (t : FileTree) (way : Way) : Option Bytes := t.files.lookup way

/-! ## Following a path -/

/-- The greatest length of a name in bytes. -/
def longestName : Nat := 255

/-- The greatest length of a path in bytes. -/
def longestPath : Nat := 4095

/-- One step from a directory. -/
def step (way : Way) (name : String) : Except FileFault Way :=
  if name = "" || name = "." then .ok way
  else if name = ".." then .ok way.dropLast
  else if longestName < byteLength name then .error .nameTooLong
  else .ok (way ++ [name])

/-- One step from a directory to a directory. -/
def enter (t : FileTree) (way : Way) (name : String) : Except FileFault Way := do
  let way ← step way name
  if t.isDirectory way then return way
  else if (t.file? way).isSome then throw .notDirectory
  else throw .notFound

/-- The names on a path, unless it is no path. A path that ends in a slash has an empty last name.
-/
def names (path : String) : Except FileFault (List String) :=
  if path.contains '\x00' then .error .nullInName
  else if path.isEmpty then .error .notFound
  else if longestPath < byteLength path then .error .nameTooLong
  else .ok (path.splitOn "/")

/-- Where a path begins. -/
def origin (t : FileTree) (path : String) : Way := if path.startsWith "/" then [] else t.here

/-- The way to which a path leads, through directories that are there. -/
def follow (t : FileTree) (path : String) : Except FileFault Way := do
  let names ← names path
  step (← names.dropLast.foldlM t.enter (t.origin path)) (names.getLastD "")

/-! ## Operations -/

/-- The bytes of a file. -/
def load (t : FileTree) (path : String) : Except FileFault Bytes := do
  let way ← t.follow path
  if t.isDirectory way then throw .isDirectory
  match t.file? way with
  | some bs => return bs
  | none => throw .notFound

/-- Writes a file, in the place of one that is there. -/
def save (t : FileTree) (path : String) (bs : Bytes) : Except FileFault FileTree := do
  let straight := String.ofList (path.toList.reverse.dropWhile (· = '/')).reverse
  let way ← t.follow (if straight.isEmpty then path else straight)
  if t.isDirectory way || straight ≠ path then throw .isDirectory
  return { t with files := (way, bs) :: t.files.filter (·.1 ≠ way) }

/-- Removes a file, if it is there. -/
def remove (t : FileTree) (path : String) : FileTree :=
  match t.follow path with
  | .ok way => { t with files := t.files.filter (·.1 ≠ way) }
  | .error _ => t

/-- Makes the directory to which a name leads, unless it is there. -/
def makeDirectory (t : FileTree) (way : Way) (name : String) (isLast : Bool) :
    Except FileFault (FileTree × Way) := do
  let way ← step way name
  if t.isDirectory way then return (t, way)
  else if (t.file? way).isSome then throw (if isLast then .alreadyExists else .notDirectory)
  else return ({ t with directories := way :: t.directories }, way)

/-- Makes directories on a way. Those that have been made stay if a later one cannot be. -/
def makeAll (t : FileTree) (way : Way) : List String → Except FileFault Unit × FileTree
  | [] => (.ok (), t)
  | name :: rest =>
    match t.makeDirectory way name rest.isEmpty with
    | .ok (t, way) => t.makeAll way rest
    | .error fault => (.error fault, t)

/-- Makes a directory and those above it, unless they are there. -/
def makeDirectories (t : FileTree) (path : String) : Except FileFault Unit × FileTree :=
  match names path with
  | .ok names => t.makeAll (t.origin path) names
  | .error fault => (.error fault, t)

/-- The names in the current directory, in order. -/
def listing (t : FileTree) : List String :=
  let ways := (t.directories ++ t.files.map (·.1)).filter fun way =>
    way.length = t.here.length + 1 && way.dropLast = t.here
  (ways.filterMap List.getLast?).mergeSort fun a b => a ≤ b

end FileTree

end MemoTransfer.Cli
