import MemoTransfer.Cli.Host
import MemoTransfer.Cli.StoreAddress
import MemoTransfer.Store.MemoStore
import MemoTransfer.Store.Written

/-!
# The file of a store

A store is opened at its address and saved after every change. Beside its file a store may have a
journal and a log of changes, which a run that broke off leaves behind; they hold nothing that is
needed, and are removed when the store is opened. A store that is only read is not changed: it keeps
its log, to which an index is made, and cannot be opened with a journal that has begun. A log is for
a store with locks on parts of its file.
-/

namespace MemoTransfer.Cli

variable {m : Type → Type} [Monad m]

/-- An open store. -/
structure StoreFile where
  /-- The name by which it was opened. -/
  address : String
  /-- The path of its file, if it is kept. -/
  path : Option String
  isWritable : Bool
  /-- Its changes go through its log, and not through its journal. -/
  isLogged : Bool := false
  deriving DecidableEq, Repr

/-- The error of a store that cannot be opened. -/
def unopened (address : String) : Error :=
  .database ("unable to open database file: " ++ address)

/-- The error of a store whose file is there and cannot be read. -/
def unreadable : Error := .database "disk I/O error"

/-- The greatest length of the path of a store in bytes. -/
def longestPath : Nat := 504

/-- A file or directory has the path. -/
def isThere (host : Host m) (path : String) : ExceptT Error m Bool := do
  match ← ExceptT.lift (host.load path) with
  | .ok _ | .error .isDirectory => return true
  | .error _ => return false

/-! ## Files beside the store -/

/-- The file that keeps other programs from a store, where its own file cannot. -/
def lockPath (path : String) : String := path ++ ".lock"

/-- The file with the journal of a store. -/
def journalPath (path : String) : String := path ++ "-journal"

/-- The file with the log of a store. -/
def logPath (path : String) : String := path ++ "-wal"

/-- The file with the index of the log. -/
def logIndexPath (path : String) : String := path ++ "-shm"

/-- Looks after the journal of a store with the given bytes. The journal of an empty store, and one
that has begun, is removed if the store can be written; a lock beside the store keeps it. The result
says whether the store can have a journal. -/
def settleJournal (host : Host m) (path : String) (a : StoreAddress) (stored : Bytes) :
    ExceptT Error m Bool := do
  match ← ExceptT.lift (host.load (journalPath path)) with
  | .ok [] => return true
  | .ok (b :: _) =>
    if a.locking = .besideFile then return true
    if stored.isEmpty then
      if a.mode ≠ .read || a.locking = .none then ExceptT.lift (host.remove (journalPath path))
    else if b ≠ 0 then
      if a.mode = .read then throw .migration
      ExceptT.lift (host.remove (journalPath path))
    return true
  | .error .notFound => return true
  | .error .isDirectory => throw .migration
  | .error _ => return false

/-- Makes the index of the log of a store, if there is none. -/
def indexLog (host : Host m) (path : String) : ExceptT Error m Unit := do
  if !(← isThere host (logIndexPath path)) then
    fileStep (fun _ => .migration) (host.save (logIndexPath path) [])

/-- Looks after the log of a store with the given bytes. An empty store needs no log, and one that
can be written puts it away, together with its index, unless the locks are held to the end and the
index is no file. The result says whether the store has a log in use. -/
def settleLog (host : Host m) (path : String) (a : StoreAddress) (stored : Bytes) :
    ExceptT Error m Bool := do
  match ← ExceptT.lift (host.load (logPath path)) with
  | .ok [] => return false
  | .ok _ =>
    if stored.isEmpty then ExceptT.lift (host.remove (logPath path))
    else if a.locking = .besideFile || a.locking = .none then throw .migration
    else
      if a.mode = .read then indexLog host path
      else
        ExceptT.lift (host.remove (logPath path))
        if a.locking = .onFile then ExceptT.lift (host.remove (logIndexPath path))
    return !stored.isEmpty
  | .error .isDirectory => throw .migration
  | .error _ => return false

/-! ## Opening and saving -/

/-- Writes a store to its file. -/
def StoreFile.save (host : Host m) (file : StoreFile) (s : Store) : ExceptT Error m Unit := do
  if !file.isWritable then throw .notWritable
  match file.path with
  | none => return
  | some path =>
    fileStep (fun _ => unopened file.address) (host.save path s.toBytes)
    if !file.isLogged then ExceptT.lift (host.remove (journalPath path))

/-- The bytes of the file of a store, which is made if need be. A single byte counts as none. -/
def loadStored (host : Host m) (address path : String) (a : StoreAddress) :
    ExceptT Error m Bytes := do
  if longestPath < byteLength path then throw (unopened address)
  if let some other := a.modeOf then
    if !(← isThere host other) then throw unreadable
  match ← ExceptT.lift (host.load path) with
  | .ok [_] => return []
  | .ok bs => return bs
  | .error .notFound =>
    if a.mode = .create then
      fileStep (fun _ => unopened address) (host.save path [])
      return []
    else throw (unopened address)
  | .error .isDirectory =>
    throw (if a.mode = .read then unreadable else unopened address)
  | .error _ => throw (unopened address)

/-- Opens the store in a file. An empty file is an empty store, to which the tables have to be
written first. -/
def openFile (host : Host m) (file : StoreFile) (path : String) (a : StoreAddress) :
    ExceptT Error m (StoreFile × Store) := do
  let stored ← loadStored host file.address path a
  let (canChange, isLogged) ←
    if a.isFrozen then pure (true, false)
    else do
      if a.locking = .besideFile then
        if ← isThere host (lockPath path) then throw .migration
      let canChange ← settleJournal host path a stored
      pure (canChange, ← settleLog host path a stored)
  let file := { file with isLogged := isLogged }
  if stored.isEmpty then
    if !file.isWritable || !canChange then throw .migration
    file.save host .empty
    return (file, .empty)
  else
    match Store.ofBytes? stored with
    | some s => return (file, s)
    | none => throw .migration

/-- The place of the first null character in a text, in bytes. -/
def nullPosition? (s : String) : Option Nat :=
  let before := s.toList.takeWhile (· ≠ '\x00')
  if before.length < s.length then some (byteLength (String.ofList before)) else none

/-- Opens the store with the given name, after the directory that would hold it has been made. -/
def openStore (host : Host m) (address : String) : ExceptT Error m (StoreFile × Store) := do
  let parent := parentDirectory address
  if !parent.isEmpty then fileStep FileFault.error (host.makeDirectories parent)
  if let some n := nullPosition? address then
    throw (.database ("nul byte found in provided data at position: " ++ Number.natText n))
  match StoreAddress.read address with
  | .error fault => throw (.database fault.message)
  | .ok a =>
    if a.isTransient then
      if a.mode = .read then throw .migration
      return ({ address := address, path := none, isWritable := true }, .empty)
    else
      let path := straightPath a.path
      let isWritable := a.mode ≠ .read && !a.isFrozen
      openFile host { address := address, path := some path, isWritable := isWritable } path a

end MemoTransfer.Cli
