import MemoTransfer.Calendar.Instant
import MemoTransfer.Error
import MemoTransfer.Text.Utf8

/-!
# The world of a command

`Host m` is what a command needs of the world: files, a clock, fresh text keys and a place to print
to, with the effects of `m`. A file operation that does not succeed says why.
-/

namespace MemoTransfer.Cli

open MemoTransfer.Calendar

/-- Why a file cannot be read or written. -/
inductive FileFault
  | notFound
  | alreadyExists
  | notDirectory
  | isDirectory
  | nameTooLong
  /-- A path holds a null character. -/
  | nullInName
  | other (reason : String)
  deriving DecidableEq, Repr

/-- The wording of a fault. -/
def FileFault.message : FileFault → String
  | notFound => "No such file or directory (os error 2)"
  | alreadyExists => "File exists (os error 17)"
  | notDirectory => "Not a directory (os error 20)"
  | isDirectory => "Is a directory (os error 21)"
  | nameTooLong => "File name too long (os error 36)"
  | nullInName => "file name contained an unexpected NUL byte"
  | other reason => reason

/-- The world of a command, with the effects of `m`. -/
structure Host (m : Type → Type) where
  /-- Makes a directory and those above it, unless they are there. -/
  makeDirectories : String → m (Except FileFault Unit)
  /-- The bytes of a file. -/
  load : String → m (Except FileFault Bytes)
  /-- Writes a file, in the place of one that is there. -/
  save : String → Bytes → m (Except FileFault Unit)
  /-- Removes a file, if it is there. -/
  remove : String → m Unit
  /-- Prints a line. -/
  printLine : String → m Unit
  now : m Instant
  /-- Nanoseconds from some moment on. -/
  ticks : m Nat
  /-- A text key that no memo has. -/
  freshUid : m String

variable {m : Type → Type} [Monad m]

/-- A file operation, whose fault becomes an error. -/
def fileStep {α : Type} (toError : FileFault → Error) (act : m (Except FileFault α)) :
    ExceptT Error m α := do
  match ← (act : m _) with
  | .ok a => return a
  | .error fault => throw (toError fault)

/-- The error of a file operation. -/
def FileFault.error (fault : FileFault) : Error := .io fault.message

/-- Prints lines. -/
def printLines (host : Host m) (lines : List String) : ExceptT Error m Unit :=
  lines.forM fun line => ExceptT.lift (host.printLine line)

end MemoTransfer.Cli
