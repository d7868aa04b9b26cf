import MemoTransfer.Cli.Run
import Std.Time

/-!
# The program

Runs a command line in the real world: files, the clock of the system and the standard output.
-/

namespace MemoTransfer.Main

open MemoTransfer.Calendar MemoTransfer.Cli

/-- What an error of the system says of a file. -/
def fileFault (e : IO.Error) : FileFault :=
  match e with
  | .noFileOrDirectory .. => .notFound
  | .alreadyExists .. => .alreadyExists
  | .inappropriateType _ code _ => if code = 21 then .isDirectory else .notDirectory
  | .invalidArgument _ code details => if code = 36 then .nameTooLong else .other details
  | e => .other e.toString

/-- Runs a file operation. -/
def attempt {α : Type} (act : IO α) : IO (Except FileFault α) := do
  match ← act.toBaseIO with
  | .ok a => return .ok a
  | .error e => return .error (fileFault e)

/-- A byte as two hexadecimal digits. -/
def hexDigits (b : UInt8) : List Char :=
  [Nat.digitChar (b.toNat / 16), Nat.digitChar (b.toNat % 16)]

/-- A random text key. -/
def randomUid : IO String := do
  let bytes ← IO.getRandomBytes 16
  return String.ofList (bytes.toList.flatMap hexDigits)

/-- The time of the system. -/
def systemTime : IO Instant := do
  let now ← Std.Time.Timestamp.now
  let time := now.toDurationSinceUnixEpoch
  return (Instant.ofParts? time.second.val time.nano.val.toNat).getD .epoch

/-- The real world. -/
def host : Host IO where
  makeDirectories path := attempt (IO.FS.createDirAll path)
  load path := attempt do return (← IO.FS.readBinFile path).toList
  save path bytes := attempt (IO.FS.writeBinFile path ⟨bytes.toArray⟩)
  remove path := do
    let _ ← attempt (IO.FS.removeFile path)
  printLine := IO.println
  now := systemTime
  ticks := IO.monoNanosNow
  freshUid := randomUid

/-- The variables of the environment. -/
def environment : IO Environment := do
  return {
    db := ← IO.getEnv "MEMOPORT_DB"
    user := ← IO.getEnv "MEMOPORT_USER"
    home := ← IO.getEnv "HOME"
    dataHome := ← IO.getEnv "XDG_DATA_HOME" }

/-- Reports why a command line is not carried out, and the exit code for it. -/
def reportUsage (fault : UsageFault) : IO UInt32 := do
  if fault = .helpRequested then
    IO.println fault.message
    return 0
  else
    IO.eprintln fault.message
    return 2

end MemoTransfer.Main

open MemoTransfer MemoTransfer.Cli MemoTransfer.Main in
/-- Runs a command line. -/
def main (args : List String) : IO UInt32 := do
  let env ← environment
  match Invocation.read args env.user with
  | .error fault => reportUsage fault
  | .ok invocation =>
    let style := Style.ofTerminal (← (← IO.getStdout).isTty) (← IO.getEnv "NO_COLOR").isSome
    match ← (run host style env invocation).run with
    | .ok () => return 0
    | .error e =>
      IO.eprintln (style.error "Error:" ++ " " ++ e.message)
      return 1
