import MemoTransfer.Cli.Command
import MemoTransfer.Cli.Report
import MemoTransfer.Cli.StoreFile
import MemoTransfer.Transfer.Account

/-!
# Carrying out a command

`run` opens the store, makes sure of the acting user, and carries the command out. The store is
written back after every change, so that a later failure does not lose it.
-/

namespace MemoTransfer.Cli

open MemoTransfer.Number

variable {m : Type → Type} [Monad m]

/-! ## Commands -/

/-- Prints a new memo. -/
def addedLines (style : Style) (memo : Memo) : List String :=
  (style.success "Added memo" ++ " " ++ memo.uid) ::
    if memo.payload.tags.isEmpty then []
    else ["  tags: " ++ style.label (", ".intercalate memo.payload.tags)]

/-- Exports to a file, or prints the response. -/
def runExport (host : Host m) (style : Style) (s : Store) (user : User) (out : Option String)
    (request : ExportRequest) (json : Bool) : ExceptT Error m Unit := do
  let (response, _) ← (s.exportAs user.username request (← ExceptT.lift host.now) : Except _ _)
  if json then printLines host [response.toJson.pretty]
  else
    let path := out.getD response.filename
    fileStep FileFault.error (host.save path response.data)
    printLines host
      [exportLine style response.memoCount.toNat response.sizeBytes.toNat path]

/-- The bytes of a file to be imported. -/
def readImport (host : Host m) (path : String) : ExceptT Error m Bytes := do
  match ← ExceptT.lift (host.load path) with
  | .ok bs => return bs
  | .error .notFound | .error .notDirectory | .error .nameTooLong | .error .nullInName =>
    throw (.fileNotFound path)
  | .error fault => throw fault.error

/-- Imports from a file. -/
def runImport (host : Host m) (style : Style) (file : StoreFile) (s : Store) (user : User)
    (path : String) (options : ImportOptions) : ExceptT Error m Unit := do
  let request : ImportRequest := { data := ← readImport host path, options := options }
  let started ← ExceptT.lift host.ticks
  let now ← ExceptT.lift host.now
  let (result, after) :=
    if file.isWritable then s.importAs user.username request now.seconds
    else s.importReadOnly user.username request now.seconds
  if after ≠ s then file.save host after
  let report ← result
  let elapsed := (← ExceptT.lift host.ticks) - started
  printLines host (importLines style (report.response elapsed) options.validateOnly)

/-- Carries out a command on an open store. -/
def runCommand (host : Host m) (style : Style) (file : StoreFile) (s : Store) (user : User)
    (command : Command) : ExceptT Error m Unit := do
  match command with
  | .add content visibility pinned =>
    let uid ← ExceptT.lift host.freshUid
    let now ← ExceptT.lift host.now
    let (memo, s) ← (s.addMemo user content visibility pinned uid now.seconds : Except _ _)
    file.save host s
    printLines host (addedLines style memo)
  | .list =>
    let memos ← (s.memosOf user : Except _ _)
    printLines host (memoLines style memos)
  | .archive uid =>
    let s ← (s.archiveMemo user uid : Except _ _)
    file.save host s
    printLines host [style.success "Archived memo" ++ " " ++ uid]
  | .delete uid =>
    let s ← (s.removeMemo user uid : Except _ _)
    file.save host s
    printLines host [style.success "Deleted memo" ++ " " ++ uid]
  | .exportSnapshot out request json => runExport host style s user out request json
  | .importSnapshot path options => runImport host style file s user path options
  | .limit bytes =>
    let s := (bytes.map s.setContentLimit).getD s
    if bytes.isSome then file.save host s
    let limit ← (s.contentLimit : Except _ _)
    printLines host ["Content length limit: " ++ style.figure (natText limit) ++ " bytes"]

/-- Carries out an invocation. -/
def run (host : Host m) (style : Style) (env : Environment) (invocation : Invocation) :
    ExceptT Error m Unit := do
  match storePath invocation.db env with
  | none => throw (.io "Could not determine data directory")
  | some address =>
    let (file, before) ← openStore host address
    let (user, s) := before.ensureUser invocation.user
    if s ≠ before then file.save host s
    runCommand host style file s user invocation.command

end MemoTransfer.Cli
