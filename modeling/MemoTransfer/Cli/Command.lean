import MemoTransfer.Cli.Usage
import MemoTransfer.Transfer.Envelope

/-!
# Commands

What the command line can ask for. The store and the acting user may be named before or after the
command; what comes after it counts more.
-/

namespace MemoTransfer.Cli

open MemoTransfer.Number

/-- What is to be done. -/
inductive Command
  | add (content : String) (visibility : Visibility) (pinned : Bool)
  | list
  | archive (uid : String)
  | delete (uid : String)
  /-- Writes a snapshot to a file, or prints the response. -/
  | exportSnapshot (out : Option String) (request : ExportRequest) (json : Bool)
  | importSnapshot (path : String) (options : ImportOptions)
  /-- Shows the content limit, after setting it if a number is given. -/
  | limit (bytes : Option Nat)
  deriving DecidableEq, Repr

/-- A command, the store and the user. -/
structure Invocation where
  db : Option String
  user : String
  command : Command
  deriving DecidableEq, Repr

/-- The options that may stand before and after a command. -/
def sharedOptions : List (String × ValueKind) := [("db", .path), ("user", .text)]

/-- How the arguments of a command are read, and what they ask for. -/
structure CommandForm where
  name : String
  switches : List String := []
  options : List (String × ValueKind) := []
  positionals : List ValueKind := []
  required : Nat := 0
  build : Reading → Command

/-- The grammar of a command's arguments. -/
def CommandForm.grammar (f : CommandForm) : Grammar where
  switches := f.switches
  options := f.options ++ sharedOptions
  positionals := f.positionals
  required := f.required
  commands := []

/-- The first positional value. -/
def Reading.first (r : Reading) : String := (r.value? (.positional 0)).getD ""

/-- The request of an export command. -/
def Reading.exportRequest (r : Reading) : ExportRequest where
  filter := r.option? "filter"
  excludeArchived := r.switch "exclude-archived"
  includeAttachments := r.switch "include-attachments"
  includeRelations := r.switch "include-relations"

/-- The options of an import command. -/
def Reading.importOptions (r : Reading) : ImportOptions where
  overwriteExisting := r.switch "overwrite"
  validateOnly := r.switch "validate-only"
  preserveTimestamps := !r.switch "no-preserve-timestamps"
  skipAttachments := r.switch "skip-attachments"
  skipRelations := r.switch "skip-relations"

/-- The commands. -/
def commandForms : List CommandForm :=
  [{ name := "add", switches := ["pinned"], options := [("visibility", .visibility)],
     positionals := [.text], required := 1,
     build := fun r => .add r.first
       (((r.option? "visibility").bind Visibility.ofName?).getD default) (r.switch "pinned") },
   { name := "list", build := fun _ => .list },
   { name := "archive", positionals := [.text], required := 1,
     build := fun r => .archive r.first },
   { name := "delete", positionals := [.text], required := 1,
     build := fun r => .delete r.first },
   { name := "export",
     switches := ["exclude-archived", "include-attachments", "include-relations", "json"],
     options := [("out", .path), ("filter", .text)],
     build := fun r => .exportSnapshot (r.option? "out") r.exportRequest (r.switch "json") },
   { name := "import",
     switches := ["overwrite", "validate-only", "no-preserve-timestamps", "skip-attachments",
       "skip-relations"],
     positionals := [.path], required := 1,
     build := fun r => .importSnapshot r.first r.importOptions },
   { name := "limit", positionals := [.count],
     build := fun r => .limit (((r.value? (.positional 0)).bind
       fun s => readUInt64? s.toList).map UInt64.toNat) }]

/-- The command that explains the others. -/
def helpName : String := "help"

/-- The grammar of the arguments before a command. -/
def topGrammar : Grammar where
  switches := []
  options := sharedOptions
  positionals := []
  required := 0
  commands := commandForms.map (·.name) ++ [helpName]

/-- A request for help on a command. -/
def readHelp (args : List String) : UsageFault :=
  match args with
  | [] => .helpRequested
  | [name] => if name ∈ topGrammar.commands then .helpRequested else .unknownCommand
  | _ => .unknownCommand

/-- The acting user when none is named. -/
def defaultUser : String := "admin"

/-- Reads a command line. `envUser` is the user that the environment names. -/
def Invocation.read (args : List String) (envUser : Option String) :
    Except UsageFault Invocation := do
  let (top, command) ← Reading.takeAll {} topGrammar args
  match command with
  | none =>
    let top ← top.settle topGrammar
    if top.values.isEmpty && envUser.isNone then throw .nothingGiven else throw .missingCommand
  | some (name, rest) =>
    match commandForms.find? (·.name = name) with
    | none => throw (readHelp rest)
    | some form =>
      let r ← readCommand form.grammar rest
      let top ← top.settle topGrammar
      return {
        db := r.option? "db" <|> top.option? "db"
        user := (r.option? "user" <|> top.option? "user" <|> envUser).getD defaultUser
        command := form.build r }

end MemoTransfer.Cli
