import MemoTransfer.Memo.Basic
import MemoTransfer.Number.Numeral

/-!
# Command lines

A command line is read from left to right against a grammar: named switches and options, positional
values, and the commands that may follow. An option takes the next argument as its value unless that
looks like a name, and its value is checked only when the next argument is recognized or the line
ends. After two hyphens every argument is positional.
-/

namespace MemoTransfer.Cli

open MemoTransfer.Number

/-- Why a command line is not carried out. -/
inductive UsageFault
  /-- It asks for help. -/
  | helpRequested
  | nothingGiven
  | missingCommand
  | unknownCommand
  | unknownArgument
  | missingArgument
  | missingValue
  | badValue
  | repeatedArgument
  /-- A switch with a value. -/
  | unexpectedValue
  deriving DecidableEq, Repr

/-- The wording of a fault. -/
def UsageFault.message : UsageFault → String
  | helpRequested | nothingGiven =>
    "commands: add, list, archive, delete, export, import, limit"
  | missingCommand => "a command is missing"
  | unknownCommand => "there is no such command"
  | unknownArgument => "an argument is not known"
  | missingArgument => "an argument is missing"
  | missingValue => "an option has no value"
  | badValue => "a value is not valid"
  | repeatedArgument => "an argument is given twice"
  | unexpectedValue => "a switch takes no value"

/-- What kind of value an argument takes. -/
inductive ValueKind
  | text
  | path
  | visibility
  | count
  deriving DecidableEq, Repr

/-- Refuses a value that is not of the kind. -/
def ValueKind.check (kind : ValueKind) (s : String) : Except UsageFault Unit :=
  match kind with
  | text => .ok ()
  | path => if s.isEmpty then .error .missingValue else .ok ()
  | visibility => if (Visibility.ofName? s).isSome then .ok () else .error .badValue
  | count => if (readUInt64? s.toList).isSome then .ok () else .error .badValue

/-- The arguments that a command line may have. -/
structure Grammar where
  switches : List String
  options : List (String × ValueKind)
  positionals : List ValueKind
  /-- How many of the positional values must be there. -/
  required : Nat
  commands : List String

/-- What an argument gives a value to. -/
inductive Slot
  | named (name : String)
  | positional (index : Nat)
  deriving DecidableEq, Repr

/-- The kind of value that a slot takes. -/
def Grammar.kind (g : Grammar) : Slot → ValueKind
  | .named name => (g.options.lookup name).getD .text
  | .positional index => (g.positionals[index]?).getD .text

/-- A command line that has been read in part. -/
structure Reading where
  /-- The slots with checked values; a switch has an empty one. -/
  values : List (Slot × String) := []
  /-- The slot whose value has not been checked, or not even come. -/
  pending : Option (Slot × Option String) := none
  /-- The next argument is the value of the pending slot. -/
  awaiting : Bool := false
  /-- The number of positional values. -/
  positionals : Nat := 0
  /-- All further arguments are positional. -/
  trailing : Bool := false
  deriving DecidableEq, Repr

namespace Reading

/-- The value of a slot. -/
def value? (r : Reading) (slot : Slot) : Option String := r.values.lookup slot

/-- The value of an option. -/
def option? (r : Reading) (name : String) : Option String := r.value? (.named name)

/-- A switch is on. -/
def switch (r : Reading) (name : String) : Bool := (r.option? name).isSome

/-- Gives a slot a value. -/
def put (r : Reading) (g : Grammar) (slot : Slot) (value : String) :
    Except UsageFault Reading := do
  if (r.value? slot).isSome then throw .repeatedArgument
  (g.kind slot).check value
  return { r with values := r.values ++ [(slot, value)] }

/-- Checks the value of the pending slot. -/
def settle (r : Reading) (g : Grammar) : Except UsageFault Reading :=
  match r.pending with
  | none => .ok { r with awaiting := false }
  | some (_, none) => .error .missingValue
  | some (slot, some value) =>
    { r with pending := none, awaiting := false }.put g slot value

/-- Takes an argument that begins with two hyphens. -/
def takeNamed (r : Reading) (g : Grammar) (name : String) (value : Option String) :
    Except UsageFault Reading := do
  if name = "help" ∨ name ∈ g.switches then
    if value.isSome then throw .unexpectedValue
    let r ← r.settle g
    if name = "help" then throw .helpRequested
    r.put g (.named name) ""
  else if (g.options.lookup name).isSome then
    let r ← r.settle g
    match value with
    | some v => r.put g (.named name) v
    | none => return { r with pending := some (.named name, none), awaiting := true }
  else throw .unknownArgument

/-- Takes an argument that is no name. -/
def takePlain (r : Reading) (g : Grammar) (arg : String) : Except UsageFault Reading :=
  match r.awaiting && !r.trailing, r.pending with
  | true, some (slot, _) => .ok { r with pending := some (slot, some arg), awaiting := false }
  | _, _ =>
    if r.positionals < g.positionals.length then do
      let settled ← r.settle g
      return { settled with
        pending := some (.positional r.positionals, some arg), positionals := r.positionals + 1 }
    else if g.commands.isEmpty ∨ (r.trailing ∧ arg ∈ g.commands) then .error .unknownArgument
    else .error .unknownCommand

/-- The name and the attached value of an argument behind its two hyphens. -/
def splitNamed (cs : List Char) : String × Option String :=
  let name := cs.takeWhile (· ≠ '=')
  (String.ofList name,
    if cs.length = name.length then none else some (String.ofList (cs.drop (name.length + 1))))

/-- Takes one argument that is no command. -/
def take (r : Reading) (g : Grammar) (arg : String) : Except UsageFault Reading :=
  if r.trailing then r.takePlain g arg
  else
    match arg.toList with
    | ['-', '-'] => .ok { r with trailing := true }
    | '-' :: '-' :: cs =>
      let (name, value) := splitNamed cs
      r.takeNamed g name value
    | '-' :: c :: _ =>
      if c = 'h' then do
        let _ ← r.settle g
        throw .helpRequested
      else .error .unknownArgument
    | _ => r.takePlain g arg

/-- Takes arguments up to a command: the command and the arguments after it. -/
def takeAll (r : Reading) (g : Grammar) :
    List String → Except UsageFault (Reading × Option (String × List String))
  | [] => .ok (r, none)
  | arg :: args =>
    if !r.trailing && !r.awaiting && arg ∈ g.commands then .ok (r, some (arg, args))
    else do (← r.take g arg).takeAll g args

end Reading

/-- Reads the arguments of a command. -/
def readCommand (g : Grammar) (args : List String) : Except UsageFault Reading := do
  let (r, _) ← Reading.takeAll {} g args
  let r ← r.settle g
  if r.positionals < g.required then throw .missingArgument
  return r

end MemoTransfer.Cli
