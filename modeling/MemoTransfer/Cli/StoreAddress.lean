import MemoTransfer.Cli.StorePath
import MemoTransfer.Number.Numeral
import MemoTransfer.Text.Utf8

/-!
# The address of a store

A store is named by a path, or by an address that begins with `file:`. After an authority, which can
only be the own machine, such an address holds a path, then options behind a question mark, and
perhaps a fragment behind a number sign, which does not count. In the path and in the options a
percent sign and two hexadecimal digits stand for a byte.

The option `mode` says whether the file is read, written, made or left alone, `immutable` that it is
not to be changed, `modeof` which other file has the permissions that it gets, and `vfs` and
`nolock` how two programs are kept from working on it at once; `cache` only has to be known.
-/

namespace MemoTransfer.Cli

open MemoTransfer.Number

/-- How the file of a store is opened. -/
inductive OpenMode
  /-- To be read. -/
  | read
  /-- To be read and written. -/
  | write
  /-- To be read and written, and made if it is not there. -/
  | create
  /-- Not at all; the store begins empty and is not kept. -/
  | memory
  deriving DecidableEq, Repr

/-- How two programs are kept from working on a store at once. -/
inductive Locking
  /-- By locks on parts of its file. -/
  | onFile
  /-- By such locks, which are held to the end. -/
  | exclusive
  /-- By a file beside it. -/
  | besideFile
  /-- Not at all. -/
  | none
  deriving DecidableEq, Repr

/-- Where a store is, and how it is opened. -/
structure StoreAddress where
  path : String
  mode : OpenMode := .create
  /-- The file is not to be changed. -/
  isFrozen : Bool := false
  locking : Locking := .onFile
  /-- The file with the permissions that the file gets. -/
  modeOf : Option String := none
  deriving DecidableEq, Repr

/-- Why a text is no address. -/
inductive AddressFault
  | unknownAuthority (name : String)
  | unknownMode (mode : String)
  | forbiddenMode (mode : String)
  | unknownCache (mode : String)
  | unknownSystem (name : String)
  deriving DecidableEq, Repr

/-- The wording of a fault. -/
def AddressFault.message : AddressFault → String
  | .unknownAuthority name => "invalid uri authority: " ++ name
  | .unknownMode mode => "no such access mode: " ++ mode
  | .forbiddenMode mode => "access mode not allowed: " ++ mode
  | .unknownCache mode => "no such cache mode: " ++ mode
  | .unknownSystem name => "no such vfs: " ++ name

/-! ## Percent signs -/

/-- The bytes of a part of an address. A null byte ends the part. -/
def unescapedBytes : List Char → Bytes
  | '%' :: a :: b :: cs =>
    match hexValue? a, hexValue? b with
    | some high, some low =>
      if high = 0 ∧ low = 0 then [] else UInt8.ofNat (high * 16 + low) :: unescapedBytes cs
    | _, _ => 37 :: unescapedBytes (a :: b :: cs)
  | c :: cs => Utf8.encode (String.singleton c) ++ unescapedBytes cs
  | [] => []

/-- The text of a part of an address, with replacement characters if its bytes are no text. -/
def unescaped (cs : List Char) : String :=
  let bs := unescapedBytes cs
  (Utf8.decode? bs).getD
    (String.ofList (bs.map fun b => if b < 0x80 then Char.ofUInt8 b else '\ufffd'))

/-! ## Options -/

/-- The parts of a text before and after the first character of a kind, which is dropped; there is
no second part if there is no such character. -/
def cutAt (mark : Char) (cs : List Char) : List Char × List Char :=
  (cs.takeWhile (· ≠ mark), (cs.dropWhile (· ≠ mark)).drop 1)

/-- The options behind a question mark, with their values. One without a name does not count. -/
def addressOptions (cs : List Char) : List (String × String) :=
  let parts := ((String.ofList cs).splitOn "&").map fun part => cutAt '=' part.toList
  (parts.map fun (name, value) => (unescaped name, unescaped value)).filter fun p => !p.1.isEmpty

/-- The mode with the name. -/
def OpenMode.ofName? : String → Option OpenMode
  | "ro" => some .read
  | "rw" => some .write
  | "rwc" => some .create
  | "memory" => some .memory
  | _ => none

/-- A mode may come after another one: memory always, and otherwise no mode that allows more. -/
def OpenMode.mayFollow : OpenMode → OpenMode → Bool
  | .memory, _ | _, .memory | .read, _ => true
  | .write, before => before ≠ .read
  | .create, before => before = .create

/-- The value of an option switches it on. -/
def isOn (value : String) : Bool :=
  match (value.toList.takeWhile Char.isDigit) with
  | [] => ["on", "yes", "true"].contains (String.ofList (value.toList.map Char.toLower))
  | digits => digitsValue digits < 2 ^ 31 && digitsValue digits % 256 ≠ 0

/-- The address with an option. -/
def StoreAddress.withOption (a : StoreAddress) (name value : String) :
    Except AddressFault StoreAddress :=
  match name with
  | "mode" =>
    match OpenMode.ofName? value with
    | none => .error (.unknownMode value)
    | some mode =>
      if mode.mayFollow a.mode then .ok { a with mode := mode } else .error (.forbiddenMode value)
  | "cache" =>
    if value = "shared" || value = "private" then .ok a else .error (.unknownCache value)
  | _ => .ok a

/-- The store at the address is not kept. -/
def StoreAddress.isTransient (a : StoreAddress) : Bool :=
  a.mode = .memory || a.path = "" || a.path = ":memory:"

/-- The address in the file system that keeps nothing, where the store begins empty. -/
def StoreAddress.inMemory (a : StoreAddress) : StoreAddress :=
  { a with path := "", mode := if a.isFrozen && !a.isTransient then .read else a.mode }

/-- The address in the file system with the name, if it is known. -/
def StoreAddress.inFileSystem? (a : StoreAddress) : String → Option StoreAddress
  | "unix" => some a
  | "unix-excl" => some { a with locking := .exclusive }
  | "unix-dotfile" => some { a with locking := .besideFile }
  | "unix-none" => some { a with locking := .none }
  | "memdb" => some a.inMemory
  | _ => none

/-- The address with its options. Of an option that comes twice the first one counts, but the last
file system. -/
def StoreAddress.withOptions (a : StoreAddress) (options : List (String × String)) :
    Except AddressFault StoreAddress := do
  let a ← options.foldlM (fun a option => a.withOption option.1 option.2) a
  let a := { a with
    isFrozen := (options.lookup "immutable").any isOn, modeOf := options.lookup "modeof" }
  let a ← match options.reverse.lookup "vfs" with
    | none => pure a
    | some name =>
      match a.inFileSystem? name with
      | some a => pure a
      | none => throw (.unknownSystem name)
  return if (options.lookup "nolock").any isOn then { a with locking := .none } else a

/-! ## Addresses -/

/-- What follows the authority of an address, which may be missing. -/
def afterAuthority : List Char → Except AddressFault (List Char)
  | '/' :: '/' :: cs =>
    let name := String.ofList (cs.takeWhile (· ≠ '/'))
    if name = "" || name = "localhost" then .ok (cs.dropWhile (· ≠ '/'))
    else .error (.unknownAuthority name)
  | cs => .ok cs

/-- Reads an address. -/
def StoreAddress.read (address : String) : Except AddressFault StoreAddress := do
  match address.toList with
  | 'f' :: 'i' :: 'l' :: 'e' :: ':' :: cs =>
    let whole := (cutAt '#' (← afterAuthority cs)).1
    let (path, options) := cutAt '?' whole
    StoreAddress.withOptions { path := unescaped path } (addressOptions options)
  | _ => return { path := address }

end MemoTransfer.Cli
