import MemoTransfer.Number.Shortest
import MemoTransfer.Text.Quoted

/-!
# Faults of a JSON text

What can be wrong with a JSON text or with the value that it holds, and the wording of each fault.
A fault of form names what was expected; a fault of content names what was found as well.
-/

namespace MemoTransfer.Json

open MemoTransfer.Number MemoTransfer.Text

/-- A value of a kind that was not expected. -/
inductive Found
  | null
  | boolean (value : Bool)
  | integer (value : Int)
  | floating (value : Binary64)
  | text (value : String)
  | list
  | object
  deriving DecidableEq, Repr

/-- How a value is named in a fault. -/
def Found.describe : Found → String
  | .null => "null"
  | .boolean b => "boolean \x60" ++ (if b then "true" else "false") ++ "\x60"
  | .integer n => "integer \x60" ++ intText n ++ "\x60"
  | .floating x => "floating point \x60" ++ String.ofList x.digits ++ "\x60"
  | .text s => "string " ++ quoted s
  | .list => "sequence"
  | .object => "map"

/-- What a text breaks off in. -/
inductive Unfinished
  | list
  | object
  | string
  | value
  deriving DecidableEq, Repr

/-- How an unfinished part is named in a fault. -/
def Unfinished.describe : Unfinished → String
  | .list => "a list"
  | .object => "an object"
  | .string => "a string"
  | .value => "a value"

/-- What is wrong with a JSON text. -/
inductive Fault
  /-- The text ends inside a part. -/
  | ended (part : Unfinished)
  | expectedColon
  | expectedCommaOrBracket
  | expectedCommaOrBrace
  /-- A word other than `null`, `true` and `false`. -/
  | expectedWord
  | expectedValue
  | badEscape
  | badNumber
  | numberOutOfRange
  /-- The bytes of a string are not UTF-8. -/
  | badCodePoint
  | controlCharacter
  | keyNotString
  | loneSurrogate
  | incompleteSurrogatePair
  | trailingComma
  | trailingCharacters
  | tooDeep
  /-- A value of another kind than the expected one. -/
  | wrongKind (found : Found) (expected : String)
  /-- An integer outside the expected range. -/
  | wrongInteger (value : Int) (expected : String)
  /-- A list that ends before the record it stands for is complete. -/
  | shortList (length : Nat) (expected : String)
  | missingMember (name : String)
  | repeatedMember (name : String)
  /-- A name that is none of the known ones. -/
  | unknownName (name : String) (known : List String)
  /-- A text that its own format refuses, with the reason. -/
  | refused (reason : String)
  deriving DecidableEq, Repr

/-- A name between grave accents. -/
def ticked (name : String) : String := "\x60" ++ name ++ "\x60"

/-- The wording of a fault. -/
def Fault.message : Fault → String
  | .ended part => "EOF while parsing " ++ part.describe
  | .expectedColon => "expected " ++ ticked ":"
  | .expectedCommaOrBracket => "expected " ++ ticked "," ++ " or " ++ ticked "]"
  | .expectedCommaOrBrace => "expected " ++ ticked "," ++ " or " ++ ticked "\x7d"
  | .expectedWord => "expected ident"
  | .expectedValue => "expected value"
  | .badEscape => "invalid escape"
  | .badNumber => "invalid number"
  | .numberOutOfRange => "number out of range"
  | .badCodePoint => "invalid unicode code point"
  | .controlCharacter => "control character (\\u0000-\\u001F) found while parsing a string"
  | .keyNotString => "key must be a string"
  | .loneSurrogate => "lone leading surrogate in hex escape"
  | .incompleteSurrogatePair => "unexpected end of hex escape"
  | .trailingComma => "trailing comma"
  | .trailingCharacters => "trailing characters"
  | .tooDeep => "recursion limit exceeded"
  | .wrongKind found expected => "invalid type: " ++ found.describe ++ ", expected " ++ expected
  | .wrongInteger value expected =>
    "invalid value: integer " ++ ticked (intText value) ++ ", expected " ++ expected
  | .shortList length expected => "invalid length " ++ natText length ++ ", expected " ++ expected
  | .missingMember name => "missing field " ++ ticked name
  | .repeatedMember name => "duplicate field " ++ ticked name
  | .unknownName name known =>
    "unknown variant " ++ ticked name ++ ", expected one of " ++
      ", ".intercalate (known.map ticked)
  | .refused reason => reason

end MemoTransfer.Json
