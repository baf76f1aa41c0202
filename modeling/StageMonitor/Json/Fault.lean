import StageMonitor.Json.Scalar
import StageMonitor.Text.Position
import StageMonitor.Text.Quoted

/-! # Faults of a document

A fault is a cause together with the number of bytes that were not yet read when it was noticed, so
its position can be told once the whole text is known.
-/

namespace StageMonitor.Json

open Text

/-- What stands where another kind of value is wanted. -/
inductive Found
  | scalar (a : Scalar)
  | list
  | object

namespace Found

def text : Found → String
  | scalar .null => "null"
  | scalar (.bool b) => "boolean `" ++ toString b ++ "`"
  | scalar (.number (.int i)) => "integer `" ++ String.ofList (intText i) ++ "`"
  | scalar (.number (.float x)) => "floating point `" ++ String.ofList (floatText x) ++ "`"
  | scalar (.string s) => "string " ++ quoted s
  | list => "sequence"
  | object => "map"

end Found

inductive Cause
  | endInList
  | endInObject
  | endInString
  | endInValue
  | expectedColon
  | expectedCommaInList
  | expectedCommaInObject
  | expectedWord
  | expectedValue
  | invalidEscape
  | invalidNumber
  | numberOutOfRange
  | controlCharacter
  | keyNotString
  | loneSurrogate
  | unpairedSurrogate
  | trailingComma
  | trailingCharacters
  | tooDeep
  | wrongType (found : Found) (expected : String)
  | wrongLength (length : Nat) (expected : String)
  | missingField (name : String)
  | repeatedField (name : String)

namespace Cause

def text : Cause → String
  | endInList => "EOF while parsing a list"
  | endInObject => "EOF while parsing an object"
  | endInString => "EOF while parsing a string"
  | endInValue => "EOF while parsing a value"
  | expectedColon => "expected `:`"
  | expectedCommaInList => "expected `,` or `]`"
  | expectedCommaInObject => "expected `,` or `\x7d`"
  | expectedWord => "expected ident"
  | expectedValue => "expected value"
  | invalidEscape => "invalid escape"
  | invalidNumber => "invalid number"
  | numberOutOfRange => "number out of range"
  | controlCharacter => "control character (\\u0000-\\u001F) found while parsing a string"
  | keyNotString => "key must be a string"
  | loneSurrogate => "lone leading surrogate in hex escape"
  | unpairedSurrogate => "unexpected end of hex escape"
  | trailingComma => "trailing comma"
  | trailingCharacters => "trailing characters"
  | tooDeep => "recursion limit exceeded"
  | wrongType found expected => "invalid type: " ++ found.text ++ ", expected " ++ expected
  | wrongLength length expected => "invalid length " ++ toString length ++ ", expected " ++ expected
  | missingField name => "missing field `" ++ name ++ "`"
  | repeatedField name => "duplicate field `" ++ name ++ "`"

end Cause

structure Fault where
  cause : Cause
  unread : Nat

/-- A fault noticed with `s` still to read. -/
def Cause.before (cause : Cause) (s : List Char) : Fault :=
  ⟨cause, byteLength s⟩

/-- A fault that the next byte of `s` shows, which then counts as read. -/
def Cause.within (cause : Cause) (s : List Char) : Fault :=
  ⟨cause, byteLength s - 1⟩

namespace Fault

def position (fault : Fault) (document : List Char) : Position :=
  Position.start.advance (byteLength document - fault.unread) document

end Fault

/-- A cause at a place of the document. -/
structure Rejection where
  cause : Cause
  position : Position

namespace Rejection

def message (r : Rejection) : String :=
  r.cause.text ++ " at line " ++ toString r.position.line ++
    " column " ++ toString r.position.column

end Rejection

end StageMonitor.Json
