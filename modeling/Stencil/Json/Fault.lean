/-
# `Json.Fault` — what can be wrong with a JSON text

A fault is noticed at some place of the text, and reported with that place.

* `Cause` — what is wrong, with its wording in `Cause.message`;
* `Fault` — a cause and the part of the text that was not read when it was noticed;
* `Report` — a cause with a line and a column, as a reader of the text counts them.

A place is a number of bytes.  Lines are counted from 1 and end in a line feed; a column is the
number of bytes since the line began.
-/
namespace Stencil.Json

inductive Cause where
  | endOfValue
  | endOfString
  | endOfList
  | endOfObject
  | expectedValue
  | expectedWord
  | expectedColon
  | expectedListEnd
  | expectedObjectEnd
  | trailingComma
  | trailingCharacters
  | keyNotString
  | invalidNumber
  | numberOutOfRange
  | invalidEscape
  | loneSurrogate
  | halfSurrogatePair
  | controlCharacter
  | tooDeep
  | wrongType (found expected : String)
  deriving DecidableEq, Repr

def Cause.message : Cause → String
  | endOfValue => "EOF while parsing a value"
  | endOfString => "EOF while parsing a string"
  | endOfList => "EOF while parsing a list"
  | endOfObject => "EOF while parsing an object"
  | expectedValue => "expected value"
  | expectedWord => "expected ident"
  | expectedColon => "expected `:`"
  | expectedListEnd => "expected `,` or `]`"
  | expectedObjectEnd => "expected `,` or `\x7d`"
  | trailingComma => "trailing comma"
  | trailingCharacters => "trailing characters"
  | keyNotString => "key must be a string"
  | invalidNumber => "invalid number"
  | numberOutOfRange => "number out of range"
  | invalidEscape => "invalid escape"
  | loneSurrogate => "lone leading surrogate in hex escape"
  | halfSurrogatePair => "unexpected end of hex escape"
  | controlCharacter => "control character (\\u0000-\\u001F) found while parsing a string"
  | tooDeep => "recursion limit exceeded"
  | wrongType found expected => "invalid type: " ++ found ++ ", expected " ++ expected

/-- A cause, what was left to read when it was noticed, and how many bytes of that it takes in. -/
structure Fault where
  cause : Cause
  rest : List Char
  ahead : Nat
  deriving DecidableEq, Repr

namespace Fault

/-- A fault of the next byte, or of there being none. -/
def next (cause : Cause) (rest : List Char) : Fault :=
  ⟨cause, rest, 1⟩

/-- A fault of what was read last. -/
def last (cause : Cause) (rest : List Char) : Fault :=
  ⟨cause, rest, 0⟩

end Fault

/-- A cause and its place in the text. -/
structure Report where
  cause : Cause
  line : Nat
  column : Nat
  deriving DecidableEq, Repr

namespace Report

def message (r : Report) : String :=
  r.cause.message ++ " at line " ++ toString r.line ++ " column " ++ toString r.column

/-- The bytes of a text that a fault leaves behind it, the ones it takes in included. -/
def before (text : String) (fault : Fault) : List UInt8 :=
  let rest := (String.ofList fault.rest).utf8ByteSize
  text.toUTF8.toList.take (text.utf8ByteSize - rest + fault.ahead)

def ofFault (text : String) (fault : Fault) : Report :=
  let bytes := before text fault
  { cause := fault.cause
    line := bytes.count 10 + 1
    column := (bytes.reverse.takeWhile (· != 10)).length }

end Report

end Stencil.Json
