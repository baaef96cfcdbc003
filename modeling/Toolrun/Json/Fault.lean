/-
What can be wrong with a JSON text, and where.

A fault is placed by the number of bytes that were still unread when it was
found; counting from the end keeps the reader free of counters, since the
unread part is what it holds in its hand. Line and column are worked out from
the whole text when the fault is shown.
-/
import Toolrun.Text.Numeral

namespace Toolrun.Json

/-- Why a text is not JSON, or not the JSON that was asked for. -/
inductive Cause where
  | endInValue
  | endInString
  | endInList
  | endInObject
  | expectedValue
  | expectedWord
  | expectedColon
  | expectedListSeparator
  | expectedObjectSeparator
  | keyNotString
  | trailingComma
  | trailingCharacters
  | invalidNumber
  | numberOutOfRange
  | invalidEscape
  | loneSurrogate
  | unpairedSurrogate
  | controlCharacter
  | tooDeep
  | noInputPath
  deriving DecidableEq, Repr

/-- The wording of a cause. -/
def Cause.message : Cause → String
  | .endInValue => "EOF while parsing a value"
  | .endInString => "EOF while parsing a string"
  | .endInList => "EOF while parsing a list"
  | .endInObject => "EOF while parsing an object"
  | .expectedValue => "expected value"
  | .expectedWord => "expected ident"
  | .expectedColon => "expected \x60:\x60"
  | .expectedListSeparator => "expected \x60,\x60 or \x60]\x60"
  | .expectedObjectSeparator => "expected \x60,\x60 or \x60\x7d\x60"
  | .keyNotString => "key must be a string"
  | .trailingComma => "trailing comma"
  | .trailingCharacters => "trailing characters"
  | .invalidNumber => "invalid number"
  | .numberOutOfRange => "number out of range"
  | .invalidEscape => "invalid escape"
  | .loneSurrogate => "lone leading surrogate in hex escape"
  | .unpairedSurrogate => "unexpected end of hex escape"
  | .controlCharacter =>
    "control character (\\u0000-\\u001F) found while parsing a string"
  | .tooDeep => "recursion limit exceeded"
  | .noInputPath => "data did not match any variant of untagged enum Repr"

/-- A cause, with the number of bytes not yet read when it was found. -/
structure Fault where
  cause : Cause
  unread : Nat
  deriving DecidableEq, Repr

/-- A fault found with everything up to `rest` read. -/
def Fault.before (cause : Cause) (rest : Bytes) : Fault :=
  ⟨cause, rest.length⟩

/-- A fault that lies in the first byte of `rest`, which counts as read; at
the end of the text there is none to count. -/
def Fault.at (cause : Cause) (rest : Bytes) : Fault :=
  ⟨cause, rest.length - 1⟩

/-- The line a number of bytes ends in, counted from one, and the number of
those bytes that stand on it. -/
def lineAndColumn (read : Bytes) : Nat × Nat :=
  (1 + read.count 0x0A, (read.reverse.takeWhile (· ≠ 0x0A)).length)

/-- A fault found in `text`, with its place. -/
def Fault.message (text : Bytes) (fault : Fault) : String :=
  let (line, column) :=
    lineAndColumn (text.take (text.length - fault.unread))
  fault.cause.message ++ " at line " ++ Numeral.decimal line ++ " column " ++
    Numeral.decimal column

end Toolrun.Json
