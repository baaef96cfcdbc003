/-
A value of the wrong type, and how it is pointed at: by line and column, with
the line itself and carets below the value.
-/
import Toolrun.Toml.Document
import Toolrun.Text.Quoted

namespace Toolrun.Toml

/-- What was wanted where a value stands. -/
inductive Wanted where
  | string
  | boolean
  | timeCount
  | byteCount
  | map
  | section (name : String)
  deriving DecidableEq, Repr

/-- The wording of what was wanted. -/
def Wanted.message : Wanted → String
  | .string => "a string"
  | .boolean => "a boolean"
  | .timeCount => "u64"
  | .byteCount => "usize"
  | .map => "a map"
  | .section name => "struct " ++ name

/-- What was found there instead. -/
inductive Found where
  | string (s : String)
  | integer (i : Int)
  | float (f : FloatNumeral)
  | boolean (b : Bool)
  | sequence
  | map
  deriving DecidableEq, Repr

/-- The wording of what was found. -/
def Found.message : Found → String
  | .string s => "string " ++ Text.quote s
  | .integer i => "integer \x60" ++ Numeral.signedDecimal i ++ "\x60"
  | .float f => "floating point \x60" ++ f.render ++ "\x60"
  | .boolean true => "boolean \x60true\x60"
  | .boolean false => "boolean \x60false\x60"
  | .sequence => "sequence"
  | .map => "map"

/-- What an item is found to be. A date counts as a map. -/
def Found.of : Item → Found
  | .scalar _ (.string s) => .string s
  | .scalar _ (.integer i) => .integer i
  | .scalar _ (.float f) => .float f
  | .scalar _ (.boolean b) => .boolean b
  | .scalar _ (.dateTime _) => .map
  | .array _ _ => .sequence
  | .tables _ => .sequence
  | .table _ _ _ => .map

/-- A value that is not what was wanted: of another type, or a number below
zero. -/
inductive Mismatch where
  | type (span : Span) (found : Found) (wanted : Wanted)
  | negative (span : Span) (value : Int) (wanted : Wanted)
  deriving DecidableEq, Repr

namespace Mismatch

/-- Where the value stands. -/
def span : Mismatch → Span
  | type span _ _ => span
  | negative span _ _ => span

/-- What is wrong with it. -/
def cause : Mismatch → String
  | type _ found wanted =>
    "invalid type: " ++ found.message ++ ", expected " ++ wanted.message
  | negative _ value wanted =>
    "invalid value: integer \x60" ++ Numeral.signedDecimal value ++
      "\x60, expected " ++ wanted.message

/-- The characters of a document up to a byte position, backwards, and those
from there on. -/
def splitAtByte : Nat → List Char → List Char → List Char × List Char
  | _, before, [] => (before, [])
  | 0, before, rest => (before, rest)
  | n + 1, before, c :: rest =>
    splitAtByte (n + 1 - c.utf8Size) (c :: before) rest

/-- The message for a mismatch in a document: place, line, carets, cause. The
carets do not reach beyond the line, and there is at least one. -/
def message (document : String) (m : Mismatch) : String :=
  let (before, rest) := splitAtByte m.span.start [] document.toList
  let line := 1 + before.count '\n'
  let left := (before.takeWhile (· ≠ '\n')).reverse
  let text := left ++ rest.takeWhile (· ≠ '\n')
  let column := left.length
  let number := Numeral.decimal line
  let gutter := String.ofList (List.replicate (number.length + 1) ' ') ++ "|"
  let carets :=
    max 1 (min (m.span.stop - m.span.start) (width text - column))
  "TOML parse error at line " ++ number ++ ", column " ++
    Numeral.decimal (column + 1) ++ "\n" ++
    gutter ++ "\n" ++
    number ++ " | " ++ String.ofList text ++ "\n" ++
    gutter ++ String.ofList (List.replicate (column + 1) ' ') ++
    String.ofList (List.replicate carets '^') ++ "\n" ++
    m.cause ++ "\n"

end Mismatch

end Toolrun.Toml
