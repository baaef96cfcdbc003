/-
JSON values, as far as change-sets and reports need them: strings are byte
strings in UTF-8, an object keeps its members in the order in which they
stand, repeated names included, and a number keeps the digits it is written
with.
-/
import Toolrun.Text.Utf8

namespace Toolrun

namespace Json

/-- A number as written: sign, digits before the point, digits after it
(none if there is no point), and the exponent, if there is one, by its sign
and its digits. -/
structure Numeral where
  negative : Bool
  whole : Bytes
  fraction : Bytes
  exponent : Option (Bool × Bytes)
  deriving DecidableEq, Repr

end Json

/-- A JSON value. -/
inductive Json where
  | null
  | bool (b : Bool)
  | number (n : Json.Numeral)
  | string (text : Bytes)
  | array (items : List Json)
  | object (members : List (Bytes × Json))
  deriving Inhabited

namespace Json

/-- A string value from a text. -/
def ofText (s : String) : Json := .string (Utf8.encode s)

/-- The values of the members with a given name, in order. -/
def valuesOf (name : Bytes) (members : List (Bytes × Json)) : List Json :=
  members.filterMap fun m => if m.1 = name then some m.2 else none

end Json

end Toolrun
