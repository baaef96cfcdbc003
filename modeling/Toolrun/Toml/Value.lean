/-
What a configuration document says: tables of values, each with the stretch
it was written in, and each table with the way it came about, on which it
depends whether later lines may add to it.
-/
import Toolrun.Toml.DateTime
import Toolrun.Text.Binary64

namespace Toolrun.Toml

/-- A floating-point number as written. -/
inductive FloatNumeral where
  | infinite (negative : Bool)
  | notANumber
  | decimal (negative : Bool) (digits : Nat) (exponent : Int)
  deriving DecidableEq, Repr

/-- A value with no values inside. -/
inductive Scalar where
  | string (s : String)
  | integer (i : Int)
  | float (f : FloatNumeral)
  | boolean (b : Bool)
  | dateTime (d : DateTime)
  deriving DecidableEq, Repr

/-- A key, with the stretch it was written in. -/
structure Key where
  name : String
  span : Span
  deriving DecidableEq, Repr

/-- How a table came about: by a header of its own, by the header of a table
inside it, by a dotted key, or between braces. -/
inductive Origin where
  | header
  | implied
  | dotted
  | inline
  deriving DecidableEq, Repr

/-- A value, with the stretch it was written in. Tables that are only implied
have no stretch of their own; the elements of a list of tables are
tables. -/
inductive Item where
  | scalar (span : Span) (value : Scalar)
  | array (span : Span) (items : List Item)
  | table (origin : Origin) (span : Option Span) (entries : List (Key × Item))
  | tables (elements : List Item)
  deriving Inhabited

/-- The entries of a table, in the order in which they came about. -/
abbrev Entries := List (Key × Item)

namespace Entries

/-- The item with a given name. -/
def get? (entries : Entries) (name : String) : Option Item :=
  (entries.find? fun e => e.1.name = name).map (·.2)

/-- The entries without the one with a given name. -/
def erase (entries : Entries) (name : String) : Entries :=
  entries.filter fun e => e.1.name ≠ name

/-- The entries with a new item under a key: in the place of the old one, or
at the end. -/
def put (entries : Entries) (key : Key) (item : Item) : Entries :=
  if entries.any (·.1.name = key.name) then
    entries.map fun e => if e.1.name = key.name then (e.1, item) else e
  else entries ++ [(key, item)]

end Entries

/-- The stretch an item was written in. A list of tables reaches from the
first to the last. -/
def Item.span? : Item → Option Span
  | .scalar span _ => some span
  | .array span _ => some span
  | .table _ span _ => span
  | .tables elements =>
    match elements.head?, elements.getLast? with
    | some (.table _ (some first) _), some (.table _ (some last) _) =>
      some ⟨first.start, last.stop⟩
    | _, _ => none

-- ===================================================== numbers as shown

/-- A decimal written out with a point, and no exponent. -/
def positional (d : Binary64.Decimal) : String :=
  let digits := Nat.toDigits 10 d.digits
  if 0 ≤ d.exponent then
    String.ofList (digits ++ List.replicate d.exponent.toNat '0') ++ ".0"
  else
    let places := (-d.exponent).toNat
    let padded := List.replicate (places + 1 - digits.length) '0' ++ digits
    let split := padded.length - places
    String.ofList (padded.take split) ++ "." ++
      String.ofList (padded.drop split)

/-- A floating-point number by its shortest decimal. -/
def FloatNumeral.render : FloatNumeral → String
  | .infinite false => "inf"
  | .infinite true => "-inf"
  | .notANumber => "NaN"
  | .decimal negative digits exponent =>
    let sign := if negative then "-" else ""
    match Binary64.ofDecimal digits exponent with
    | none => sign ++ "inf"
    | some x => sign ++ positional (Binary64.shortest x)

end Toolrun.Toml
