/-
Reading keys and values. Lists and braced tables nest at most to a fixed
depth, which is what the recursion over values runs on; the loops over
elements run on the number of unread characters.
-/
import Toolrun.Toml.Scalar

namespace Toolrun.Toml

-- ================================================================ keys

/-- A character of a bare key. -/
def isBareKeyChar (c : Char) : Bool :=
  ('a' ≤ c && c ≤ 'z') || ('A' ≤ c && c ≤ 'Z') ||
    ('0' ≤ c && c ≤ '9') || c == '-' || c == '_'

/-- One part of a key: bare, or a string on one line. -/
def keyPart? (c : Cursor) : Option (Key × Cursor) :=
  let found : Option (List Char × Cursor) :=
    match c.rest with
    | '"' :: _ => Scalar.basic? (c.rest.length + 1) [] (c.skip 1)
    | '\'' :: _ => Scalar.literal? (c.skip 1)
    | _ =>
      let name := c.rest.takeWhile isBareKeyChar
      if name.isEmpty then none else some (name, c.skip name.length)
  found.map fun (cs, d) => (⟨String.ofList cs, c.spanTo d⟩, d)

/-- The parts of a key behind those already read, newest first. White space
may stand around each. -/
def keyParts? : Nat → List Key → Cursor → Option (List Key × Cursor)
  | 0, _, _ => none
  | fuel + 1, found, c =>
    match keyPart? c.skipSpace with
    | none => none
    | some (part, d) =>
      let d := d.skipSpace
      match d.rest with
      | '.' :: _ => keyParts? fuel (part :: found) (d.skip 1)
      | _ => some ((part :: found).reverse, d)

/-- How many parts a key may have, and how deep values may nest. -/
def depthLimit : Nat := 79

/-- A key of one or more parts with points between them. -/
def key? (c : Cursor) : Option (List Key × Cursor) :=
  match keyParts? (c.rest.length + 1) [] c with
  | none => none
  | some (parts, d) =>
    if parts.length ≤ depthLimit then some (parts, d) else none

-- ======================================================= adding entries

/-- Adds an entry below a table made by dotted keys: each part of the path but
the last names a table that dotted keys have made or now make, and the last
names nothing yet. A table with no dots in the way is written by its own
keys only, one made by dots never by them. -/
def addDotted? (closed : Bool) (path : List Key) (key : Key) (item : Item)
    (entries : Entries) : Option Entries :=
  match path with
  | [] =>
    match entries.get? key.name with
    | some _ => none
    | none => some (entries.put key item)
  | part :: path =>
    let below (origin : Origin) (inner : Entries) : Option Item :=
      if path.isEmpty && origin ≠ .dotted then none
      else (addDotted? closed path key item inner).map (.table origin none ·)
    match entries.get? part.name with
    | none => (below .dotted []).map (entries.put part ·)
    | some (.table .dotted _ inner) =>
      (below .dotted inner).map (entries.put part ·)
    | some (.table .implied _ inner) =>
      if closed then none else (below .implied inner).map (entries.put part ·)
    | some (.tables elements) =>
      -- Only a document can hold a list of tables; its last one is open, but
      -- it has a header, so dotted keys cannot end in it.
      match closed, elements.getLast? with
      | false, some (.table .header span inner) =>
        if path.isEmpty then none
        else
          (addDotted? closed path key item inner).map fun inner =>
            entries.put part
              (.tables (elements.dropLast ++ [.table .header span inner]))
      | _, _ => none
    | some _ => none

-- ============================================================== values

/-- The elements of a list behind those already read, newest first, up to and
including the closing bracket. A comma may stand in front of it. -/
def elements? (value : Cursor → Option (Item × Cursor)) :
    Nat → List Item → Cursor → Option (List Item × Cursor)
  | 0, _, _ => none
  | fuel + 1, found, c =>
    let c := c.skipLines (c.rest.length + 1)
    match c.rest with
    | ']' :: _ => some (found.reverse, c.skip 1)
    | _ =>
      match value c with
      | none => none
      | some (item, d) =>
        let d := d.skipLines (d.rest.length + 1)
        match d.rest with
        | ',' :: _ => elements? value fuel (item :: found) (d.skip 1)
        | ']' :: _ => some ((item :: found).reverse, d.skip 1)
        | _ => none

/-- A key, an equals sign and a value. -/
def assignment? (value : Cursor → Option (Item × Cursor)) (c : Cursor) :
    Option (List Key × Item × Cursor) := do
  let (key, c) ← key? c
  let c ← c.expect? ['=']
  let (item, c) ← value c.skipSpace
  some (key, item, c)

/-- The entries of a braced table behind those already read, up to and
including the closing brace. There is no comma in front of it, and no line
break anywhere. -/
def bracedEntries? (value : Cursor → Option (Item × Cursor)) :
    Nat → Entries → Cursor → Option (Entries × Cursor)
  | 0, _, _ => none
  | fuel + 1, entries, c =>
    match assignment? value c with
    | none => none
    | some (path, item, d) =>
      match path.getLast? with
      | none => none
      | some key =>
        match addDotted? true path.dropLast key item entries with
        | none => none
        | some entries =>
          let d := d.skipSpace
          match d.rest with
          | ',' :: _ => bracedEntries? value fuel entries (d.skip 1)
          | '}' :: _ => some (entries, d.skip 1)
          | _ => none

/-- A braced table from behind its opening brace. -/
def braced? (value : Cursor → Option (Item × Cursor)) (c : Cursor) :
    Option (Entries × Cursor) :=
  match c.skipSpace.rest with
  | '}' :: _ => some ([], c.skipSpace.skip 1)
  | _ => bracedEntries? value (c.rest.length + 1) [] c

/-- A value with no values inside. -/
def scalar? (c : Cursor) : Option (Item × Cursor) :=
  (Scalar.read? c).map fun (v, d) => (.scalar (c.spanTo d) v, d)

/-- A value, with room for `budget` more brackets inside one another. -/
def value? : Nat → Cursor → Option (Item × Cursor)
  | 0, c =>
    match c.rest with
    | '[' :: _ => none
    | '{' :: _ => none
    | _ => scalar? c
  | budget + 1, c =>
    match c.rest with
    | '[' :: _ =>
      (elements? (value? budget) (c.rest.length + 1) [] (c.skip 1)).map
        fun (items, d) => (.array (c.spanTo d) items, d)
    | '{' :: _ =>
      (braced? (value? budget) (c.skip 1)).map
        fun (entries, d) => (.table .inline (some (c.spanTo d)) entries, d)
    | _ => scalar? c

end Toolrun.Toml
