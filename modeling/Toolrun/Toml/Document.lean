/-
Reading a whole document, line by line: assignments go to the table whose
header came last, and a header opens the next one.

The table being filled is kept apart from those already complete and joins
them when it is closed. A header for a table that so far is only implied
takes up what is in it, so that table then stands where the header stands.
-/
import Toolrun.Toml.Reader

namespace Toolrun.Toml

-- ============================================================== headers

/-- Changes the entries at a path of headers and reports something about
them. Parts that name nothing become implied tables; in a list of tables the
last one is meant. -/
def Entries.updateAt? {β : Type} (change : Entries → Option (Entries × β)) :
    List Key → Entries → Option (Entries × β)
  | [], entries => change entries
  | part :: path, entries =>
    let continueIn (origin : Origin) (span : Option Span) (inner : Entries) :
        Option (Entries × β) :=
      (updateAt? change path inner).map fun (inner, found) =>
        (entries.put part (.table origin span inner), found)
    match entries.get? part.name with
    | none => continueIn .implied none []
    | some (.table .inline _ _) => none
    | some (.table origin span inner) => continueIn origin span inner
    | some (.tables elements) =>
      match elements.getLast? with
      | some (.table origin span inner) =>
        (updateAt? change path inner).map fun (inner, found) =>
          (entries.put part
            (.tables (elements.dropLast ++ [.table origin span inner])), found)
      | _ => none
    | some _ => none

/-- The table being filled: where it belongs, whether it is an element of a
list of tables, and where it is written. Before the first header it is the
outermost table, which belongs nowhere. -/
structure Draft where
  closed : Entries := []
  path : List Key := []
  isElement : Bool := false
  span : Option Span := none
  entries : Entries := []

namespace Draft

/-- Puts the table being filled with the others. -/
def close? (d : Draft) : Option Entries :=
  match d.path.getLast? with
  | none => some d.entries
  | some key =>
    let table : Item := .table .header d.span d.entries
    let add (siblings : Entries) : Option (Entries × Unit) :=
      if d.isElement then
        match siblings.get? key.name with
        | some (.tables elements) =>
          some (siblings.put key (.tables (elements ++ [table])), ())
        | _ => none
      else some (siblings.put key table, ())
    (d.closed.updateAt? add d.path.dropLast).map (·.1)

/-- What a header takes up: nothing, or the entries of a table so far only
implied. Any other table has had its header. -/
def takeUp? (key : Key) (siblings : Entries) : Option (Entries × Entries) :=
  match siblings.get? key.name with
  | none => some (siblings, [])
  | some (.table .implied _ inner) => some (siblings.erase key.name, inner)
  | some _ => none

/-- Makes sure that there is a list of tables under a key. -/
def beginList? (key : Key) (siblings : Entries) : Option (Entries × Entries) :=
  match siblings.get? key.name with
  | none => some (siblings.put key (.tables []), [])
  | some (.tables _) => some (siblings, [])
  | some _ => none

/-- Opens the table of a header. -/
def openTable? (d : Draft) (path : List Key) (isElement : Bool) (span : Span) :
    Option Draft := do
  let closed ← d.close?
  let key ← path.getLast?
  let change := if isElement then beginList? key else takeUp? key
  let (closed, entries) ← closed.updateAt? change path.dropLast
  some ⟨closed, path, isElement, some span, entries⟩

/-- Adds an assignment; the table then reaches as far as its value. -/
def assign? (d : Draft) (path : List Key) (item : Item) : Option Draft := do
  let key ← path.getLast?
  let entries ← addDotted? false path.dropLast key item d.entries
  let stop := (item.span?.map Span.stop)
  let span :=
    match d.span, stop with
    | some span, some stop => some ⟨span.start, stop⟩
    | span, _ => span
  some { d with entries := entries, span := span }

end Draft

-- ================================================================ lines

/-- A header between brackets, single or double. -/
def header? (c : Cursor) : Option (List Key × Bool × Cursor) :=
  match c.rest with
  | '[' :: '[' :: _ => do
    let (path, d) ← key? (c.skip 2)
    let d ← d.expect? [']', ']']
    some (path, true, d)
  | '[' :: _ => do
    let (path, d) ← key? (c.skip 1)
    let d ← d.expect? [']']
    some (path, false, d)
  | _ => none

/-- One line that is neither blank nor a comment, with its end. -/
def line? (d : Draft) (c : Cursor) : Option (Draft × Cursor) :=
  match c.rest with
  | '[' :: _ => do
    let (path, isElement, e) ← header? c
    let d ← d.openTable? path isElement (c.spanTo e)
    let e ← e.lineEnd?
    some (d, e)
  | _ => do
    let (path, item, e) ← assignment? (value? depthLimit) c
    let d ← d.assign? path item
    let e ← e.lineEnd?
    some (d, e)

/-- The lines from here to the end. -/
def lines? : Nat → Draft → Cursor → Option Draft
  | 0, _, _ => none
  | fuel + 1, d, c =>
    let c := c.skipSpace
    match c.rest with
    | [] => some d
    | '#' :: _ =>
      match c.lineEnd? with
      | none => none
      | some c => lines? fuel d c
    | '\n' :: _ => lines? fuel d (c.skip 1)
    | '\r' :: _ =>
      match c.lineBreak? with
      | none => none
      | some c => lines? fuel d c
    | _ =>
      match line? d c with
      | none => none
      | some (d, c) => lines? fuel d c

/-- The cursor at the beginning of a document, behind a byte order mark if
there is one. -/
def beginning (document : String) : Cursor :=
  let c : Cursor := ⟨0, document.toList⟩
  (c.expect? ['\uFEFF']).getD c

/-- The entries of a document's outermost table, if the document is well
formed. -/
def read? (document : String) : Option Entries := do
  let c := beginning document
  let draft ← lines? (c.rest.length + 1) {} c
  draft.close?

end Toolrun.Toml
