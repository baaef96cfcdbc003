/-
Change-sets: the documents that name the files a tool is to look at.

A document whose first character that is not white space is `[` is a JSON
list; its items are paths, or objects with exactly one member `path`. Any
other document names one path a line, with blank lines and lines that start
with `#` left out. Either way the order is the document's, and a path named
twice stays there twice.
-/
import Toolrun.Json.Reader
import Toolrun.Json.Printer
import Toolrun.Text.Blank

namespace Toolrun

namespace ChangeSet

-- ===================================================== JSON documents

/-- The name of the member that holds a path. -/
def pathMember : Bytes := Utf8.encode "path"

/-- The path an item stands for. -/
def inputPath? : Json → Option InputPath
  | .string path => some path
  | .object members =>
    match Json.valuesOf pathMember members with
    | [.string path] => some path
    | _ => none
  | _ => none

/-- What is unread once the reader has tried to close the list behind an
item: white space, then the bracket, or a comma and the white space behind
it. -/
def afterItem (rest : Bytes) : Bytes :=
  match Json.Reader.skipSpace rest with
  | [] => []
  | b :: after =>
    if b = 0x5D then after
    else if b = 0x2C then Json.Reader.skipSpace after
    else b :: after

/-- An item of a JSON change-set. It is read in full before it is judged, so
that a fault inside it comes first. -/
def item (fuel : Nat) (rest : Bytes) :
    Except Json.Fault (InputPath × Bytes) := do
  let (v, rest) ← Json.Reader.value fuel (Json.depthLimit - 1) rest
  match inputPath? v with
  | some path => .ok (path, rest)
  | none => .error (.before .noInputPath (afterItem rest))

/-- The paths of a JSON change-set, from behind the opening bracket of its
list. -/
def readItems (rest : Bytes) : Except Json.Fault (List InputPath) := do
  let fuel := Json.fuelFor rest
  let (paths, rest) ←
    Json.Reader.items Json.Reader.listBrackets (item fuel) fuel rest
  Json.Reader.expectEnd rest
  .ok paths

/-- The paths of a JSON change-set, which starts with `[`. -/
def readJson (text : Bytes) : Except Json.Fault (List InputPath) :=
  readItems (text.drop 1)

-- ==================================================== plain documents

/-- Whether a trimmed line names a path. -/
def namesPath : List Char → Bool
  | [] => false
  | c :: _ => c != '#'

/-- The paths of a plain change-set. Trimming a line also takes away the
carriage return that may end it. -/
def readPlain (text : List Char) : List InputPath :=
  (((piecesOf '\n' text).map Text.trimChars).filter namesPath).map
    Utf8.encodeChars

-- ======================================================= all documents

/-- The paths of a change-set, or what is wrong with it: only a JSON document
can be at fault, and its places count from its first character that is not
white space. -/
def read (document : String) : Except String (List InputPath) :=
  match Text.trimStartChars document.toList with
  | '[' :: others =>
    let text := Utf8.encodeChars ('[' :: others)
    match readJson text with
    | .ok paths => .ok paths
    | .error fault => .error (fault.message text)
  | _ => .ok (readPlain document.toList)

/-- A single entry written as JSON: the path, or why the text is no entry. A
text that is JSON but no entry is refused without a place. -/
def readEntry (document : String) : Except String InputPath :=
  let text := Utf8.encode document
  match Json.Reader.value (Json.fuelFor text) Json.depthLimit text with
  | .error fault => .error (fault.message text)
  | .ok (v, rest) =>
    match inputPath? v with
    | none => .error Json.Cause.noInputPath.message
    | some path =>
      match Json.Reader.expectEnd rest with
      | .error fault => .error (fault.message text)
      | .ok () => .ok path

/-- A path as an entry of a JSON change-set. -/
def renderEntry (path : InputPath) : Bytes :=
  Json.render (.object [(pathMember, .string path)])

end ChangeSet

end Toolrun
