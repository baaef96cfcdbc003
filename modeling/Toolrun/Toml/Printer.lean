/-
Writing configuration documents. A text is written in the plainest of four
forms that can hold it: between single or triple quotes, with or without
escapes. The form is chosen from the text as a whole; an escape is then only
written where that form needs one.
-/
import Toolrun.Text.Numeral

namespace Toolrun.Toml

-- ================================================================ texts

/-- Whether a character can only be written as an escape. -/
def isHidden (c : Char) : Bool :=
  (c.toNat < 0x20 && c != '\t' && c != '\n') || c == '\x7f'

/-- The length of the longest unbroken run of a character. -/
def longestRun (q : Char) (cs : List Char) : Nat :=
  (cs.foldl
    (fun (run : Nat × Nat) c =>
      if c = q then (run.1 + 1, max run.2 (run.1 + 1)) else (0, run.2))
    (0, 0)).2

/-- The forms in which a text is written. Those between triple quotes may
hold line breaks; the literal ones have no escapes. -/
inductive TextForm where
  | basic
  | literal
  | basicLines
  | literalLines
  deriving DecidableEq, Repr

/-- The form for a text: the first that can hold it without an escape other
than for a tab, or else one with escapes. -/
def TextForm.of (cs : List Char) : TextForm :=
  let hidden := cs.any isHidden
  let hasBackslash := cs.contains '\\'
  let hasBreak := cs.contains '\n'
  let doubles := longestRun '"' cs
  let singles := longestRun '\'' cs
  if !hidden && !hasBackslash && doubles = 0 && !hasBreak then .basic
  else if !hidden && singles = 0 && !hasBreak then .literal
  else if !hidden && !hasBackslash && doubles ≤ 2 then .basicLines
  else if !hidden && singles ≤ 2 then .literalLines
  else if hasBreak then .basicLines
  else .basic

/-- A hexadecimal digit. -/
def hexDigit (n : Nat) : Char :=
  if n < 10 then Char.ofNat (0x30 + n) else Char.ofNat (0x37 + n)

/-- A character that is neither a quote nor a line break, where escapes are
read. -/
def escape (c : Char) : List Char :=
  match c with
  | '\x08' => ['\\', 'b']
  | '\t' => ['\\', 't']
  | '\x0c' => ['\\', 'f']
  | '\r' => ['\\', 'r']
  | '\\' => ['\\', '\\']
  | c =>
    if isHidden c then
      ['\\', 'u', '0', '0', hexDigit (c.toNat / 16), hexDigit (c.toNat % 16)]
    else [c]

/-- The inside of a text between double quotes. -/
def basicInside : List Char → List Char
  | [] => []
  | '"' :: cs => '\\' :: '"' :: basicInside cs
  | '\n' :: cs => '\\' :: 'n' :: basicInside cs
  | c :: cs => escape c ++ basicInside cs

/-- The inside of a text between triple double quotes, behind a number of
quotes: only the third in a row has to be escaped. -/
def basicLinesInside : Nat → List Char → List Char
  | _, [] => []
  | quotes, '"' :: cs =>
    if quotes = 2 then '\\' :: '"' :: basicLinesInside 0 cs
    else '"' :: basicLinesInside (quotes + 1) cs
  | _, '\n' :: cs => '\n' :: basicLinesInside 0 cs
  | _, c :: cs => escape c ++ basicLinesInside 0 cs

/-- A line break behind opening triple quotes is not part of the text, so one
is put there before a text with line breaks. -/
def openingBreak (cs : List Char) : List Char :=
  if cs.contains '\n' then ['\n'] else []

/-- A text in a given form. -/
def TextForm.write (cs : List Char) : TextForm → List Char
  | .basic => '"' :: (basicInside cs ++ ['"'])
  | .literal => '\'' :: (cs ++ ['\''])
  | .basicLines =>
    '"' :: '"' :: '"' ::
      (openingBreak cs ++ basicLinesInside 0 cs ++ ['"', '"', '"'])
  | .literalLines =>
    '\'' :: '\'' :: '\'' :: (openingBreak cs ++ cs ++ ['\'', '\'', '\''])

/-- A text as a value. -/
def writeText (cs : List Char) : List Char := (TextForm.of cs).write cs

-- ================================================================= keys

/-- The characters of a key that needs no quotes. -/
def isBare (c : Char) : Bool :=
  c.isAlphanum || c == '_' || c == '-'

/-- A key. Without quotes if it can be, else between the quotes that need no
escape for a quote or backslash, if there are such. -/
def writeKey (cs : List Char) : List Char :=
  let hidden := cs.any fun c => isHidden c || c == '\n'
  if !cs.isEmpty && cs.all isBare then cs
  else if !hidden && !cs.contains '\\' && !cs.contains '"' then
    TextForm.basic.write cs
  else if !hidden && !cs.contains '\'' then TextForm.literal.write cs
  else TextForm.basic.write cs

-- ============================================================ documents

/-- The values that get written. -/
inductive Written where
  | text (s : String)
  | count (n : Nat)
  | boolean (b : Bool)
  deriving DecidableEq, Repr

/-- A value. -/
def Written.chars : Written → List Char
  | text s => writeText s.toList
  | count n => Nat.toDigits 10 n
  | boolean true => ['t', 'r', 'u', 'e']
  | boolean false => ['f', 'a', 'l', 's', 'e']

/-- An assignment on a line of its own. -/
def writeAssignment (name : String) (value : Written) : List Char :=
  writeKey name.toList ++ [' ', '=', ' '] ++ value.chars ++ ['\n']

/-- A table under a header. -/
def writeTable (path : List String) (members : List (String × Written)) :
    List Char :=
  '[' :: ((path.map fun part => writeKey part.toList).intersperse ['.']).flatten
    ++ [']', '\n'] ++ members.flatMap fun m => writeAssignment m.1 m.2

/-- Tables with an empty line between any two. -/
def writeDocument (tables : List (List String × List (String × Written))) :
    List Char :=
  ((tables.map fun t => writeTable t.1 t.2).intersperse ['\n']).flatten

/-- The largest whole number that a document can hold. -/
def largestInteger : Nat := 9223372036854775807

end Toolrun.Toml
