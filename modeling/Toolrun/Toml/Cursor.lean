/-
A place in a configuration document: what is still unread, and how many bytes
lie before it. Values remember the stretch they were written in, so that one
of the wrong type can be pointed at.
-/

namespace Toolrun.Toml

/-- A stretch of a document, in bytes from its beginning. -/
structure Span where
  start : Nat
  stop : Nat
  deriving DecidableEq, Repr

/-- The unread part of a document and the number of bytes before it. -/
structure Cursor where
  pos : Nat
  rest : List Char
  deriving DecidableEq, Repr

/-- The number of bytes a list of characters takes in UTF-8. -/
def width (cs : List Char) : Nat := cs.foldl (fun n c => n + c.utf8Size) 0

namespace Cursor

/-- The cursor some characters further on. -/
def skip (c : Cursor) (count : Nat) : Cursor :=
  ⟨c.pos + width (c.rest.take count), c.rest.drop count⟩

/-- The cursor behind the characters that satisfy a test. -/
def skipWhile (c : Cursor) (test : Char → Bool) : Cursor :=
  ⟨c.pos + width (c.rest.takeWhile test), c.rest.dropWhile test⟩

/-- The cursor behind some characters, if they stand there. -/
def expect? (c : Cursor) (cs : List Char) : Option Cursor :=
  if cs.isPrefixOf c.rest then some (c.skip cs.length) else none

/-- The stretch from one cursor to another. -/
def spanTo (c d : Cursor) : Span := ⟨c.pos, d.pos⟩

end Cursor

-- =============================================== blanks, comments, breaks

/-- White space within a line. -/
def isSpace (c : Char) : Bool := c == ' ' || c == '\t'

/-- A character that may stand in a comment. -/
def isCommentChar (c : Char) : Bool :=
  c == '\t' || (' ' ≤ c && c ≤ '~') || 0x80 ≤ c.toNat

namespace Cursor

/-- The cursor behind white space. -/
def skipSpace (c : Cursor) : Cursor := c.skipWhile isSpace

/-- The cursor behind a line break: a line feed, or a carriage return and a
line feed. -/
def lineBreak? (c : Cursor) : Option Cursor :=
  match c.rest with
  | '\n' :: _ => some (c.skip 1)
  | '\r' :: '\n' :: _ => some (c.skip 2)
  | _ => none

/-- The cursor behind a comment, if one begins here. -/
def skipComment (c : Cursor) : Cursor :=
  match c.rest with
  | '#' :: _ => (c.skip 1).skipWhile isCommentChar
  | _ => c

/-- The cursor behind what may end a line: white space, a comment, and a line
break unless the document ends. -/
def lineEnd? (c : Cursor) : Option Cursor :=
  let c := c.skipSpace.skipComment
  if c.rest.isEmpty then some c else c.lineBreak?

/-- The cursor behind white space, line breaks, and comments with the line
breaks that end them. -/
def skipLines : Nat → Cursor → Cursor
  | 0, c => c
  | fuel + 1, c =>
    let d := c.skipSpace.skipComment
    match d.lineBreak? with
    | some e => skipLines fuel e
    | none => c.skipSpace

end Cursor

end Toolrun.Toml
