/-
Shell scripts as trees. The text of a script is handled byte by byte, with
each byte shown as the character of the same number, so that a script may
hold anything that a file or an argument can hold.
-/
import Toolrun.Bytes

namespace Toolrun.Host

/-- Bytes, each shown as the character of the same number. -/
abbrev Letters := List Char

namespace Letters

/-- The letters of some bytes. -/
def ofBytes (bytes : Bytes) : Letters :=
  bytes.map fun b => Char.ofNat b.toNat

/-- The bytes of some letters. -/
def toBytes (letters : Letters) : Bytes :=
  letters.map fun c => UInt8.ofNat c.toNat

/-- A text as letters, if it is ASCII. -/
def ofString (s : String) : Letters := s.toList

end Letters

namespace Shell

/-- How a stretch of a word came about. What is quoted is never a pattern, and
only the result of an expansion is split at blanks. -/
inductive Kind where
  | written
  | quoted
  | result
  deriving DecidableEq, Repr

mutual

/-- A part of a word: text, a parameter, or the output of a script or the
value of an expression, each with the kind of the text it becomes. -/
inductive Part where
  | text (kind : Kind) (letters : Letters)
  | parameter (kind : Kind) (name : Letters) (change : Change)
  | output (kind : Kind) (script : Command)
  | value (kind : Kind) (expression : Letters)

/-- What is made of the value of a parameter. What stands in for a value does
so if the parameter is not set, and with `orEmpty` also if it is empty. -/
inductive Change where
  | nothing
  | length
  | ifMissing (orEmpty : Bool) (word : List Part)
  | assignIfMissing (orEmpty : Bool) (word : List Part)
  | refuseIfMissing (orEmpty : Bool) (word : List Part)
  | ifPresent (orEmpty : Bool) (word : List Part)
  | cutFront (longest : Bool) (pattern : List Part)
  | cutBack (longest : Bool) (pattern : List Part)

/-- A redirection of a descriptor: to a file, or to where another descriptor
leads. -/
inductive Redirection where
  | input (descriptor : Nat) (file : List Part)
  | output (descriptor : Nat) (append : Bool) (file : List Part)
  | same (descriptor : Nat) (source : List Part)

/-- A command, or several put together. A fault stands where the script
cannot be read any further. -/
inductive Command where
  | nothing
  | simple (line : Nat) (assignments : List (Letters × List Part))
      (words : List (List Part)) (redirections : List Redirection)
  | pipeline (stages : List Command)
  | inverted (command : Command)
  | sequence (first second : Command)
  | both (first second : Command)
  | either (first second : Command)
  | background (command : Command)
  | grouped (command : Command) (redirections : List Redirection)
  | subshell (command : Command) (redirections : List Redirection)
  | branch (condition yes no : Command) (redirections : List Redirection)
  | loop (whileTrue : Bool) (condition body : Command)
      (redirections : List Redirection)
  | each (name : Letters) (words : List (List Part)) (body : Command)
      (redirections : List Redirection)
  | choice (word : List Part) (cases : List (List (List Part) × Command))
      (redirections : List Redirection)
  | define (name : Letters) (body : Command)
  | fault (line : Nat) (message : Letters)

end

/-- A word of a script. -/
abbrev Word := List Part

/-- The command that does nothing. -/
instance : Inhabited Command := ⟨.nothing⟩

end Shell

end Toolrun.Host
