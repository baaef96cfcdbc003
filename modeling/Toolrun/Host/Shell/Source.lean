/-
What is left of a script while it is being read, and what counts as blank in
it: blanks, comments, and line breaks behind a backslash.
-/
import Toolrun.Host.Shell.Command

namespace Toolrun.Host.Shell

/-- What is left of a script, and the number of the line it starts in. -/
structure Source where
  line : Nat
  rest : Letters

/-- Why a script cannot be read any further. -/
structure Fault where
  line : Nat
  message : Letters

namespace Source

/-- The source behind its first letter. -/
def tail (s : Source) : Source :=
  match s.rest with
  | [] => s
  | '\n' :: rest => ⟨s.line + 1, rest⟩
  | _ :: rest => ⟨s.line, rest⟩

/-- The source behind its first letters. -/
def drop (s : Source) (n : Nat) : Source :=
  (List.range n).foldl (fun s _ => s.tail) s

/-- Fuel for going through a source once. -/
def fuel (s : Source) : Nat := s.rest.length + 1

/-- A fault at a place. -/
def fault {α : Type} (s : Source) (message : String) : Except Fault α :=
  .error ⟨s.line, .ofString message⟩

/-- Whether the source begins with some letters. -/
def startsWith (s : Source) (letters : String) : Bool :=
  letters.toList.isPrefixOf s.rest

end Source

/-- Whether a letter ends a word that is not quoted. -/
def endsWord (c : Char) : Bool :=
  [' ', '\t', '\n', ';', '&', '|', '<', '>', '(', ')'].contains c

/-- Skips blanks, joined lines, and a comment. -/
def skipBlanks : Nat → Source → Source
  | 0, s => s
  | n + 1, s =>
    match s.rest with
    | ' ' :: _ => skipBlanks n s.tail
    | '\t' :: _ => skipBlanks n s.tail
    | '\\' :: '\n' :: _ => skipBlanks n (s.drop 2)
    | '#' :: rest => ⟨s.line, rest.dropWhile (· != '\n')⟩
    | _ => s

/-- The source behind blanks. -/
def Source.skip (s : Source) : Source := skipBlanks s.fuel s

/-- Skips blanks and line ends. -/
def skipLines : Nat → Source → Source
  | 0, s => s
  | n + 1, s =>
    let s := s.skip
    match s.rest with
    | '\n' :: _ => skipLines n s.tail
    | _ => s

/-- The source behind blanks and line ends. -/
def Source.skipAll (s : Source) : Source := skipLines s.fuel s

/-- The number written by digits. -/
def numberOf (digits : Letters) : Nat :=
  digits.foldl (fun n c => n * 10 + (c.toNat - '0'.toNat)) 0

end Toolrun.Host.Shell
