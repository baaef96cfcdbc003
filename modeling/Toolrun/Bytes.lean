/-
Byte strings, the currency of everything that crosses the program's edge:
paths, arguments, environment values, and what a tool writes. They are plain
lists, so that a prefix, a concatenation or a cut is the list operation of
that name and nothing else has to be proved about it.
-/

namespace Toolrun

/-- A string of bytes, in order. -/
abbrev Bytes := List UInt8

/-- The path of an input file, as the bytes the system knows it by. -/
abbrev InputPath := Bytes

/-- The pieces of a list between the occurrences of a separator. There is
always one piece more than there are separators, so the pieces joined by the
separator give the list back. -/
def piecesOf {α : Type} [BEq α] (separator : α) (items : List α) :
    List (List α) :=
  items.foldr
    (fun x pieces =>
      if x == separator then [] :: pieces
      else
        match pieces with
        | [] => [[x]]
        | first :: others => (x :: first) :: others)
    [[]]

/-- What stands before the first occurrence of a separator and what stands
after it, or nothing if it does not occur. -/
def splitAtFirst {α : Type} [BEq α] (separator : α) (items : List α) :
    Option (List α × List α) :=
  match items.dropWhile (· != separator) with
  | [] => none
  | _ :: after => some (items.takeWhile (· != separator), after)

end Toolrun
