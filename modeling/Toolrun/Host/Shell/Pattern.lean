/-
Patterns: a star for any letters, a question mark for one letter, brackets
for one of some letters. A quoted letter stands for itself.
-/
import Toolrun.Host.Shell.Command

namespace Toolrun.Host.Shell

/-- A letter, and whether it is quoted. -/
abbrev Mark := Char × Bool

/-- Whether a mark is a certain sign of the pattern language. -/
def isSign (m : Mark) (c : Char) : Bool := m.1 = c && !m.2

/-- Whether there is a sign of the pattern language among some marks. -/
def hasSign (marks : List Mark) : Bool :=
  marks.any fun m => isSign m '*' || isSign m '?' || isSign m '['

/-- Whether a letter is one of a set, in which two letters with a dash
between them stand for a range. -/
def isAmong (c : Char) : List Char → Bool
  | a :: '-' :: b :: rest => (a ≤ c && c ≤ b) || isAmong c rest
  | a :: rest => a = c || isAmong c rest
  | [] => false

/-- The set that begins behind a bracket, whether it is inverted, and the
pattern behind it. -/
def setOf? (marks : List Mark) : Option (Bool × List Char × List Mark) :=
  let (inverted, marks) :=
    match marks with
    | m :: rest => if isSign m '!' then (true, rest) else (false, marks)
    | [] => (false, marks)
  let inside := marks.takeWhile fun m => !isSign m ']'
  if inside.length = marks.length then none
  else some (inverted, inside.map (·.1), marks.drop (inside.length + 1))

/-- Whether letters match a pattern. The fuel is the length of both. -/
def matchesWithin : Nat → List Mark → Letters → Bool
  | 0, _, _ => false
  | _ + 1, [], letters => letters.isEmpty
  | n + 1, m :: pattern, letters =>
    if isSign m '*' then
      matchesWithin n pattern letters ||
        match letters with
        | [] => false
        | _ :: rest => matchesWithin n (m :: pattern) rest
    else
      match letters with
      | [] => false
      | c :: rest =>
        if isSign m '?' then matchesWithin n pattern rest
        else if isSign m '[' then
          match setOf? pattern with
          | some (inverted, set, behind) =>
            (isAmong c set != inverted) && matchesWithin n behind rest
          | none => c = '[' && matchesWithin n pattern rest
        else m.1 = c && matchesWithin n pattern rest

/-- Whether letters match a pattern. -/
def isMatch (pattern : List Mark) (letters : Letters) : Bool :=
  matchesWithin (pattern.length + letters.length + 1) pattern letters

/-- The letters without a beginning that matches a pattern: the shortest or
the longest there is. -/
def cutFront (longest : Bool) (pattern : List Mark) (letters : Letters) :
    Letters :=
  let lengths := List.range (letters.length + 1)
  let lengths := if longest then lengths.reverse else lengths
  match lengths.find? fun n => isMatch pattern (letters.take n) with
  | some n => letters.drop n
  | none => letters

/-- The letters without an end that matches a pattern. -/
def cutBack (longest : Bool) (pattern : List Mark) (letters : Letters) :
    Letters :=
  let lengths := List.range (letters.length + 1)
  let lengths := if longest then lengths else lengths.reverse
  match lengths.find? fun n => isMatch pattern (letters.drop n) with
  | some n => letters.take n
  | none => letters

end Toolrun.Host.Shell
