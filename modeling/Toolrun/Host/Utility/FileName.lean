/-
Names of files in messages. A name that a shell would not read as it is stands
between quotes, so that it can be copied from the message.
-/
import Toolrun.Host.Shell.Command

namespace Toolrun.Host

/-- Whether a letter is shown as it is. -/
def isShown (c : Char) : Bool := ' ' ≤ c && c ≤ '~'

/-- Whether a letter means something to a shell. -/
def isSpecial (c : Char) : Bool := " !\"$&'()*;<=>?[\\^\x60|:".toList.contains c

/-- Whether a letter can stand between double quotes without a meaning. -/
def isHarmless (c : Char) : Bool :=
  c.isAlphanum || " '%+,-./:]_".toList.contains c

/-- Whether a name has to be quoted in a message. -/
def needsQuotes (name : Letters) : Bool :=
  match name with
  | [] => true
  | ['{'] => true
  | ['}'] => true
  | c :: _ =>
    c = '#' || c = '~' || name.any fun c => isSpecial c || !isShown c

/-- A letter that is not shown, by its escape. -/
def hidden (c : Char) : Letters :=
  match c with
  | '\x07' => ['\\', 'a']
  | '\x08' => ['\\', 'b']
  | '\t' => ['\\', 't']
  | '\n' => ['\\', 'n']
  | '\x0b' => ['\\', 'v']
  | '\x0c' => ['\\', 'f']
  | '\r' => ['\\', 'r']
  | c =>
    let digits := Nat.toDigits 8 c.toNat
    '\\' :: List.replicate (3 - digits.length) '0' ++ digits

/-- A name between quotes, such that a shell would read it as it is. Letters
that are not shown have quotes of their own, which `isAside` says are open. -/
def quotedFrom (isAside : Bool) : Letters → Letters
  | [] => ['\'']
  | '\'' :: rest => "'\\''".toList ++ quotedFrom false rest
  | c :: rest =>
    if isShown c then
      (if isAside then "''".toList else []) ++ c :: quotedFrom false rest
    else
      (if isAside then [] else "'$'".toList) ++ hidden c ++
        quotedFrom true rest

/-- A name between quotes. -/
def quoted (name : Letters) : Letters :=
  if name.contains '\'' && name.all isHarmless then '"' :: name ++ ['"']
  else '\'' :: quotedFrom false name

/-- A name as a message shows it. -/
def shownName (name : Letters) : Letters :=
  if needsQuotes name then quoted name else name

end Toolrun.Host
