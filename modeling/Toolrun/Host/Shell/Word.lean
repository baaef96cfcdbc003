/-
Reading the words of a script: letters as they are, quotes, and what stands
behind a dollar sign or between back quotes.
-/
import Toolrun.Host.Shell.Source

namespace Toolrun.Host.Shell

/-- The letters that names of parameters consist of. -/
def isNameLetter (c : Char) : Bool := c.isAlphanum || c == '_'

/-- Whether letters are the name of a variable. -/
def isName (letters : Letters) : Bool :=
  match letters with
  | [] => false
  | c :: _ => !c.isDigit && letters.all isNameLetter

/-- The names of the parameters that are no variables. -/
def isSpecial (c : Char) : Bool := "@*#?$!-".toList.contains c

/-- What a stretch of a word is enclosed in. -/
inductive Enclosure where
  | nothing
  | quotes
  | braces (kind : Kind)
  deriving DecidableEq

/-- The kind of text inside an enclosure. -/
def Enclosure.kind : Enclosure → Kind
  | nothing => .written
  | quotes => .quoted
  | braces kind => kind

/-- The kind of what is expanded inside an enclosure. -/
def Enclosure.resultKind (e : Enclosure) : Kind :=
  if e.kind = .quoted then .quoted else .result

/-- Adds text to parts, which are kept in reverse. -/
def addText (kind : Kind) (letters : Letters) (parts : List Part) :
    List Part :=
  match parts with
  | .text last before :: others =>
    if last = kind then .text kind (before ++ letters) :: others
    else .text kind letters :: parts
  | _ => .text kind letters :: parts

/-- The letters up to a backquote, with its escapes taken away, and what is
behind it. -/
def upToBackquote : Letters → Letters → Option (Letters × Letters)
  | _, [] => none
  | got, '\x60' :: rest => some (got.reverse, rest)
  | got, '\\' :: c :: rest =>
    if c = '\x60' || c = '\\' || c = '$' then upToBackquote (c :: got) rest
    else upToBackquote (c :: '\\' :: got) rest
  | got, c :: rest => upToBackquote (c :: got) rest

/-- The letters of an expression up to its two closing parentheses, and what
is behind them. -/
def upToClosing : Nat → Letters → Letters → Option (Letters × Letters)
  | _, _, [] => none
  | 0, got, ')' :: ')' :: rest => some (got.reverse, rest)
  | depth, got, '(' :: rest => upToClosing (depth + 1) ('(' :: got) rest
  | depth, got, ')' :: rest => upToClosing (depth - 1) (')' :: got) rest
  | depth, got, c :: rest => upToClosing depth (c :: got) rest

/-- A reader of a list of commands. -/
abbrev Inner := Source → Except Fault (Command × Source)

/-- The name of a parameter at the beginning of some letters. -/
def parameterName? (letters : Letters) : Option Letters :=
  match letters with
  | [] => none
  | c :: _ =>
    if c.isDigit || isSpecial c then some [c]
    else if isNameLetter c then some (letters.takeWhile isNameLetter)
    else none

/-- The name of a parameter between braces, which may have many digits. -/
def bracedName? (letters : Letters) : Option Letters :=
  match letters with
  | c :: _ =>
    if c.isDigit then some (letters.takeWhile Char.isDigit)
    else parameterName? letters
  | [] => none

/-- The change that letters behind the name of a parameter ask for, given the
word they come with, and how many letters they are. -/
def changeFor? (letters : Letters) : Option (Nat × (Word → Change)) :=
  match letters with
  | ':' :: '-' :: _ => some (2, .ifMissing true)
  | ':' :: '=' :: _ => some (2, .assignIfMissing true)
  | ':' :: '?' :: _ => some (2, .refuseIfMissing true)
  | ':' :: '+' :: _ => some (2, .ifPresent true)
  | '-' :: _ => some (1, .ifMissing false)
  | '=' :: _ => some (1, .assignIfMissing false)
  | '?' :: _ => some (1, .refuseIfMissing false)
  | '+' :: _ => some (1, .ifPresent false)
  | '#' :: '#' :: _ => some (2, .cutFront true)
  | '#' :: _ => some (1, .cutFront false)
  | '%' :: '%' :: _ => some (2, .cutBack true)
  | '%' :: _ => some (1, .cutBack false)
  | _ => none

mutual

/-- Reads the parts of a word, which are collected in reverse. -/
def readParts (inner : Inner) :
    Nat → Enclosure → List Part → Source → Except Fault (Word × Source)
  | 0, _, _, s => s.fault "Syntax error: Unterminated quoted string"
  | n + 1, e, parts, s =>
    match s.rest with
    | [] =>
      match e with
      | .nothing => .ok (parts.reverse, s)
      | .quotes => s.fault "Syntax error: Unterminated quoted string"
      | .braces _ => s.fault "Syntax error: Missing '\x7d'"
    | c :: rest =>
      if e = .nothing && endsWord c then .ok (parts.reverse, s)
      else if e = .quotes && c = '"' then .ok (parts.reverse, s.tail)
      else if e ≠ .nothing && e ≠ .quotes && c = '\x7d' then
        .ok (parts.reverse, s.tail)
      else if c = '\'' && e.kind ≠ .quoted then
        if rest.contains '\'' then
          let inside := rest.takeWhile (· != '\'')
          readParts inner n e (addText .quoted inside parts)
            (s.drop (inside.length + 2))
        else s.fault "Syntax error: Unterminated quoted string"
      else if c = '"' then do
        let (quoted, s) ← readParts inner n .quotes [] s.tail
        let quoted := if quoted.isEmpty then [.text .quoted []] else quoted
        readParts inner n e (quoted.reverse ++ parts) s
      else if c = '\\' then
        match rest with
        | [] => readParts inner n e (addText .quoted ['\\'] parts) s.tail
        | '\n' :: _ => readParts inner n e parts (s.drop 2)
        | d :: _ =>
          let escapes := e.kind ≠ .quoted || "$\x60\"\\\x7d".toList.contains d
          let text := if escapes then [d] else ['\\', d]
          readParts inner n e (addText .quoted text parts) (s.drop 2)
      else if c = '$' then do
        let (part, s) ← readDollar inner n e.resultKind s.tail
        readParts inner n e (part :: parts) s
      else if c = '\x60' then
        match upToBackquote [] rest with
        | none => s.fault "Syntax error: EOF in backquote substitution"
        | some (script, after) => do
          let (command, _) ← inner ⟨s.line, script⟩
          readParts inner n e (.output e.resultKind command :: parts)
            ⟨s.line, after⟩
      else readParts inner n e (addText e.kind [c] parts) s.tail

/-- Reads what stands behind a dollar sign. -/
def readDollar (inner : Inner) : Nat → Kind → Source →
    Except Fault (Part × Source)
  | 0, _, s => s.fault "Syntax error: Bad substitution"
  | n + 1, kind, s =>
    match s.rest with
    | '(' :: '(' :: rest =>
      match upToClosing 0 [] rest with
      | some (expression, after) =>
        .ok (.value kind expression, ⟨s.line, after⟩)
      | none => s.fault "Syntax error: Missing '))'"
    | '(' :: _ => do
      let (command, s) ← inner s.tail
      let s := s.skipAll
      match s.rest with
      | ')' :: _ => .ok (.output kind command, s.tail)
      | _ => s.fault "Syntax error: end of file unexpected (expecting \")\")"
    | '\x7b' :: '#' :: rest =>
      match bracedName? rest with
      | some name =>
        if (rest.drop name.length).head? = some '\x7d' then
          .ok (.parameter kind name .length, s.drop (name.length + 3))
        else .ok (.parameter kind ['#'] .nothing, s.drop 3)
      | none => .ok (.parameter kind ['#'] .nothing, s.drop 3)
    | '\x7b' :: rest =>
      match bracedName? rest with
      | none => s.fault "Bad substitution"
      | some name =>
        let s := s.drop (name.length + 1)
        if s.rest.head? = some '\x7d' then
          .ok (.parameter kind name .nothing, s.tail)
        else
          match changeFor? s.rest with
          | none =>
            s.fault (if s.rest.isEmpty then "Syntax error: Missing '\x7d'"
              else "Bad substitution")
          | some (width, change) => do
            let (word, s) ← readParts inner n (.braces kind) [] (s.drop width)
            .ok (.parameter kind name (change word), s)
    | letters =>
      match parameterName? letters with
      | some name => .ok (.parameter kind name .nothing, s.drop name.length)
      | none => .ok (.text kind ['$'], s)

end

/-- Reads a word. -/
def readWord (inner : Inner) (s : Source) : Except Fault (Word × Source) :=
  readParts inner s.fuel .nothing [] s

end Toolrun.Host.Shell
