/-
Reading simple commands: assignments, words and redirections.
-/
import Toolrun.Host.Shell.Word

namespace Toolrun.Host.Shell

/-- The letters of an operator or a word, as shown in messages. -/
def shownToken (s : Source) : Letters :=
  match s.rest with
  | [] => .ofString "end of file"
  | '\n' :: _ => .ofString "newline"
  | letters =>
    let word := letters.takeWhile fun c => !endsWord c
    let shown :=
      if !word.isEmpty then word
      else if s.startsWith ";;" || s.startsWith "&&" || s.startsWith "||" then
        letters.take 2
      else letters.take 1
    '"' :: (shown ++ ['"'])

/-- The fault of a token where another one was wanted. -/
def unexpected {α : Type} (s : Source) (wanted : Option String) :
    Except Fault α :=
  let expecting :=
    match wanted with
    | some w => " (expecting \"" ++ w ++ "\")"
    | none => ""
  .error ⟨s.line, .ofString "Syntax error: " ++ shownToken s ++
    .ofString (" unexpected" ++ expecting)⟩

/-- A redirection at this place, with the descriptor that is written in front
of it: which descriptor it is for, and the width of its operator. -/
def redirectionAt? (s : Source) : Option (Letters × Letters) :=
  let digits := s.rest.takeWhile Char.isDigit
  match s.rest.drop digits.length with
  | '>' :: '>' :: _ => some (digits, ['>', '>'])
  | '>' :: '&' :: _ => some (digits, ['>', '&'])
  | '>' :: '|' :: _ => some (digits, ['>', '|'])
  | '>' :: _ => some (digits, ['>'])
  | '<' :: '&' :: _ => some (digits, ['<', '&'])
  | '<' :: '<' :: _ => none
  | '<' :: _ => some (digits, ['<'])
  | _ => none

/-- Reads a redirection whose operator has been found. -/
def readRedirection (inner : Inner) (s : Source) (digits operator : Letters) :
    Except Fault (Redirection × Source) := do
  let s := (s.drop (digits.length + operator.length)).skip
  let (word, after) ← readWord inner s
  if word.isEmpty then unexpected s none
  let usual := if operator.head? = some '<' then 0 else 1
  let descriptor := if digits.isEmpty then usual else numberOf digits
  let redirection :=
    if operator.getLast? = some '&' then .same descriptor word
    else if usual = 0 then .input descriptor word
    else .output descriptor (operator = ['>', '>']) word
  .ok (redirection, after)

/-- Reads the redirections behind a compound command. -/
def readRedirections (inner : Inner) :
    Nat → List Redirection → Source →
      Except Fault (List Redirection × Source)
  | 0, got, s => .ok (got.reverse, s)
  | n + 1, got, s =>
    let s := s.skip
    match redirectionAt? s with
    | none => .ok (got.reverse, s)
    | some (digits, operator) => do
      let (r, s) ← readRedirection inner s digits operator
      readRedirections inner n (r :: got) s

/-- The assignment that a word is, if it is one. -/
def assignment? (word : Word) : Option (Letters × Word) :=
  match word with
  | .text .written letters :: others =>
    match splitAtFirst '=' letters with
    | some (name, value) =>
      if isName name then
        let value := if value.isEmpty then [] else [.text .written value]
        some (name, value ++ others)
      else none
    | none => none
  | _ => none

/-- What has been read of a simple command, in reverse. -/
structure Draft where
  assignments : List (Letters × Word) := []
  words : List Word := []
  redirections : List Redirection := []

/-- Whether nothing has been read. -/
def Draft.isEmpty (d : Draft) : Bool :=
  d.assignments.isEmpty && d.words.isEmpty && d.redirections.isEmpty

/-- Adds a word. -/
def Draft.add (d : Draft) (word : Word) : Draft :=
  match assignment? word with
  | some pair =>
    if d.words.isEmpty then { d with assignments := pair :: d.assignments }
    else { d with words := word :: d.words }
  | none => { d with words := word :: d.words }

/-- Reads the rest of a simple command. -/
def readSimple (inner : Inner) : Nat → Draft → Source →
    Except Fault (Draft × Source)
  | 0, d, s => .ok (d, s)
  | n + 1, d, s =>
    let s := s.skip
    match redirectionAt? s with
    | some (digits, operator) => do
      let (r, s) ← readRedirection inner s digits operator
      readSimple inner n { d with redirections := r :: d.redirections } s
    | none =>
      match s.rest with
      | [] => .ok (d, s)
      | c :: _ =>
        if endsWord c then .ok (d, s)
        else do
          let (word, s) ← readWord inner s
          readSimple inner n (d.add word) s

end Toolrun.Host.Shell
