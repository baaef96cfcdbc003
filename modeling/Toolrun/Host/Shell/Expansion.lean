/-
What words come to: parameters are put in, results are split at blanks, and
patterns are replaced by the names they match. The output of a script has to
be there already; it takes the place of the script before a word is expanded.
-/
import Toolrun.Host.Shell.Pattern
import Toolrun.Host.Shell.Arithmetic
import Toolrun.System.Files

namespace Toolrun.Host.Shell

/-- The parameters of a shell. -/
structure Parameters where
  name : Letters
  arguments : List Letters := []
  values : List (Letters × Letters) := []
  exported : List Letters := []
  status : Nat := 0
  processId : Nat := 0
  lastBackground : Option Nat := none

namespace Parameters

/-- A number as letters. -/
def digits (n : Nat) : Letters := Nat.toDigits 10 n

/-- The value of a variable. -/
def lookup? (p : Parameters) (name : Letters) : Option Letters :=
  (p.values.find? fun v => v.1 = name).map (·.2)

/-- Sets a variable. -/
def set (p : Parameters) (name value : Letters) : Parameters :=
  if (p.lookup? name).isSome then
    { p with values :=
        p.values.map fun v => if v.1 = name then (name, value) else v }
  else { p with values := p.values ++ [(name, value)] }

/-- Removes a variable. -/
def unset (p : Parameters) (name : Letters) : Parameters :=
  { p with
    values := p.values.filter fun v => v.1 ≠ name
    exported := p.exported.filter (· ≠ name) }

/-- Arguments with blanks between them. -/
def joined (p : Parameters) : Letters := [' '].intercalate p.arguments

/-- The value of a parameter. -/
def get? (p : Parameters) (name : Letters) : Option Letters :=
  match name with
  | ['?'] => some (digits p.status)
  | ['$'] => some (digits p.processId)
  | ['!'] => p.lastBackground.map digits
  | ['#'] => some (digits p.arguments.length)
  | ['-'] => some []
  | ['*'] => if p.arguments.isEmpty then none else some p.joined
  | ['@'] => if p.arguments.isEmpty then none else some p.joined
  | ['0'] => some p.name
  | c :: _ =>
    if c.isDigit then p.arguments[numberOf name - 1]? else p.lookup? name
  | [] => none

/-- The environment that the shell's children get. -/
def environment (p : Parameters) : List (Letters × Letters) :=
  p.values.filter fun v => p.exported.contains v.1

/-- The value of a parameter as a number. -/
def number (p : Parameters) (name : Letters) : Int :=
  match p.get? name with
  | some ('-' :: digits) => -(numberOf (digits.takeWhile Char.isDigit) : Nat)
  | some digits => (numberOf (digits.takeWhile Char.isDigit) : Nat)
  | none => 0

end Parameters

-- =========================================================== expansion

/-- What a word is made of once everything is put in: text, or the end of one
argument and the beginning of the next. -/
inductive Stretch where
  | text (kind : Kind) (letters : Letters)
  | division

/-- Text that stays one stretch unless it is to be split. -/
def stretch (kind : Kind) (letters : Letters) : List Stretch :=
  [.text kind letters]

/-- All arguments, each in its place. -/
def argumentStretches (kind : Kind) (arguments : List Letters) :
    List Stretch :=
  (arguments.map fun a => [Stretch.text kind a]).intersperse [.division]
    |>.flatten

/-- The marks of a stretch. -/
def Stretch.marks : Stretch → List Mark
  | text kind letters => letters.map fun c => (c, kind == .quoted)
  | division => [(' ', true)]

/-- The letters of some stretches. -/
def lettersOf (stretches : List Stretch) : Letters :=
  (stretches.flatMap Stretch.marks).map (·.1)

mutual

/-- What a part comes to. -/
def expandPart (p : Parameters) : Part → List Stretch
  | .text kind letters => stretch kind letters
  | .output _ _ => []
  | .value kind expression =>
    match Arithmetic.value p.number expression with
    | .ok (.ofNat n) => stretch kind (Parameters.digits n)
    | .ok (.negSucc n) => stretch kind ('-' :: Parameters.digits (n + 1))
    | .error _ => []
  | .parameter kind name change => expandChange p kind name change

/-- What a parameter with a change comes to. -/
def expandChange (p : Parameters) (kind : Kind) (name : Letters) :
    Change → List Stretch
  | .nothing =>
    if name = ['@'] then argumentStretches kind p.arguments
    else if name = ['*'] && kind ≠ .quoted then
      argumentStretches kind p.arguments
    else stretch kind ((p.get? name).getD [])
  | .length =>
    stretch kind (Parameters.digits ((p.get? name).getD []).length)
  | .ifMissing orEmpty word =>
    match p.get? name with
    | some value =>
      if orEmpty && value.isEmpty then expandParts p word
      else stretch kind value
    | none => expandParts p word
  | .assignIfMissing orEmpty word =>
    match p.get? name with
    | some value =>
      if orEmpty && value.isEmpty then expandParts p word
      else stretch kind value
    | none => expandParts p word
  | .refuseIfMissing _ _ => stretch kind ((p.get? name).getD [])
  | .ifPresent orEmpty word =>
    match p.get? name with
    | some value =>
      if orEmpty && value.isEmpty then stretch kind [] else expandParts p word
    | none => stretch kind []
  | .cutFront longest pattern =>
    let marks := (expandParts p pattern).flatMap Stretch.marks
    stretch kind (cutFront longest marks ((p.get? name).getD []))
  | .cutBack longest pattern =>
    let marks := (expandParts p pattern).flatMap Stretch.marks
    stretch kind (cutBack longest marks ((p.get? name).getD []))

/-- What parts come to. -/
def expandParts (p : Parameters) : List Part → List Stretch
  | [] => []
  | part :: parts => expandPart p part ++ expandParts p parts

end

/-- A word as one text, without splitting. -/
def expandText (p : Parameters) (word : Word) : Letters :=
  lettersOf (expandParts p word)

/-- A word as a pattern. -/
def expandPattern (p : Parameters) (word : Word) : List Mark :=
  (expandParts p word).flatMap Stretch.marks

-- ============================================================ splitting

/-- Fields that are complete, the newest first, and the one under way, in
reverse, if there is one. -/
structure Splitting where
  complete : List (List Mark) := []
  current : Option (List Mark) := none

namespace Splitting

/-- Ends the field under way. -/
def close (s : Splitting) : Splitting :=
  match s.current with
  | some marks => ⟨marks.reverse :: s.complete, none⟩
  | none => s

/-- Adds a mark to the field under way, or begins one. -/
def push (s : Splitting) (m : Mark) : Splitting :=
  { s with current := some (m :: s.current.getD []) }

/-- Whether results are split at a letter. -/
def isDivider (c : Char) : Bool := c = ' ' || c = '\t' || c = '\n'

/-- Takes a stretch. Quoted text begins a field even if it is empty. -/
def take (s : Splitting) : Stretch → Splitting
  | .division => s.close
  | .text .result letters =>
    letters.foldl
      (fun s c => if isDivider c then s.close else s.push (c, false)) s
  | .text .written letters => letters.foldl (fun s c => s.push (c, false)) s
  | .text .quoted letters =>
    letters.foldl (fun s c => s.push (c, true))
      { s with current := some (s.current.getD []) }

/-- All fields. -/
def fields (s : Splitting) : List (List Mark) := s.close.complete.reverse

end Splitting

/-- The fields of a word. -/
def fieldsOf (p : Parameters) (word : Word) : List (List Mark) :=
  ((expandParts p word).foldl Splitting.take {}).fields

/-- The names in the current directory that a pattern matches. A name that
begins with a point is only matched by a pattern that does. -/
def namesMatching (files : Files) (cwd : Location) (pattern : List Mark) :
    List Letters :=
  ((files.names cwd).map Letters.ofBytes).filter fun name =>
    isMatch pattern name &&
      (name.head? ≠ some '.' || pattern.head?.map (·.1) = some '.')

/-- The arguments a field stands for. -/
def argumentsOf (files : Files) (cwd : Location) (field : List Mark) :
    List Letters :=
  let plain := field.map (·.1)
  if hasSign field then
    match namesMatching files cwd field with
    | [] => [plain]
    | names => names
  else [plain]

/-- The arguments that words stand for. -/
def expandWords (p : Parameters) (files : Files) (cwd : Location)
    (words : List Word) : List Letters :=
  words.flatMap fun word => (fieldsOf p word).flatMap (argumentsOf files cwd)

-- ====================================================== assignments inside

/-- Sets the variables that words ask to be set if they are missing. -/
def assignMissing (p : Parameters) (words : List Word) : Parameters :=
  words.flatten.foldl
    (fun p part =>
      match part with
      | .parameter _ name (.assignIfMissing orEmpty word) =>
        match p.get? name with
        | some value =>
          if orEmpty && value.isEmpty then p.set name (expandText p word)
          else p
        | none => p.set name (expandText p word)
      | _ => p)
    p

/-- What is to be said about a part that cannot be expanded: a parameter that
is required and missing, or an expression without a value. -/
def partRefusal? (p : Parameters) : Part → Option Letters
  | .parameter _ name (.refuseIfMissing orEmpty word) =>
    let isMissing :=
      match p.get? name with
      | some value => orEmpty && value.isEmpty
      | none => true
    let said := expandText p word
    let usual :=
      if orEmpty then "parameter not set or null" else "parameter not set"
    if isMissing then
      some (name ++ .ofString ": " ++
        if said.isEmpty then .ofString usual else said)
    else none
  | .value _ expression =>
    match Arithmetic.value p.number expression with
    | .ok _ => none
    | .error fault =>
      some (.ofString ("arithmetic expression: " ++ fault.message ++ ": \"") ++
        expression ++ ['"'])
  | _ => none

/-- What is to be said about the first part of some words that cannot be
expanded. -/
def refusal? (p : Parameters) (words : List Word) : Option Letters :=
  words.flatten.findSome? (partRefusal? p)

-- ===================================================== output of scripts

/-- The first script in some parts whose output is needed. -/
def firstScript? (parts : List Part) : Option Command :=
  parts.findSome? fun part =>
    match part with
    | .output _ script => some script
    | _ => none

/-- Puts a text in the place of the first script. -/
def putOutput (text : Letters) : List Part → List Part
  | [] => []
  | .output kind _ :: parts => .text kind text :: parts
  | part :: parts => part :: putOutput text parts

/-- Puts a text in the place of the first script in some words. -/
def putOutputs (text : Letters) : List Word → List Word
  | [] => []
  | word :: words =>
    if (firstScript? word).isSome then putOutput text word :: words
    else word :: putOutputs text words

/-- The first script in the words of a command. -/
def Command.script? : Command → Option Command
  | .simple _ assignments words _ =>
    (words ++ assignments.map (·.2)).findSome? firstScript?
  | .each _ words _ _ => words.findSome? firstScript?
  | .choice word _ _ => firstScript? word
  | _ => none

/-- Puts a text in the place of that script. -/
def Command.withOutput (text : Letters) : Command → Command
  | .simple line assignments words redirections =>
    let isInWords := (words.findSome? firstScript?).isSome
    if isInWords then
      .simple line assignments (putOutputs text words) redirections
    else
      let values := putOutputs text (assignments.map (·.2))
      .simple line ((assignments.map (·.1)).zip values) words redirections
  | .each name words body redirections =>
    .each name (putOutputs text words) body redirections
  | .choice word cases redirections =>
    .choice (putOutput text word) cases redirections
  | c => c

/-- The output of a script as it is put into words: without line ends at its
end, and without NULs. -/
def outputText (bytes : Bytes) : Letters :=
  let letters := (Letters.ofBytes bytes).filter fun c => c.toNat ≠ 0
  (letters.reverse.dropWhile (· == '\n')).reverse

end Toolrun.Host.Shell
