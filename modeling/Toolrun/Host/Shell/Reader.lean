/-
Reading shell scripts. A script is read one line of commands at a time, so
that what stands before a fault is still run; the fault then is a command of
its own.

The readers for the inside of parentheses, loops and the like are all one
function, the reader of a list of commands, which the others take as a
parameter; its fuel is the length of the script.
-/
import Toolrun.Host.Shell.SimpleCommand

namespace Toolrun.Host.Shell

/-- The word that stands next, as far as it is written plainly. -/
def nextWord (s : Source) : Letters := s.rest.takeWhile fun c => !endsWord c

/-- Whether a certain word stands next. -/
def isNext (s : Source) (word : String) : Bool := nextWord s = word.toList

/-- Requires a word, which ends a list of commands or continues a compound
command. -/
def expectWord (s : Source) (word : String) : Except Fault Source :=
  let s := s.skipAll
  if isNext s word then .ok (s.drop word.length) else unexpected s (some word)

/-- The words that end a list of commands. -/
def closingWords : List String :=
  ["then", "do", "done", "fi", "else", "elif", "esac", "\x7d"]

/-- Whether a list of commands ends here. -/
def isClosed (s : Source) : Bool :=
  s.rest.isEmpty || s.startsWith ")" || s.startsWith ";;" ||
    closingWords.any (isNext s)

/-- Reads the rest of a branching command, from behind `if` or `elif`. -/
def readBranch (inner : Inner) :
    Nat → Source → Except Fault (Command × Source)
  | 0, s => unexpected s none
  | n + 1, s => do
    let (condition, s) ← inner s
    let (yes, s) ← inner (← expectWord s "then")
    let s := s.skipAll
    if isNext s "elif" then
      let (no, s) ← readBranch inner n (s.drop 4)
      .ok (.branch condition yes no [], s)
    else if isNext s "else" then
      let (no, s) ← inner (s.drop 4)
      .ok (.branch condition yes no [], ← expectWord s "fi")
    else .ok (.branch condition yes .nothing [], ← expectWord s "fi")

/-- Reads words up to the end of a line or a semicolon. -/
def readWords (inner : Inner) : Nat → List Word → Source →
    Except Fault (List Word × Source)
  | 0, got, s => .ok (got.reverse, s)
  | n + 1, got, s =>
    let s := s.skip
    match s.rest with
    | [] => .ok (got.reverse, s)
    | c :: _ =>
      if endsWord c then .ok (got.reverse, s)
      else do
        let (word, s) ← readWord inner s
        readWords inner n (word :: got) s

/-- Skips one semicolon, if there is one, and line ends. -/
def skipSeparator (s : Source) : Source :=
  let s := s.skip
  (if s.startsWith ";" then s.tail else s).skipAll

/-- The word for all arguments. -/
def allArguments : Word := [.parameter .quoted ['@'] .nothing]

/-- Reads the rest of a loop over words, from behind `for`. -/
def readEach (inner : Inner) (s : Source) :
    Except Fault (Command × Source) := do
  let s := s.skip
  let name := nextWord s
  if !isName name then s.fault "Syntax error: Bad for loop variable"
  let s := (s.drop name.length).skipAll
  let (words, s) ←
    if isNext s "in" then readWords inner s.fuel [] (s.drop 2)
    else .ok ([allArguments], s)
  let (body, s) ← inner (← expectWord (skipSeparator s) "do")
  .ok (.each name words body [], ← expectWord s "done")

/-- Reads the patterns of a case, divided by bars. -/
def readPatterns (inner : Inner) :
    Nat → List Word → Source → Except Fault (List Word × Source)
  | 0, _, s => unexpected s none
  | n + 1, got, s => do
    let (word, s) ← readWord inner s.skip
    let s := s.skip
    if s.startsWith "|" then readPatterns inner n (word :: got) s.tail
    else if s.startsWith ")" then .ok ((word :: got).reverse, s.tail)
    else unexpected s (some ")")

/-- Reads the cases of a choice. -/
def readCases (inner : Inner) :
    Nat → List (List Word × Command) → Source →
      Except Fault (List (List Word × Command) × Source)
  | 0, _, s => unexpected s none
  | n + 1, got, s =>
    let s := s.skipAll
    if isNext s "esac" then .ok (got.reverse, s.drop 4)
    else do
      let s := if s.startsWith "(" then s.tail else s
      let (patterns, s) ← readPatterns inner s.fuel [] s
      let (body, s) ← inner s
      let s := s.skipAll
      let s := if s.startsWith ";;" then s.drop 2 else s
      readCases inner n ((patterns, body) :: got) s

/-- Reads the rest of a choice, from behind `case`. -/
def readChoice (inner : Inner) (s : Source) :
    Except Fault (Command × Source) := do
  let (word, s) ← readWord inner s.skip
  let s ← expectWord s "in"
  let (cases, s) ← readCases inner s.fuel [] s
  .ok (.choice word cases [], s)

/-- Puts redirections on a compound command. -/
def withRedirections (c : Command) (rs : List Redirection) : Command :=
  match c with
  | .grouped c _ => .grouped c rs
  | .subshell c _ => .subshell c rs
  | .branch condition yes no _ => .branch condition yes no rs
  | .loop whileTrue condition body _ => .loop whileTrue condition body rs
  | .each name words body _ => .each name words body rs
  | .choice word cases _ => .choice word cases rs
  | c => c

/-- Reads a compound command, if one begins here. -/
def readCompound? (inner : Inner) (s : Source) :
    Option (Except Fault (Command × Source)) :=
  if s.startsWith "(" then some do
    let (c, s) ← inner s.tail
    let s := s.skipAll
    if s.startsWith ")" then .ok (.subshell c [], s.tail)
    else unexpected s (some ")")
  else if isNext s "\x7b" then some do
    let (c, s) ← inner s.tail
    .ok (.grouped c [], ← expectWord s "\x7d")
  else if isNext s "if" then some (readBranch inner s.fuel (s.drop 2))
  else if isNext s "while" || isNext s "until" then some do
    let whileTrue := isNext s "while"
    let (condition, s) ← inner (s.drop 5)
    let (body, s) ← inner (← expectWord s "do")
    .ok (.loop whileTrue condition body [], ← expectWord s "done")
  else if isNext s "for" then some (readEach inner (s.drop 3))
  else if isNext s "case" then some (readChoice inner (s.drop 4))
  else none

/-- The name of the function that is defined here, and the source behind its
parentheses. -/
def definitionAt? (s : Source) : Option (Letters × Source) :=
  let name := nextWord s
  let after := (s.drop name.length).skip
  if isName name && after.startsWith "(" then
    let inside := after.tail.skip
    if inside.startsWith ")" then some (name, inside.tail.skipAll) else none
  else none

/-- Reads the definition of a function, if one begins here. -/
def readDefinition? (inner : Inner) (s : Source) :
    Option (Except Fault (Command × Source)) :=
  match definitionAt? s with
  | none => none
  | some (name, after) =>
    (readCompound? inner after).map fun reading => do
      let (body, s) ← reading
      .ok (.define name body, s)

/-- Reads one command. -/
def readCommand (inner : Inner) (s : Source) :
    Except Fault (Command × Source) :=
  match readCompound? inner s <|> readDefinition? inner s with
  | some reading => do
    let (c, s) ← reading
    let (rs, s) ← readRedirections inner s.fuel [] s
    .ok (withRedirections c rs, s)
  | none => do
    let (d, after) ← readSimple inner s.fuel {} s
    if d.isEmpty || closingWords.any (isNext s) then unexpected s none
    .ok (.simple s.line d.assignments.reverse d.words.reverse
      d.redirections.reverse, after)

/-- Reads the stages of a pipeline. -/
def readStages (inner : Inner) :
    Nat → List Command → Source → Except Fault (List Command × Source)
  | 0, _, s => unexpected s none
  | n + 1, got, s => do
    let (c, s) ← readCommand inner s
    let s := s.skip
    if s.startsWith "|" && !s.startsWith "||" then
      readStages inner n (c :: got) s.tail.skipAll
    else .ok ((c :: got).reverse, s)

/-- Reads a pipeline. -/
def readPipeline (inner : Inner) (s : Source) :
    Except Fault (Command × Source) := do
  let isInverted := isNext s "!"
  let s := if isInverted then s.tail.skip else s
  let (stages, s) ← readStages inner s.fuel [] s
  let c : Command :=
    match stages with
    | [c] => c
    | stages => .pipeline stages
  .ok (if isInverted then .inverted c else c, s)

/-- Reads pipelines joined by `&&` and `||`, behind a first one. -/
def readJoined (inner : Inner) : Nat → Command → Source →
    Except Fault (Command × Source)
  | 0, _, s => unexpected s none
  | n + 1, c, s =>
    if s.startsWith "&&" then do
      let (d, s) ← readPipeline inner (s.drop 2).skipAll
      readJoined inner n (.both c d) s
    else if s.startsWith "||" then do
      let (d, s) ← readPipeline inner (s.drop 2).skipAll
      readJoined inner n (.either c d) s
    else .ok (c, s)

/-- Reads one item of a list of commands, with the sign that ends it. -/
def readItem (inner : Inner) (s : Source) :
    Except Fault (Command × Source) := do
  let (c, s) ← readPipeline inner s
  let (c, s) ← readJoined inner s.fuel c s
  if s.startsWith "&" then .ok (.background c, s.tail)
  else if s.startsWith ";" && !s.startsWith ";;" then .ok (c, s.tail)
  else .ok (c, s)

/-- Adds an item to the commands before it. -/
def appendItem (before : Command) (item : Command) : Command :=
  match before with
  | .nothing => item
  | c => .sequence c item

/-- Reads items up to where a list of commands ends. -/
def readItems (inner : Inner) : Nat → Command → Source →
    Except Fault (Command × Source)
  | 0, _, s => unexpected s none
  | n + 1, before, s =>
    let s := s.skipAll
    if isClosed s then .ok (before, s)
    else do
      let (item, s) ← readItem inner s
      readItems inner n (appendItem before item) s

/-- Reads a list of commands up to the word or sign that closes it. -/
def readList : Nat → Source → Except Fault (Command × Source)
  | 0, s => unexpected s none
  | n + 1, s => readItems (readList n) s.fuel .nothing s

/-- Reads items up to the end of the line. -/
def readLine (inner : Inner) : Nat → Command → Source →
    Except Fault (Command × Source)
  | 0, _, s => unexpected s none
  | n + 1, before, s =>
    let s := s.skip
    match s.rest with
    | [] => .ok (before, s)
    | '\n' :: _ => .ok (before, s)
    | _ => do
      let (item, s) ← readItem inner s
      readLine inner n (appendItem before item) s

/-- Reads a script, line by line. -/
def readLinesFrom : Nat → Source → List Command
  | 0, _ => []
  | n + 1, s =>
    let s := s.skipAll
    if s.rest.isEmpty then []
    else
      match readLine (readList s.fuel) s.fuel .nothing s with
      | .ok (c, s) => c :: readLinesFrom n s
      | .error fault => [.fault fault.line fault.message]

/-- The lines of a script. -/
def readScript (letters : Letters) : List Command :=
  let s : Source := ⟨1, letters⟩
  readLinesFrom s.fuel s

end Toolrun.Host.Shell
