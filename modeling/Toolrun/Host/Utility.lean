/-
The compiled programs of the machine: what they write at once, and what they
then go on doing, which may depend on what they read or on time.
-/
import Toolrun.Host.Start
import Toolrun.Host.Utility.FileName
import Toolrun.Host.Utility.FileTest
import Toolrun.Host.Utility.Filter

namespace Toolrun.Host

-- ================================================================= jobs

/-- Where a program reads from: its input, or a file. -/
inductive Origin where
  | input
  | content (bytes : Bytes)

/-- What a program goes on doing. -/
inductive Job where
  | finish (code : Nat)
  | sleep (wakeAt : Nat)
  | copy (origins : List Origin) (code : Nat)
  | flood (block : Bytes)
  | headBytes (left : Nat)
  | headLines (left : Nat)
  | gather (got : Bytes) (filter : Filter)

/-- A program that has been started: what it writes at once, by descriptor,
what it then does, the files as it leaves them, and what it reads if that is
not its input. -/
structure Begun where
  output : List (Nat × Bytes) := []
  job : Job := .finish 0
  files : Files
  input : Option Bytes := none

-- ================================================================= files

/-- The message of a system error without its number. -/
def reason (e : Errno) : Letters := .ofString e.wording

/-- Output on the error stream. -/
def complaint (letters : Letters) : Nat × Bytes :=
  (2, Letters.toBytes (letters ++ ['\n']))

/-- Output. -/
def said (letters : Letters) : Nat × Bytes := (1, Letters.toBytes letters)

/-- The content of a file that is named by an argument. -/
def contentOf (files : Files) (cwd : Location) (name : Letters) :
    Except Errno Bytes :=
  match files.read cwd (Letters.toBytes name) with
  | .ok bytes => .ok bytes
  | .error (.system errno) => .error errno
  | .error (.other _) => .error .noEntry

/-- Starts `cat`. -/
def startCat (files : Files) (cwd : Location) (program : Letters)
    (arguments : List Letters) : Begun :=
  let names := if arguments.isEmpty then [['-']] else arguments
  let found := names.map fun name =>
    if name = ['-'] then (name, .ok Origin.input)
    else (name, (contentOf files cwd name).map Origin.content)
  let origins := found.filterMap fun f => f.2.toOption
  let complaints := found.filterMap fun f =>
    match f.2 with
    | .ok _ => none
    | .error e =>
      some (complaint (program ++ .ofString ": " ++ shownName f.1 ++
        .ofString ": " ++ reason e))
  { output := complaints
    job := .copy origins (if complaints.isEmpty then 0 else 1)
    files := files }

/-- The names that `ls` shows of a directory. -/
def shownNames (files : Files) (location : Location) (options : Letters) :
    List Letters :=
  let names := (files.names location).map Letters.ofBytes
  if options.contains 'a' then [['.'], ['.', '.']] ++ names
  else if options.contains 'A' then names
  else names.filter fun n => n.head? ≠ some '.'

/-- Starts `ls`. -/
def startLs (files : Files) (cwd : Location) (program : Letters)
    (arguments : List Letters) : Begun :=
  let isOption (a : Letters) : Bool := a.head? = some '-' && 1 < a.length
  let options := (arguments.filter isOption).flatten
  let operands := arguments.filter fun a => !isOption a
  let operands := if operands.isEmpty then [['.']] else operands
  let lines (names : List Letters) : Letters :=
    names.flatMap fun n => n ++ ['\n']
  let results := operands.map fun name =>
    let path := Letters.toBytes name
    match files.find cwd path, files.locate cwd path with
    | .ok .directory, .ok location =>
      let names := lines (shownNames files location options)
      if operands.length = 1 then said names
      else said (name ++ [':', '\n'] ++ names)
    | .ok _, _ => said (name ++ ['\n'])
    | .error e, _ =>
      complaint (program ++ .ofString ": cannot access " ++ quoted name ++
        .ofString ": " ++ reason e)
  let code := if results.any fun r => r.1 = 2 then 2 else 0
  { output := results, job := .finish code, files := files }

/-- Changes the files for each argument, in order. -/
def changeFiles (files : Files) (arguments : List Letters)
    (change : Files → Letters → Except Letters Files) : Begun :=
  let operands := arguments.filter fun a => a.head? ≠ some '-'
  let (files, complaints) := operands.foldl
    (fun (files, complaints) name =>
      match change files name with
      | .ok files => (files, complaints)
      | .error message => (files, complaints ++ [complaint message]))
    (files, [])
  { output := complaints
    job := .finish (if complaints.isEmpty then 0 else 1)
    files := files }

/-- Makes a file that is not there. -/
def touch (cwd : Location) (files : Files) (name : Letters) :
    Except Letters Files :=
  if files.present cwd (Letters.toBytes name) then .ok files
  else
    match files.write cwd (Letters.toBytes name) [] with
    | .ok files => .ok files
    | .error e =>
      .error (.ofString "touch: cannot touch " ++ quoted name ++
        .ofString ": " ++ reason e)

/-- Removes a file. -/
def removeFile (cwd : Location) (force : Bool) (files : Files)
    (name : Letters) : Except Letters Files :=
  let path := Letters.toBytes name
  match files.find cwd path, files.locate cwd path with
  | .ok _, .ok location => .ok (files.remove location)
  | .error e, _ =>
    if force then .ok files
    else
      .error (.ofString "rm: cannot remove " ++ quoted name ++
        .ofString ": " ++ reason e)
  | _, .error _ => .ok files

/-- Makes a directory. -/
def mkdir (cwd : Location) (parents : Bool) (files : Files)
    (name : Letters) : Except Letters Files :=
  let failure (e : Errno) : Letters :=
    .ofString "mkdir: cannot create directory " ++ quoted name ++
      .ofString ": " ++ reason e
  if parents then
    match files.makeDirectories cwd (Letters.toBytes name) with
    | (files, .ok ()) => .ok files
    | (_, .error (.system e)) => .error (failure e)
    | (files, .error _) => .ok files
  else
    match files.makeDirectory cwd (Letters.toBytes name) with
    | .ok files => .ok files
    | .error e => .error (failure e)

-- ============================================================== programs

/-- The microseconds of a time in seconds, which may have decimals and a
unit. -/
def microseconds? (argument : Letters) : Option Nat :=
  let (unit, number) :=
    match argument.getLast? with
    | some 's' => (1, argument.dropLast)
    | some 'm' => (60, argument.dropLast)
    | some 'h' => (3600, argument.dropLast)
    | some 'd' => (86400, argument.dropLast)
    | _ => (1, argument)
  let whole := number.takeWhile (· ≠ '.')
  let decimals := (number.drop (whole.length + 1)).take 6
  if number.isEmpty || !(whole ++ decimals).all Char.isDigit then none
  else
    let padded := decimals ++ List.replicate (6 - decimals.length) '0'
    some ((Shell.numberOf whole * 1000000 + Shell.numberOf padded) * unit)

/-- The hint that follows a complaint about how a program is used. -/
def hint (name : Letters) : Nat × Bytes :=
  complaint (.ofString "Try '" ++ name ++
    .ofString " --help' for more information.")

/-- Starts `sleep`. -/
def startSleep (now : Nat) (files : Files) (name : Letters)
    (arguments : List Letters) : Begun :=
  let refused (message : Letters) : Begun :=
    { output := [complaint (name ++ .ofString ": " ++ message), hint name]
      job := .finish 1
      files := files }
  match arguments.find? fun a => (microseconds? a).isNone with
  | some a =>
    refused (.ofString "invalid time interval '" ++ a ++ ['\''])
  | none =>
    if arguments.isEmpty then refused (.ofString "missing operand")
    else
      let times := arguments.filterMap microseconds?
      { job := .sleep (times.foldl Nat.add now), files := files }

/-- The number behind an option, attached to it or in the next argument, and
the arguments without the two. -/
def optionNumber? (option : Char) (arguments : List Letters) :
    Option (Nat × List Letters) :=
  match arguments with
  | ['-', c] :: number :: others =>
    if c = option then some (Shell.numberOf number, others) else none
  | ('-' :: c :: number) :: others =>
    if c = option && !number.isEmpty then
      some (Shell.numberOf number, others)
    else none
  | _ => none

/-- Starts a program that reads its input, or the file that is named. -/
def startReading (files : Files) (cwd : Location) (job : Job)
    (operands : List Letters) (refusal : Letters → Letters) : Begun :=
  match operands with
  | [] => { job := job, files := files }
  | ['-'] :: _ => { job := job, files := files }
  | name :: _ =>
    match contentOf files cwd name with
    | .ok content => { job := job, files := files, input := some content }
    | .error e =>
      { output := [complaint (refusal name ++ .ofString ": " ++ reason e)]
        job := .finish 1
        files := files }

/-- What `head` and `tail` say of a file that they cannot open. -/
def cannotOpen (program name : Letters) : Letters :=
  program ++ .ofString ": cannot open " ++ quoted name ++
    .ofString " for reading"

/-- Starts `head`. -/
def startHead (files : Files) (cwd : Location) (program : Letters)
    (arguments : List Letters) : Begun :=
  let (job, operands) : Job × List Letters :=
    match optionNumber? 'c' arguments, optionNumber? 'n' arguments with
    | some (n, operands), _ => (.headBytes n, operands)
    | none, some (n, operands) => (.headLines n, operands)
    | none, none =>
      match arguments with
      | ('-' :: n) :: operands =>
        if n.isEmpty then (.headLines 10, arguments)
        else (.headLines (Shell.numberOf n), operands)
      | _ => (.headLines 10, arguments)
  startReading files cwd job operands (cannotOpen program)

/-- Starts `tail`. -/
def startTail (files : Files) (cwd : Location) (program : Letters)
    (arguments : List Letters) : Begun :=
  let (n, operands) := (optionNumber? 'n' arguments).getD (10, arguments)
  startReading files cwd (.gather [] (.lastLines n)) operands
    (cannotOpen program)

/-- Starts `printf`. -/
def startPrintf (files : Files) (name : Letters) (arguments : List Letters) :
    Begun :=
  let operands :=
    match arguments with
    | ['-', '-'] :: others => others
    | arguments => arguments
  match operands with
  | [] =>
    { output :=
        [complaint (name ++ .ofString ": missing operand"), hint name]
      job := .finish 1
      files := files }
  | format :: values =>
    let result := Formatted.format { hexadecimal := true } format values
    let refused (text : Letters) : Nat × Bytes :=
      complaint (name ++ .ofString ": " ++ text ++
        .ofString ": invalid conversion specification")
    let faults := result.faults.map fun fault =>
      match fault with
      | .noNumber a =>
        complaint (name ++ .ofString ": '" ++ a ++
          .ofString "': expected a numeric value")
      | .moreThanNumber a =>
        complaint (name ++ .ofString ": '" ++ a ++
          .ofString "': value not completely converted")
      | .noConversion text => refused text
      | .unfinished text => refused text
    let excess :=
      match result.arguments with
      | [] => []
      | a :: _ =>
        if result.consumed = 0 && !result.written.isOver then
          [complaint (name ++ .ofString
            ": warning: ignoring excess arguments, starting with '" ++ a ++
            ['\''])]
        else []
    { output := faults ++ said result.written.letters :: excess
      job := .finish (if faults.isEmpty then 0 else 1)
      files := files }

/-- The bytes that `yes` writes at once: whole lines, some thousand bytes. -/
def yesBlock (arguments : List Letters) : Bytes :=
  let words := if arguments.isEmpty then [['y']] else arguments
  let line := Letters.toBytes ([' '].intercalate words ++ ['\n'])
  (List.replicate (8192 / line.length + 1) line).flatten

/-- The arguments that are no options. -/
def operandsOf (arguments : List Letters) : List Letters :=
  arguments.filter fun a => a.head? ≠ some '-' || a = ['-']

/-- The arguments that are options. -/
def optionsOf (arguments : List Letters) : List Letters :=
  arguments.filter fun a => a.head? = some '-' && a ≠ ['-']

/-- What most programs say of a file that they cannot open. -/
def named (program name : Letters) : Letters :=
  program ++ .ofString ": " ++ shownName name

/-- Starts `wc`. -/
def startWc (files : Files) (cwd : Location) (program : Letters)
    (arguments : List Letters) : Begun :=
  let options := (optionsOf arguments).flatten
  let operands := operandsOf arguments
  let all := !options.any fun c => "lwcm".toList.contains c
  let filter : Filter :=
    .count (all || options.contains 'l') (all || options.contains 'w')
      (all || options.contains 'c' || options.contains 'm') operands.head?
  startReading files cwd (.gather [] filter) operands (named program)

/-- Starts `od`. -/
def startOd (files : Files) (cwd : Location) (program : Letters)
    (arguments : List Letters) : Begun :=
  let filter : Filter := .dump !(arguments.contains "-An".toList)
  startReading files cwd (.gather [] filter) (operandsOf arguments)
    (named program)

/-- Starts `tr`. -/
def startTr (files : Files) (program : Letters) (arguments : List Letters) :
    Begun :=
  let set (letters : Letters) : List Char :=
    setOfLetters (Formatted.unescape {} letters).letters
  let refused (message : Letters) : Begun :=
    { output := [complaint (program ++ message), hint program]
      job := .finish 1
      files := files }
  match arguments with
  | [['-', 'd'], a] => { job := .gather [] (.drop (set a)), files := files }
  | [a, b] => { job := .gather [] (.replace (set a) (set b)), files := files }
  | [a] =>
    let explained :=
      if a = ['-', 'd'] then []
      else [.ofString " after '" ++ a ++
        .ofString "'\nTwo strings must be given when translating."]
    refused (.ofString ": missing operand" ++ explained.flatten)
  | _ => refused (.ofString ": missing operand")

/-- The numbers that `seq` writes. -/
def sequence (arguments : List Letters) : List Int :=
  let number (a : Letters) : Int := (Formatted.numberOf a).1
  let (first, step, last) :=
    match arguments with
    | [a] => (1, 1, number a)
    | [a, b] => (number a, 1, number b)
    | [a, s, b] => (number a, number s, number b)
    | _ => (1, 1, 0)
  if step = 0 then []
  else
    let count := ((last - first) / step + 1).toNat
    (List.range count).map fun (n : Nat) => first + step * n

/-- A signed number as letters. -/
def integer (n : Int) : Letters := (Numeral.signedDecimal n).toList

/-- Starts `env`. In front of a command that can be started it would not be
running. -/
def startEnv (files : Files) (cwd : Location)
    (environment : List (Bytes × Bytes)) (program : Letters)
    (arguments : List Letters) : Begun :=
  match enterEnv environment (arguments.map Letters.toBytes) with
  | (inner, []) =>
    { output := inner.map fun v => (1, v.1 ++ 0x3D :: v.2 ++ [0x0A])
      files := files }
  | (inner, tool :: others) =>
    let e : Errno :=
      match findCommand files cwd inner tool others with
      | .ok _ => .tooManyLinks
      | .error e => e
    { output := [complaint (program ++ .ofString ": " ++
        quoted (Letters.ofBytes tool) ++ .ofString ": " ++ reason e)]
      job := .finish (if e = .noEntry then 127 else 126)
      files := files }

/-- Starts a compiled program by its name. -/
def startProgram (name : String) (now : Nat) (files : Files) (cwd : Location)
    (environment : List (Bytes × Bytes)) (zeroth : Letters)
    (arguments : List Letters) : Begun :=
  match name with
  | "true" => { files := files }
  | "false" => { job := .finish 1, files := files }
  | "echo" =>
    { output := [said (Formatted.programEcho arguments)], files := files }
  | "printf" => startPrintf files zeroth arguments
  | "cat" => startCat files cwd zeroth arguments
  | "ls" => startLs files cwd zeroth arguments
  | "pwd" =>
    { output := [(1, Files.pathOf cwd ++ [0x0A])], files := files }
  | "sleep" => startSleep now files zeroth arguments
  | "yes" => { job := .flood (yesBlock arguments), files := files }
  | "head" => startHead files cwd zeroth arguments
  | "tail" => startTail files cwd zeroth arguments
  | "od" => startOd files cwd zeroth arguments
  | "tr" => startTr files zeroth arguments
  | "wc" => startWc files cwd zeroth arguments
  | "seq" =>
    { output := [said ((sequence arguments).flatMap fun n =>
        integer n ++ ['\n'])]
      files := files }
  | "env" => startEnv files cwd environment zeroth arguments
  | "test" =>
    { job := .finish (testCode (test files cwd arguments)), files := files }
  | "touch" => changeFiles files arguments (touch cwd)
  | "rm" =>
    let force := arguments.any fun a => a.head? = some '-' && a.contains 'f'
    changeFiles files arguments (removeFile cwd force)
  | "mkdir" =>
    changeFiles files arguments (mkdir cwd (arguments.contains ['-', 'p']))
  | _ => { job := .finish 1, files := files }

/-- The names of the compiled programs. -/
def programNames : List String :=
  ["sh", "dash", "true", "false", "echo", "printf", "cat", "ls", "pwd",
    "sleep", "yes", "head", "tail", "od", "tr", "wc", "seq", "env", "test",
    "touch", "rm", "mkdir"]

end Toolrun.Host
