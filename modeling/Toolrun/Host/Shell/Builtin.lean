/-
The commands that a shell carries out itself.
-/
import Toolrun.Host.Shell.Child

namespace Toolrun.Host

namespace Machine

open Shell (Parameters)

-- =============================================================== built in

/-- The names of the commands that a shell carries out itself. -/
def builtinNames : List String :=
  [":", "true", "false", "echo", "printf", "exit", "exec", "cd", "pwd",
    "test", "[", "export", "unset", "set", "shift", "trap", "wait", "kill",
    "read", "break", "continue", "eval", "return"]

/-- The names of those that end a shell if they fail. -/
def specialNames : List String :=
  [":", "exit", "exec", "export", "unset", "set", "shift", "trap", "break",
    "continue", "eval", "return"]

/-- The numbers of signals by name. -/
def signalNames : List (String × Nat) :=
  [("EXIT", 0), ("HUP", 1), ("INT", 2), ("QUIT", 3), ("ABRT", 6), ("KILL", 9),
    ("USR1", 10), ("SEGV", 11), ("USR2", 12), ("PIPE", 13), ("ALRM", 14),
    ("TERM", 15), ("CHLD", 17), ("CONT", 18)]

/-- The number of a signal, given by name or number. -/
def signalNumber? (letters : Letters) : Option Nat :=
  if !letters.isEmpty && letters.all Char.isDigit then
    some (Shell.numberOf letters)
  else
    (signalNames.find? fun n =>
      n.1.toList = letters || "SIG".toList ++ n.1.toList = letters).map (·.2)

/-- Whether a work belongs to a loop around what stands before it. -/
def isLoop : Work → Bool
  | .again .. => true
  | .tested .. => true
  | .next .. => true
  | _ => false

/-- What is left to do behind the innermost loop, or in it with its next
round, and the descriptors as they were there, provided there is a loop. -/
def leaveLoop (again : Bool) : List Work → Handles → List Work × Handles
  | [], handles => ([], handles)
  | .reconnect saved :: rest, _ => leaveLoop again rest saved
  | work :: rest, handles =>
    if isLoop work then (if again then work :: rest else rest, handles)
    else leaveLoop again rest handles

/-- Leaves the innermost loop, or goes on with its next round; outside of
loops nothing happens. -/
def jump (m : Machine) (p : Proc) (s : ShellState) (again : Bool) : Machine :=
  if s.todo.any isLoop then
    let (todo, handles) := leaveLoop again s.todo p.handles
    m.keep { p with handles := handles }
      (withStatus { s with todo := todo } 0)
  else m.keep p (withStatus s 0)

/-- Sets traps, or says that signals are to be ignored. -/
def setTraps (p : Proc) (s : ShellState) (action : Letters)
    (numbers : List Nat) : Proc × ShellState :=
  let traps := s.traps.filter fun t => !numbers.contains t.1
  let ignored := p.ignored.filter fun n => !numbers.contains n
  if action = ['-'] then
    ({ p with ignored := ignored }, { s with traps := traps })
  else if action.isEmpty then
    ({ p with ignored := ignored ++ numbers }, { s with traps := traps })
  else
    ({ p with ignored := ignored },
      { s with traps := numbers.map (fun n => (n, action)) ++ traps })

/-- Exports a variable, with a value if one is given. -/
def exportOne (p : Parameters) (argument : Letters) : Parameters :=
  let (name, p) :=
    match splitAtFirst '=' argument with
    | some (name, value) => (name, p.set name value)
    | none => (argument, p)
  { p with exported := name :: p.exported.filter (· ≠ name) }

/-- Takes a line from the input, byte by byte. -/
def readLineFrom (m : Machine) (p : Proc) : Nat → Letters →
    Option (Letters × Bool × Machine × Proc)
  | 0, got => some (got.reverse, true, m, p)
  | n + 1, got =>
    match m.read p 0 1 with
    | (.bytes bytes, m, p) =>
      if bytes = [0x0A] then some (got.reverse, true, m, p)
      else readLineFrom m p n ((Letters.ofBytes bytes).reverse ++ got)
    | (.ended, m, p) => some (got.reverse, false, m, p)
    | (.wait, _, _) => none

/-- Gives the words of a line to variables; the last one takes the rest. -/
def assignWords (p : Parameters) : List Letters → Letters → Parameters
  | [], _ => p
  | [name], line =>
    let trimmed := line.dropWhile Shell.Splitting.isDivider
    p.set name (trimmed.reverse.dropWhile Shell.Splitting.isDivider).reverse
  | name :: names, line =>
    let trimmed := line.dropWhile Shell.Splitting.isDivider
    let word := trimmed.takeWhile fun c => !Shell.Splitting.isDivider c
    assignWords (p.set name word) names (trimmed.drop word.length)

/-- The outcome of the shell's own `printf`. -/
def shellPrintf (s : ShellState) (line : Nat) (arguments : List Letters) :
    List (Nat × Bytes) × Nat :=
  let operands :=
    if arguments.head? = some ['-', '-'] then arguments.drop 1 else arguments
  match operands with
  | [] =>
    ([shellMessage s line
      (.ofString "printf: usage: printf format [arg ...]")], 2)
  | format :: values =>
    let result := Formatted.format { ending := false } format values
    let faults := result.faults.map fun fault =>
      match fault with
      | .noNumber a =>
        shellMessage s line (.ofString "printf: " ++ a ++
          .ofString ": expected numeric value")
      | .moreThanNumber a =>
        shellMessage s line (.ofString "printf: " ++ a ++
          .ofString ": not completely converted")
      | .noConversion text =>
        shellMessage s line (.ofString "printf: " ++ text ++
          .ofString ": invalid directive")
      | .unfinished _ =>
        shellMessage s line (.ofString "printf: missing format character")
    let isUnknown := result.faults.any fun fault =>
      match fault with
      | .noConversion _ => true
      | .unfinished _ => true
      | _ => false
    let status := if faults.isEmpty then 0 else if isUnknown then 2 else 1
    (faults ++ [said result.written.letters], status)

/-- A shell that writes something of its own. Writing to a closed descriptor
is an error. -/
def sayAndGoOn (m : Machine) (p : Proc) (s : ShellState) (line : Nat)
    (name : Letters) (output : List (Nat × Bytes)) (status : Nat) : Machine :=
  let isLost := (p.handles.get? 1).isNone &&
    output.any fun o => o.1 = 1 && !o.2.isEmpty
  if isLost then
    m.complain p s line (name ++ .ofString ": " ++ name ++
      .ofString ": I/O error") 1
  else m.keep (saying p output) (withStatus s status)

/-- The status that an argument of `exit` gives. -/
def exitStatus (s : ShellState) (arguments : List Letters) : Nat :=
  match arguments with
  | [] => s.parameters.status
  | n :: _ => Shell.numberOf n % 256

/-- Whether a work belongs to the end of a function. -/
def isFunctionEnd : Work → Bool
  | .restoreArguments _ => true
  | _ => false

/-- Leaves a function, or the script if there is none to leave. -/
def leaveFunction (s : ShellState) : ShellState :=
  if s.todo.any isFunctionEnd then
    { s with todo := s.todo.dropWhile fun w => !isFunctionEnd w }
  else { s with todo := [.leave] }

/-- Delivers a signal to processes, given by arguments of `kill`. -/
def killAll (m : Machine) (number : Nat) (pids : List Letters) :
    Machine × Bool :=
  pids.foldl
    (fun (m, found) pid =>
      let pid := Shell.numberOf pid
      (m.signal pid number, found && (m.proc? pid).isSome))
    (m, true)

/-- The signal that `kill` is to send, and the arguments behind it. -/
def killTarget (arguments : List Letters) : Nat × List Letters :=
  match arguments with
  | ['-', 's'] :: name :: pids => ((signalNumber? name).getD 15, pids)
  | ('-' :: name) :: pids => ((signalNumber? name).getD 15, pids)
  | pids => (15, pids)

/-- How `kill` is to be used. -/
def killUsage : Letters :=
  .ofString ("kill: Usage: kill [-s sigspec | -signum | -sigspec] " ++
    "[pid | job]... or\nkill -l [exitstatus]")

/-- What is wrong with the arguments of a test. -/
def testComplaint (name : Letters) (arguments : List Letters) : Letters :=
  let isNumber (a : Letters) : Bool := (Formatted.numberOf a).2.isNone
  let isIllegal (sign : Letters) : Bool :=
    ["-eq", "-ne", "-lt", "-le", "-gt", "-ge"].any fun n => n.toList = sign
  match arguments with
  | [a, sign, b] =>
    if isIllegal sign then
      name ++ .ofString ": Illegal number: " ++ (if isNumber a then b else a)
    else name ++ .ofString ": " ++ a ++ .ofString ": unexpected operator"
  | a :: _ => name ++ .ofString ": " ++ a ++ .ofString ": unexpected operator"
  | [] => name ++ .ofString ": argument expected"

/-- Carries out a test. -/
def runTest (m : Machine) (p : Proc) (s : ShellState) (line : Nat)
    (name : Letters) (arguments : List Letters) : Machine :=
  match test m.files p.cwd arguments with
  | none => m.complain p s line (testComplaint name arguments) 2
  | outcome => m.keep p (withStatus s (testCode outcome))

/-- Carries out a command of the shell's own, if it can go on. -/
def builtin (m : Machine) (p : Proc) (s : ShellState) (line : Nat)
    (name : Letters) (arguments : List Letters) : Option Machine :=
  match String.ofList name with
  | ":" => some (m.keep p (withStatus s 0))
  | "true" => some (m.keep p (withStatus s 0))
  | "false" => some (m.keep p (withStatus s 1))
  | "echo" =>
    some (m.sayAndGoOn p s line name
      [said (Formatted.shellEcho arguments)] 0)
  | "printf" =>
    let (output, status) := shellPrintf s line arguments
    some (m.sayAndGoOn p s line name output status)
  | "pwd" =>
    some (m.sayAndGoOn p s line name
      [(1, Files.pathOf p.cwd ++ [0x0A])] 0)
  | "exit" =>
    match arguments with
    | n :: _ =>
      if n.all Char.isDigit then
        some (m.keep p
          { withStatus s (exitStatus s arguments) with todo := [.leave] })
      else
        some (m.giveUp p s line (.ofString "exit: Illegal number: " ++ n) 2)
    | [] => some (m.keep p { s with todo := [.leave] })
  | "return" =>
    some (m.keep p (leaveFunction (withStatus s (exitStatus s arguments))))
  | "test" => some (m.runTest p s line name arguments)
  | "[" =>
    if arguments.getLast? = some [']'] then
      some (m.runTest p s line name arguments.dropLast)
    else some (m.complain p s line (.ofString "[: missing ]") 2)
  | "cd" =>
    let target := (arguments.head?).getD
      ((s.parameters.get? (.ofString "HOME")).getD [])
    let path := Letters.toBytes target
    match m.files.find p.cwd path, m.files.locate p.cwd path with
    | .ok .directory, .ok location =>
      some (m.keep { p with cwd := location } (withStatus s 0))
    | _, _ =>
      some (m.complain p s line
        (.ofString "cd: can't cd to " ++ target) 2)
  | "export" =>
    let parameters := arguments.foldl exportOne s.parameters
    some (m.keep p (withStatus { s with parameters := parameters } 0))
  | "unset" =>
    let parameters := arguments.foldl Parameters.unset s.parameters
    some (m.keep p (withStatus { s with parameters := parameters } 0))
  | "set" =>
    let isOption (a : Letters) : Bool := a.head? = some '-' && 1 < a.length
    let options := (arguments.takeWhile isOption).flatten
    let operands := arguments.dropWhile isOption
    let replaces := !operands.isEmpty || arguments.contains ['-', '-']
    let parameters :=
      if replaces then { s.parameters with arguments := operands }
      else s.parameters
    some (m.keep p
      (withStatus
        { s with
          parameters := parameters
          endsOnFailure := s.endsOnFailure || options.contains 'e' }
        0))
  | "shift" =>
    let n := (arguments.head?.map Shell.numberOf).getD 1
    if s.parameters.arguments.length < n then
      some (m.giveUp p s line (.ofString "shift: can't shift that many") 2)
    else
      let parameters :=
        { s.parameters with arguments := s.parameters.arguments.drop n }
      some (m.keep p (withStatus { s with parameters := parameters } 0))
  | "trap" =>
    match arguments with
    | [] => some (m.keep p (withStatus s 0))
    | action :: names =>
      match names.mapM signalNumber? with
      | some numbers =>
        let (p, s) := setTraps p s action numbers
        some (m.keep p (withStatus s 0))
      | none => some (m.complain p s line (.ofString "trap: bad trap") 1)
  | "wait" =>
    match arguments with
    | [] =>
      some (m.keep p
        (first [.await s.background 0, .setStatus 0]
          { s with background := [] }))
    | pid :: _ =>
      let pid := Shell.numberOf pid
      if s.background.contains pid then
        some (m.keep p (first [.await [pid] pid] s))
      else some (m.keep p (withStatus s 127))
  | "kill" =>
    let (number, pids) := killTarget arguments
    if pids.isEmpty then some (m.complain p s line killUsage 2)
    else
    let (m, found) := (m.keep p (withStatus s 0)).killAll number pids
    match m.proc? p.pid with
    | none => some m
    | some p =>
      match p.task with
      | .job _ => some m
      | .shell s =>
        if found then some m
        else
          some (m.complain p s line (.ofString "kill: No such process\n") 1)
  | "read" =>
    let names := arguments.filter fun a => a.head? ≠ some '-'
    match m.readLineFrom p pipeRoom [] with
    | none => none
    | some (got, whole, m, p) =>
      let parameters := assignWords s.parameters names got
      some (m.keep p
        (withStatus { s with parameters := parameters }
          (if whole then 0 else 1)))
  | "break" => some (m.jump p s false)
  | "continue" => some (m.jump p s true)
  | "eval" =>
    let script := [' '].intercalate arguments
    some (m.keep p (first (linesOf script) (withStatus s 0)))
  | _ => none

end Machine

end Toolrun.Host
