/-
The steps of a shell at work: commands are taken apart, words expanded,
descriptors redirected, and children waited for.
-/
import Toolrun.Host.Shell.Builtin

namespace Toolrun.Host

namespace Machine

open Shell (Command Redirection Parameters Word)

-- ======================================================= simple commands

/-- Runs `exec`: with a command the process becomes that, without one only
the redirections stay. -/
def runExec (m : Machine) (p : Proc) (s : ShellState) (line : Nat)
    (extra : List (Letters × Letters)) (arguments : List Letters) : Machine :=
  if arguments.isEmpty then m.keep p (withStatus s 0)
  else m.become p s line extra (.ofString "exec: ") arguments

/-- The assignments of a command, in order, each with the ones before it in
force. -/
def assigned (parameters : Parameters) (pairs : List (Letters × Word)) :
    Parameters × List (Letters × Letters) :=
  pairs.foldl
    (fun (parameters, done) (name, word) =>
      let value := Shell.expandText parameters word
      (parameters.set name value, done ++ [(name, value)]))
    (parameters, [])

/-- The function of a name. -/
def functionOf? (s : ShellState) (name : Letters) : Option Command :=
  (s.functions.find? fun f => f.1 = name).map (·.2)

/-- Runs a command whose words are known: a function, a command of the
shell's own, or a program in a child. -/
def runWords (m : Machine) (p : Proc) (s : ShellState) (line : Nat)
    (extra : List (Letters × Letters)) (handles : Handles)
    (arguments : List Letters) : Option Machine :=
  let isPlain := arguments.head? = some "command".toList
  let arguments := if isPlain then arguments.drop 1 else arguments
  let name := arguments.headD []
  let others := arguments.drop 1
  if name = "exec".toList then
    some (m.runExec { p with handles := handles } s line extra others)
  else if arguments.isEmpty then some (m.keep p (withStatus s 0))
  else if !isPlain && (functionOf? s name).isSome then
    let body := (functionOf? s name).getD .nothing
    let s := first [.run false body,
      .restoreArguments s.parameters.arguments, .reconnect p.handles] s
    some (m.keep { p with handles := handles }
      { s with parameters := { s.parameters with arguments := others } })
  else if builtinNames.any fun n => n.toList = name then
    let s := if handles = p.handles then s
      else first [.reconnect p.handles] s
    m.builtin { p with handles := handles } s line name others
  else
    let (m, child) := m.fork p (.job (.finish 0)) handles
    let m :=
      match m.proc? child with
      | some c => m.become c s line extra [] arguments
      | none => m
    some (m.keep p (first [.await [child] child] s))

/-- Runs a simple command. With `afterOutput` its words contain the output of
a script, whose status stays if there is no command. -/
def runSimple (m : Machine) (p : Proc) (s : ShellState) (afterOutput : Bool)
    (line : Nat) (pairs : List (Letters × Word)) (words : List Word)
    (redirections : List Redirection) : Option Machine :=
  match Shell.refusal? s.parameters (words ++ pairs.map (·.2)) with
  | some message => some (m.giveUp p s line message 2)
  | none =>
    let s := { s with parameters := Shell.assignMissing s.parameters words }
    let arguments := Shell.expandWords s.parameters m.files p.cwd words
    let isSpecial := specialNames.any fun n => some n.toList = arguments.head?
    match redirect p.cwd s.parameters redirections m.files p.handles with
    | .error message =>
      if isSpecial then some (m.giveUp p s line message 2)
      else some (m.complain p s line message 2)
    | .ok (files, handles) =>
      let m := { m with files := files }
      let (parameters, extra) := assigned s.parameters pairs
      if arguments.isEmpty then
        let s := { s with parameters := parameters }
        some (m.keep p (if afterOutput then s else withStatus s 0))
      else m.runWords p s line extra handles arguments

-- ============================================================== commands

/-- Runs a command with redirections that end with it. -/
def withHandles (m : Machine) (p : Proc) (s : ShellState)
    (redirections : List Redirection)
    (go : Machine → Proc → ShellState → Machine) : Machine :=
  if redirections.isEmpty then go m p s
  else
    match redirect p.cwd s.parameters redirections m.files p.handles with
    | .error message => m.complain p s 1 message 2
    | .ok (files, handles) =>
      go { m with files := files } { p with handles := handles }
        (first [.reconnect p.handles] s)

/-- The command of the first case that a text matches. -/
def chosenCase (parameters : Parameters) (text : Letters)
    (cases : List (List Word × Command)) : Command :=
  let isChosen (c : List Word × Command) : Bool :=
    c.1.any fun w => Shell.isMatch (Shell.expandPattern parameters w) text
  ((cases.find? isChosen).map (·.2)).getD .nothing

/-- Begins to collect the output of a script that a command needs. -/
def collectFor (m : Machine) (p : Proc) (s : ShellState) (guarded : Bool)
    (script command : Command) : Machine :=
  let (m, pipe) := m.newPipe
  let (m, child) :=
    m.fork p (childShell s [.run true script])
      (p.handles.set 1 (.pipeIn pipe))
  m.keep { p with handles := (pipe + 1000, .pipeOut pipe) :: p.handles }
    (first [.collect pipe child [] guarded command] s)

/-- A check for failure behind a command, unless it may fail. -/
def checking (guarded : Bool) (s : ShellState) : List Work :=
  if s.endsOnFailure && !guarded then [.check] else []

/-- Runs a command. -/
def runCommand (m : Machine) (p : Proc) (s : ShellState) (guarded : Bool)
    (afterOutput : Bool) (c : Command) : Option Machine :=
  match c with
  | .nothing => some (m.keep p s)
  | .fault line message => some (m.giveUp p s line message 2)
  | .define name body =>
    some (m.keep p
      (withStatus { s with functions := (name, body) :: s.functions } 0))
  | .simple line pairs words redirections =>
    m.runSimple p (first (checking guarded s) s) afterOutput line pairs words
      redirections
  | .pipeline stages =>
    let (m, pids) := forkStages guarded p s m p.handles stages []
    some (m.keep p
      (first (.await pids (pids.getLast?.getD 0) :: checking guarded s) s))
  | .inverted c => some (m.keep p (first [.run true c, .invert] s))
  | .sequence a b =>
    some (m.keep p (first [.run guarded a, .run guarded b] s))
  | .both a b =>
    some (m.keep p (first [.run true a, .ifSucceeded guarded b] s))
  | .either a b =>
    some (m.keep p (first [.run true a, .ifFailed guarded b] s))
  | .background c =>
    let (m, child) :=
      m.fork p (childShell s [.run guarded c]) (p.handles.set 0 .null)
    let parameters := { s.parameters with lastBackground := some child }
    some (m.keep p
      (withStatus
        { s with
          background := s.background ++ [child]
          parameters := parameters }
        0))
  | .grouped c redirections =>
    some (m.withHandles p s redirections fun m p s =>
      m.keep p (first [.run guarded c] s))
  | .subshell c redirections =>
    match redirect p.cwd s.parameters redirections m.files p.handles with
    | .error message => some (m.complain p s 1 message 2)
    | .ok (files, handles) =>
      let m := { m with files := files }
      some (m.runInChild p (first (checking guarded s) s) handles
        [.run guarded c])
  | .branch condition yes no redirections =>
    some (m.withHandles p s redirections fun m p s =>
      m.keep p (first [.run true condition, .choose guarded yes no] s))
  | .loop whileTrue condition body redirections =>
    some (m.withHandles p s redirections fun m p s =>
      m.keep p
        (first [.again guarded whileTrue condition body] (withStatus s 0)))
  | .each name words body redirections =>
    let values := Shell.expandWords s.parameters m.files p.cwd words
    some (m.withHandles p s redirections fun m p s =>
      m.keep p (first [.next guarded name values body] (withStatus s 0)))
  | .choice word cases redirections =>
    let text := Shell.expandText s.parameters word
    let chosen := chosenCase s.parameters text cases
    some (m.withHandles p s redirections fun m p s =>
      m.keep p (first [.run guarded chosen] (withStatus s 0)))

/-- Waits for children: once all have ended, the status is that of the last
one. A child that a signal ended is reported. -/
def awaitAll (m : Machine) (p : Proc) (s : ShellState) (pids : List Nat)
    (last : Nat) : Option Machine :=
  let children := pids.filterMap m.proc?
  if children.any fun c => c.ending.isNone then none
  else
    let ending := (children.find? fun c => c.pid = last).bind (·.ending)
    let report :=
      match ending with
      | some (.signalled number) => (signalText number).toList.map complaint
      | _ => []
    let status := (ending.map statusOf).getD s.parameters.status
    let background := s.background.filter fun pid => !pids.contains pid
    some ((m.forget pids).keep (saying p report)
      (withStatus { s with background := background } status))

/-- Goes on collecting the output of a script. -/
def collectMore (m : Machine) (p : Proc) (s : ShellState) (pipe child : Nat)
    (got : Bytes) (guarded : Bool) (command : Command) : Option Machine :=
  let descriptor := pipe + 1000
  match m.read p descriptor pipeRoom with
  | (.wait, _, _) => none
  | (.bytes bytes, m, p) =>
    some (m.keep p
      (first [.collect pipe child (got ++ bytes) guarded command] s))
  | (.ended, m, p) =>
    let filled := command.withOutput (Shell.outputText got)
    some (m.keep { p with handles := p.handles.close descriptor }
      (first [.await [child] child, .resume guarded filled] s))

/-- Ends a shell, unless a trap is set for its end. -/
def leaveShell (m : Machine) (p : Proc) (s : ShellState) : Machine :=
  match s.traps.find? fun t => t.1 = 0 with
  | some (_, action) =>
    let status := s.parameters.status
    m.keep p
      { s with
        traps := s.traps.filter fun t => t.1 ≠ 0
        todo := linesOf action ++ [.setStatus status, .leave] }
  | none => m.finish p (.exited s.parameters.status)

/-- Runs a command, or first the script whose output it needs. -/
def startCommand (m : Machine) (p : Proc) (s : ShellState)
    (guarded afterOutput : Bool) (c : Command) : Option Machine :=
  match c.script? with
  | some script => some (m.collectFor p s guarded script c)
  | none => m.runCommand p s guarded afterOutput c

/-- Lets a shell take a step, if it can. -/
def stepShell (m : Machine) (p : Proc) (s : ShellState) : Option Machine :=
  match s.todo with
  | [] => some (m.leaveShell p s)
  | work :: rest =>
    let s := { s with todo := rest }
    let succeeded := s.parameters.status = 0
    match work with
    | .leave => some (m.leaveShell p { s with todo := [] })
    | .run guarded c => m.startCommand p s guarded false c
    | .resume guarded c => m.startCommand p s guarded true c
    | .ifSucceeded guarded c =>
      some (m.keep p (if succeeded then first [.run guarded c] s else s))
    | .ifFailed guarded c =>
      some (m.keep p (if succeeded then s else first [.run guarded c] s))
    | .invert => some (m.keep p (withStatus s (if succeeded then 1 else 0)))
    | .check =>
      some (m.keep p (if succeeded then s else { s with todo := [.leave] }))
    | .choose guarded yes no =>
      let s' := withStatus s 0
      some (m.keep p
        (first [.run guarded (if succeeded then yes else no)] s'))
    | .again guarded whileTrue condition body =>
      some (m.keep p
        (first
          [.run true condition, .tested guarded whileTrue condition body] s))
    | .tested guarded whileTrue condition body =>
      if succeeded = whileTrue then
        some (m.keep p
          (first
            [.run guarded body, .again guarded whileTrue condition body] s))
      else some (m.keep p (withStatus s 0))
    | .next guarded name values body =>
      match values with
      | [] => some (m.keep p s)
      | value :: others =>
        let s :=
          { s with parameters := s.parameters.set name value }
        some (m.keep p
          (first [.run guarded body, .next guarded name others body] s))
    | .reconnect handles => some (m.keep { p with handles := handles } s)
    | .await pids last => m.awaitAll p s pids last
    | .collect pipe child got guarded c =>
      m.collectMore p s pipe child got guarded c
    | .readScript got =>
      match m.read p 0 pipeRoom with
      | (.wait, _, _) => none
      | (.bytes bytes, m, p) =>
        some (m.keep p (first [.readScript (got ++ bytes)] s))
      | (.ended, m, p) =>
        some (m.keep p (first (linesOf (Letters.ofBytes got)) s))
    | .setStatus status => some (m.keep p (withStatus s status))
    | .restoreArguments arguments =>
      let parameters := { s.parameters with arguments := arguments }
      some (m.keep p { s with parameters := parameters })

-- ============================================================== the machine

/-- Lets a process take a step, if it can. -/
def stepProc (m : Machine) (p : Proc) : Option Machine :=
  match p.pending with
  | (descriptor, bytes) :: others => m.write p descriptor bytes others
  | [] =>
    match p.task with
    | .job job => m.stepJob p job
    | .shell s => m.stepShell p s

/-- The processes that have not ended, by the time of their turn. -/
def inOrder (m : Machine) : List Proc :=
  (m.procs.filter fun p => p.ending.isNone).mergeSort
    fun p q => p.wakeAt ≤ q.wakeAt

/-- The time at which a process can go on. -/
def turnOf (m : Machine) (p : Proc) : Nat :=
  if m.now < p.wakeAt then p.wakeAt else m.now

/-- Whether a time has come by a limit, if there is one. -/
def isWithin (limit : Option Nat) (time : Nat) : Bool :=
  limit.all fun l => decide (time ≤ l)

/-- Lets the first process that can go on do so, and time pass up to then. A
process whose turn is after the limit does not go on. -/
def stepBy (m : Machine) (limit : Option Nat) : Option Machine :=
  m.inOrder.findSome? fun p =>
    if isWithin limit (m.turnOf p) then
      stepProc { m with now := m.turnOf p } p
    else none

end Machine

end Toolrun.Host
