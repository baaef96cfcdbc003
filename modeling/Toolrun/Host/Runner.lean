/-
Runs of tools on a machine, up to the start of the child and with its outcome.
What the system makes of the request to start it is decided here, by the files
alone; what happens on the machine once a child has been started is a
parameter (`Aftermath`).
-/
import Toolrun.Host.Start
import Toolrun.Invocation

namespace Toolrun.Host

/-- The request to start a child: its own variables take the place of inherited
ones. -/
def startRequest (inherited : List (Bytes × Bytes)) (c : ChildSetup) :
    StartRequest :=
  let own := c.env.pairs.map fun p => (Utf8.encode p.1, Utf8.encode p.2)
  let kept := inherited.filter fun v => !own.any fun o => o.1 = v.1
  { tool := Utf8.encode c.program
    arguments := c.arguments
    workingDir := c.workingDir.map Utf8.encode
    environment := kept ++ own
    searchPath := searchPathOf (kept ++ own)
    withShell := (searchPathOf own).isSome }

/-- How a run on the machine is begun. -/
structure Circumstances where
  cwd : Location
  environment : List (Bytes × Bytes) := []
  cancelledBefore : Bool := false
  cancelOnFile : Option Bytes := none

namespace Circumstances

/-- What the system is asked for to start a tool. -/
def request (c : Circumstances) (l : Launch) : StartRequest :=
  startRequest c.environment l.setup

/-- A run that has just begun. -/
def beginning (c : Circumstances) (l : Launch) : Invocation :=
  .begin l { cancelled := c.cancelledBefore }

end Circumstances

/-- A child that has been started: what runs in it, and with which
environment, and the files at that time. -/
structure StartedChild where
  image : Image
  environment : List (Bytes × Bytes)
  files : Files

/-- What happens once a child has been started: what becomes of the files, and
how far the run gets, which it does by its own moves. -/
structure Aftermath where
  play : Circumstances → StartedChild → Invocation → Files × Invocation
  moves : ∀ c child v, ∃ events, v.run events = some (play c child v).2

/-- The outcome of a run that does not end. -/
def endless : Outcome :=
  .error (.waitFailed (.other "the tool does not end"))

/-- Lets a run that is about to start its child do so, if the system allows
it. -/
def start (after : Aftermath) (c : Circumstances) (files : Files)
    (v : Invocation) : Files × Invocation :=
  let request := c.request v.launch
  match request.start files c.cwd with
  | .error cause => (files, (v.step (.startFailed cause)).getD v)
  | .ok image =>
    after.play c ⟨image, request.environment, files⟩
      ((v.step .started).getD v)

/-- Runs a tool. -/
def runToolWith (after : Aftermath) (c : Circumstances) :
    Files → Launch → Files × Outcome :=
  fun files l =>
    let v := c.beginning l
    let (files, v) :=
      match v.phase with
      | .starting => start after c files v
      | _ => (files, v)
    (files, v.outcome?.getD endless)

end Toolrun.Host
