/-
What can go wrong, from the tool's own failure to a bad command line, with
the wording and the exit code of each.

A failure that comes after the tool was started by the tool's own doing, or
by ours in stopping it, carries the output captured up to then, so that it
can still be shown.
-/
import Toolrun.Stream
import Toolrun.System.Errno

namespace Toolrun

/-- What a tool wrote, as text. -/
structure Output where
  stdout : String
  stderr : String
  deriving DecidableEq, Repr

namespace Output

/-- Nothing written. -/
def none : Output := ⟨"", ""⟩

/-- What was written to a stream. -/
def get (o : Output) : Stream → String
  | .stdout => o.stdout
  | .stderr => o.stderr

/-- Whether nothing was written. -/
def isEmpty (o : Output) : Bool := o.stdout.isEmpty && o.stderr.isEmpty

end Output

/-- How the run of a tool can fail. An exit code is missing if a signal ended
the tool. -/
inductive RunFailure where
  | badRequest (reason : String)
  | toolNotFound (tool : String)
  | startFailed (tool : String) (cause : IoFault)
  | unsuccessful (code : Option Int) (output : Output)
  | cancelled (output : Output)
  | timedOut (afterMs : Nat) (output : Output)
  | streamFailed (stream : Stream) (cause : IoFault)
  | waitFailed (cause : IoFault)
  deriving DecidableEq, Repr

/-- How a run ends: with the tool's output, or with a failure. -/
abbrev Outcome := Except RunFailure Output

namespace RunFailure

/-- A short name for the kind of failure, the same for all its texts. -/
def kind : RunFailure → String
  | badRequest _ => "config"
  | toolNotFound _ => "not_found"
  | startFailed _ _ => "spawn"
  | unsuccessful _ _ => "non_zero_exit"
  | cancelled _ => "cancelled"
  | timedOut _ _ => "timed_out"
  | streamFailed _ _ => "stream_io"
  | waitFailed _ => "wait"

/-- The wording of a failure. -/
def message : RunFailure → String
  | badRequest reason => "config error: " ++ reason
  | toolNotFound tool => "tool not found: " ++ tool
  | startFailed tool cause =>
    "spawn failed for " ++ tool ++ ": " ++ cause.message
  | unsuccessful (some code) _ =>
    "tool exited with status " ++ Numeral.signedDecimal code
  | unsuccessful none _ => "tool terminated by signal"
  | cancelled _ => "tool run cancelled"
  | timedOut afterMs _ =>
    "tool run timed out after " ++ Numeral.decimal afterMs ++ "ms"
  | streamFailed stream cause =>
    "stream io error: " ++ stream.name ++ " " ++ cause.message
  | waitFailed cause => "wait failed: " ++ cause.message

/-- The output captured before the failure, where there can be any. -/
def partialOutput? : RunFailure → Option Output
  | unsuccessful _ output => some output
  | cancelled output => some output
  | timedOut _ output => some output
  | _ => none

/-- The exit code that reports a failure: the tool's own if it has one that
says failure. -/
def exitCode : RunFailure → Int
  | badRequest _ => 11
  | toolNotFound _ => 20
  | startFailed _ _ => 20
  | streamFailed _ _ => 20
  | waitFailed _ => 20
  | timedOut _ _ => 30
  | cancelled _ => 130
  | unsuccessful (some code) _ => if code = 0 then 1 else code
  | unsuccessful none _ => 1

end RunFailure

/-- How the program as a whole can fail. -/
inductive Failure where
  | run (failure : RunFailure)
  | config (reason : String)
  | input (reason : String)
  | io (cause : IoFault)
  | other (reason : String)
  deriving DecidableEq, Repr

namespace Failure

/-- The wording of a failure. -/
def message : Failure → String
  | run failure => "runner failed: " ++ failure.message
  | config reason => "config error: " ++ reason
  | input reason => "input error: " ++ reason
  | io cause => "io error: " ++ cause.message
  | other reason => "anyhow error: " ++ reason

/-- The exit code that reports a failure. -/
def exitCode : Failure → Int
  | run failure => failure.exitCode
  | config _ => 11
  | input _ => 11
  | io _ => 20
  | other _ => 50

end Failure

/-- The exit code of a run: zero for success alone. -/
def Outcome.exitCode : Outcome → Int
  | .ok _ => 0
  | .error failure => failure.exitCode

end Toolrun
