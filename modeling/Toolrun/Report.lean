/-
Reporting how a run ended: as text, by forwarding what the tool wrote and
adding a line for a failure, or as one line of JSON.

A report is first worked out as a list of pieces, each for one of the two
streams, and then delivered. Delivery is what can fail: a sink may take only
so many bytes, and the first piece that does not fit ends it.
-/
import Toolrun.Failure
import Toolrun.Json.Printer

namespace Toolrun

/-- The two forms a report can have. -/
inductive Format where
  | text
  | json
  deriving DecidableEq, Repr

namespace Report

-- ======================================================== composition

/-- A report as it is to be written: pieces of the two streams, in order. -/
abbrev Pieces := List (Stream × Bytes)

/-- The line break a text is short of, so that what follows it starts a
line. -/
def missingBreak (s : String) : Bytes :=
  match s.toList.getLast? with
  | none => []
  | some c => if c = '\n' then [] else [0x0A]

/-- What a failure adds to the error stream. -/
def failureLine (message : String) : Bytes :=
  Utf8.encode ("toolrun: " ++ message ++ "\n")

/-- What the tool wrote, each stream to its own. -/
def forwarded (output : Output) : Pieces :=
  [(.stdout, Utf8.encode output.stdout), (.stderr, Utf8.encode output.stderr)]

/-- The output that comes with an outcome. -/
def outputOf : Outcome → Output
  | .ok output => output
  | .error failure => failure.partialOutput?.getD Output.none

/-- The report as text. -/
def textPieces : Outcome → Pieces
  | .ok output => forwarded output
  | .error failure =>
    let output := failure.partialOutput?.getD Output.none
    forwarded output ++
      [(.stderr, missingBreak output.stderr),
        (.stderr, failureLine failure.message)]

/-- The report as a JSON object. Only a failure has the member `error`. -/
def toJson (outcome : Outcome) : Json :=
  let member (name : String) (value : Json) := (Utf8.encode name, value)
  let output := outputOf outcome
  let streams :=
    [member "stdout" (Json.ofText output.stdout),
      member "stderr" (Json.ofText output.stderr)]
  match outcome with
  | .ok _ => .object (member "ok" (.bool true) :: streams)
  | .error failure =>
    let error : Json :=
      .object
        [member "kind" (Json.ofText failure.kind),
          member "message" (Json.ofText failure.message)]
    .object (member "ok" (.bool false) :: member "error" error :: streams)

/-- The report as one line of JSON, on the output stream alone. -/
def jsonPieces (outcome : Outcome) : Pieces :=
  [(.stdout, Json.render (toJson outcome) ++ [0x0A])]

/-- The report of an outcome in a format. -/
def pieces : Format → Outcome → Pieces
  | .text => textPieces
  | .json => jsonPieces

-- =========================================================== delivery

/-- Where a stream goes: what it has taken, and how many more bytes it will
take, if there is a bound. -/
structure Sink where
  room : Option Nat := none
  taken : Bytes := []
  deriving DecidableEq, Repr

namespace Sink

/-- Writes some bytes, and says whether all of them were taken. -/
def write (s : Sink) (bytes : Bytes) : Sink × Bool :=
  match s.room with
  | none => ({ s with taken := s.taken ++ bytes }, true)
  | some room =>
    (⟨some (room - bytes.length), s.taken ++ bytes.take room⟩,
      decide (bytes.length ≤ room))

end Sink

/-- The two sinks of a report. -/
structure Sinks where
  out : Sink := {}
  err : Sink := {}
  deriving DecidableEq, Repr

/-- A sink that stops taking bytes stops the report. -/
def sinkFull : IoFault := .other "failed to write whole buffer"

/-- Writes pieces to their sinks until one is not taken whole. -/
def deliver (sinks : Sinks) : Pieces → Sinks × Except IoFault Unit
  | [] => (sinks, .ok ())
  | (stream, bytes) :: others =>
    let (sinks, whole) :=
      match stream with
      | .stdout =>
        let (out, whole) := sinks.out.write bytes
        ({ sinks with out := out }, whole)
      | .stderr =>
        let (err, whole) := sinks.err.write bytes
        ({ sinks with err := err }, whole)
    if whole then deliver sinks others else (sinks, .error sinkFull)

/-- What the pieces say on one stream. -/
def Pieces.on (stream : Stream) (pieces : Pieces) : Bytes :=
  pieces.flatMap fun p => if p.1 = stream then p.2 else []

end Report

end Toolrun
