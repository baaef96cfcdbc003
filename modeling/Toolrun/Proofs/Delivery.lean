/-
Reports to sinks that take only so many bytes.

Whoever writes a report does so in many small writes, and a sink may take a
write in several goes; but two parts of a piece are taken like the whole
(`Sinks.write_append`), so how a report is cut up makes no difference
(`InParts.deliver_eq`). With that, a report is one piece for each stream, the
output stream's first, and what comes of two pieces is easily seen: each sink
has the head that fits, and the error stream has nothing if the output stream
could not take all of its own (`limited_delivery`).
-/
import Toolrun.Proofs.Report

namespace Toolrun

/-- What ends with the line break that it would be short of leaves off at the
start of a line. -/
theorem starts_line (bytes : Bytes) :
    bytes ++ lineEnd bytes = []
      ∨ (bytes ++ lineEnd bytes).getLast? = some 0x0A := by
  unfold lineEnd
  by_cases hnil : bytes = []
  · exact Or.inl (by simp [hnil])
  · by_cases hlast : bytes.getLast? = some 0x0A
    · exact Or.inr (by simp [hlast])
    · exact Or.inr (by simp [hnil, hlast])

namespace Report

-- =============================================================== in parts

/-- A sink takes nothing of nothing. -/
theorem Sink.write_nil (s : Sink) : s.write [] = (s, true) := by
  obtain ⟨room, taken⟩ := s
  cases room with
  | none => simp [write]
  | some room => simp [write]

/-- Of two parts, nothing is taken of the second if the first has filled the
sink; so the parts are taken like the whole. -/
theorem Sink.write_append (s : Sink) (a b : Bytes) :
    s.write (a ++ b)
      = if (s.write a).2 then (s.write a).1.write b else s.write a := by
  obtain ⟨room, taken⟩ := s
  cases room with
  | none => simp [write]
  | some room =>
      by_cases hfits : a.length ≤ room
      · simp [write, hfits, List.take_append, List.take_of_length_le hfits]
        omega
      · have hfull : room - a.length = 0 := by omega
        simp [write, hfits, List.take_append, hfull]
        omega

theorem Sinks.write_nil (sinks : Sinks) (stream : Stream) :
    sinks.write stream [] = (sinks, true) := by
  cases stream with
  | stdout => simp [write, Sink.write_nil]
  | stderr => simp [write, Sink.write_nil]

theorem Sinks.write_append (sinks : Sinks) (stream : Stream) (a b : Bytes) :
    sinks.write stream (a ++ b)
      = if (sinks.write stream a).2
        then (sinks.write stream a).1.write stream b
        else sinks.write stream a := by
  cases stream with
  | stdout =>
      by_cases hwhole : (sinks.out.write a).2 = true
      · simp [write, Sink.write_append, hwhole]
      · simp [write, Sink.write_append, hwhole]
  | stderr =>
      by_cases hwhole : (sinks.err.write a).2 = true
      · simp [write, Sink.write_append, hwhole]
      · simp [write, Sink.write_append, hwhole]

/-- A piece is delivered alike in two parts. -/
theorem deliver_two_parts (sinks : Sinks) (stream : Stream) (a b : Bytes)
    (ps : Pieces) :
    deliver sinks ((stream, a) :: (stream, b) :: ps)
      = deliver sinks ((stream, a ++ b) :: ps) := by
  rw [deliver_cons, deliver_cons, deliver_cons, Sinks.write_append]
  by_cases hwhole : (sinks.write stream a).2 = true
  · rw [if_pos hwhole, if_pos hwhole]
  · simp only [if_neg hwhole]

/-- A piece is delivered alike in any number of parts. -/
theorem deliver_parts (sinks : Sinks) (stream : Stream) (parts : List Bytes)
    (ps : Pieces) :
    deliver sinks (parts.map (stream, ·) ++ ps)
      = deliver sinks ((stream, parts.flatten) :: ps) := by
  induction parts generalizing sinks with
  | nil =>
      rw [List.flatten_nil, deliver_cons, Sinks.write_nil]
      rfl
  | cons part parts ih =>
      rw [List.flatten_cons, ← deliver_two_parts, List.map_cons,
        List.cons_append, deliver_cons, deliver_cons, ih]

/-- Writes that hand over some pieces, each piece in any number of parts. -/
inductive InParts : Pieces → Pieces → Prop where
  | nil : InParts [] []
  | cons (stream : Stream) (parts : List Bytes) {writes ps : Pieces}
      (others : InParts writes ps) :
      InParts (parts.map (stream, ·) ++ writes)
        ((stream, parts.flatten) :: ps)

/-- The parts in which pieces are handed over make no difference to what is
delivered. -/
theorem InParts.deliver_eq {writes ps : Pieces} (h : InParts writes ps)
    (sinks : Sinks) : deliver sinks writes = deliver sinks ps := by
  induction h generalizing sinks with
  | nil => rfl
  | cons stream parts others ih =>
      rw [deliver_parts, deliver_cons, deliver_cons, ih]

/-- Pieces that are written byte by byte. -/
def bytewise (ps : Pieces) : Pieces :=
  ps.flatMap fun p => (p.2.map ([·])).map (p.1, ·)

theorem bytewise_inParts (ps : Pieces) : InParts (bytewise ps) ps := by
  induction ps with
  | nil => exact .nil
  | cons p ps ih =>
      obtain ⟨stream, bytes⟩ := p
      have hflatten : (bytes.map ([·])).flatten = bytes := by
        rw [← List.flatMap_def, List.flatMap_singleton']
      have hparts := InParts.cons stream (bytes.map ([·])) ih
      rw [hflatten] at hparts
      exact hparts

-- ================================================================ by stream

/-- A report says all that it has for the output stream before it says
anything on the error stream. -/
theorem pieces_inParts (format : Format) (outcome : Outcome) :
    InParts (pieces format outcome)
      [(.stdout, Pieces.on .stdout (pieces format outcome)),
        (.stderr, Pieces.on .stderr (pieces format outcome))] := by
  cases format with
  | json => exact .cons .stdout [_] (.cons .stderr [] .nil)
  | text =>
      cases outcome with
      | ok output => exact .cons .stdout [_] (.cons .stderr [_] .nil)
      | error failure =>
          exact .cons .stdout [_] (.cons .stderr [_, _, _] .nil)

/-- What a report says on the two streams: in text what the tool wrote, and for
a failure a line of its own behind that; in JSON one line on the output stream
alone. -/
def Spells : Format → Outcome → Bytes → Bytes → Prop
  | .text, .ok output, out, err =>
      out = Utf8.encode output.stdout ∧ err = Utf8.encode output.stderr
  | .text, .error failure, out, err =>
      let output := failure.partialOutput?.getD .none
      out = Utf8.encode output.stdout
        ∧ ∃ front, err
            = front ++ Utf8.encode ("toolrun: " ++ failure.message ++ "\n")
          ∧ front = Utf8.encode output.stderr
              ++ lineEnd (Utf8.encode output.stderr)
          ∧ (front = [] ∨ front.getLast? = some 0x0A)
  | .json, outcome, out, err =>
      out = Json.render (toJson outcome) ++ [0x0A] ∧ err = []

theorem spells_pieces (format : Format) (outcome : Outcome) :
    Spells format outcome (Pieces.on .stdout (pieces format outcome))
      (Pieces.on .stderr (pieces format outcome)) := by
  cases format with
  | json => exact ⟨List.append_nil _, rfl⟩
  | text =>
      cases outcome with
      | ok output =>
          exact ⟨List.append_nil _, List.append_nil _⟩
      | error failure =>
          refine ⟨List.append_nil _, _, ?_, rfl, starts_line _⟩
          rw [← missingBreak_eq]
          simp [pieces, textPieces, forwarded, failureLine, Pieces.on]

-- ================================================================== limits

/-- Two sinks that take only so many bytes. -/
def Sinks.limited (outLimit errLimit : Nat) : Sinks where
  out := { room := some outLimit }
  err := { room := some errLimit }

/-- What comes of a piece for each stream. -/
theorem deliver_limited (outLimit errLimit : Nat) (out err : Bytes) :
    deliver (.limited outLimit errLimit) [(.stdout, out), (.stderr, err)]
      = (⟨⟨some (outLimit - out.length), out.take outLimit⟩,
          if out.length ≤ outLimit
          then ⟨some (errLimit - err.length), err.take errLimit⟩
          else ⟨some errLimit, []⟩⟩,
        if out.length ≤ outLimit ∧ err.length ≤ errLimit then .ok ()
        else .error sinkFull) := by
  rw [deliver_cons, deliver_cons]
  by_cases hout : out.length ≤ outLimit
  · by_cases herr : err.length ≤ errLimit
    · simp [Sinks.write, Sinks.limited, Sink.write, deliver, hout, herr]
    · simp [Sinks.write, Sinks.limited, Sink.write, hout, herr]
  · simp [Sinks.write, Sinks.limited, Sink.write, hout]

/-- **Each sink has the head that fits.** A report may be handed over in any
parts. Let `out` and `err` be what it says where nothing is refused. To sinks
that take only so many bytes it is delivered just if either stream fits its
own, and else there is a fault; the output stream's sink has as much of `out`
as it takes, and the error stream's as much of `err`, or nothing if `out` was
not taken whole. -/
theorem limited_delivery {format : Format} {outcome : Outcome}
    {writes : Pieces} (hwrites : InParts writes (pieces format outcome)) :
    (∀ sinks, deliver sinks writes = deliver sinks (pieces format outcome))
      ∧ ∃ out err,
        deliver {} writes = (⟨{ taken := out }, { taken := err }⟩, .ok ())
          ∧ Spells format outcome out err
          ∧ ∀ outLimit errLimit, ∃ sinks result,
              deliver (.limited outLimit errLimit) writes = (sinks, result)
                ∧ (result = .ok ()
                  ↔ out.length ≤ outLimit ∧ err.length ≤ errLimit)
                ∧ (result ≠ .ok () → result = .error sinkFull)
                ∧ sinks.out.taken = out.take outLimit
                ∧ sinks.err.taken
                  = if outLimit < out.length then []
                    else err.take errLimit := by
  have hsame := hwrites.deliver_eq
  refine ⟨hsame, _, _, ?_, spells_pieces format outcome,
    fun outLimit errLimit => ?_⟩
  · rw [hsame]
    exact deliver_unbounded _ [] []
  · have htwo := (hsame (.limited outLimit errLimit)).trans
      (((pieces_inParts format outcome).deliver_eq _).trans
        (deliver_limited outLimit errLimit _ _))
    refine ⟨_, _, htwo, ?_, ?_, rfl, ?_⟩
    · split
      next hfits => exact iff_of_true rfl hfits
      next hlarge => exact iff_of_false nofun hlarge
    · intro hfault
      split at hfault
      next => exact absurd rfl hfault
      next hlarge => rw [if_neg hlarge]
    · dsimp only
      by_cases hout :
          (Pieces.on .stdout (pieces format outcome)).length ≤ outLimit
      · rw [if_pos hout, if_neg (Nat.not_lt.2 hout)]
      · rw [if_neg hout, if_pos (Nat.not_le.1 hout)]

/-- A cancelled run that is reported byte by byte, to an error stream that
takes one byte: nothing is said about the cancellation. -/
theorem limited_delivery_bytewise :
    let ps := pieces .text (.error (.cancelled ⟨"ok", "x"⟩))
    InParts (bytewise ps) ps
      ∧ ∃ sinks,
        deliver (.limited 2 1) (bytewise ps) = (sinks, .error sinkFull)
          ∧ sinks.out.taken = [0x6F, 0x6B]
          ∧ sinks.err.taken = [0x78] := by
  intro ps
  have hparts := bytewise_inParts ps
  refine ⟨hparts, ?_⟩
  obtain ⟨-, out, err, -, ⟨rfl, front, rfl, rfl, -⟩, hlimited⟩ :=
    limited_delivery hparts
  obtain ⟨sinks, result, hdeliver, hok, hfault, hout, herr⟩ := hlimited 2 1
  have houtput : Utf8.encode "ok" = [0x6F, 0x6B] := by decide
  have herror : Utf8.encode "x" ++ lineEnd (Utf8.encode "x")
      = [0x78, 0x0A] := by decide
  simp only [RunFailure.partialOutput?, Option.getD_some, houtput,
    herror] at hok hout herr
  have hlarge : result ≠ .ok () := by
    intro hresult
    have hfits := (hok.1 hresult).2
    simp at hfits
  exact ⟨sinks, by rw [hdeliver, hfault hlarge], hout, herr⟩

end Report

end Toolrun
