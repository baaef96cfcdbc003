/-
What a report says. As text it forwards what the tool wrote, and whoever takes
all of it has exactly the pieces, in order (`taken_of_deliver`). As JSON it is
one line, and what is read off that line is an object whose members say what
there is to say of the outcome (`Says`): so nothing is lost on the way, and
no two outputs look alike (`json_reads_back`).

What the members say is put in terms of names and values alone, not of how
they are written: that what is written reads back is known of all of JSON
(`Json.read_render`).
-/
import Toolrun.Report
import Toolrun.Proofs.Json.Printer
import Toolrun.Proofs.Utf8

namespace Toolrun

/-- The line break that some bytes are short of, so that what follows them
starts a line. -/
def lineEnd (bytes : Bytes) : Bytes :=
  if bytes ≠ [] ∧ bytes.getLast? ≠ some 0x0A then [0x0A] else []

namespace Report

/-- The line break that a text is short of is the one its bytes are. -/
theorem missingBreak_eq (s : String) :
    missingBreak s = lineEnd (Utf8.encode s) := by
  have hnil : Utf8.encode s = [] ↔ s.toList.getLast? = none := by
    rw [Utf8.encode_eq_nil_iff, List.getLast?_eq_none_iff,
      String.toList_eq_nil_iff]
  unfold missingBreak lineEnd
  simp only [ne_eq, hnil, Utf8.getLast?_encode]
  cases s.toList.getLast? with
  | none => rfl
  | some c => by_cases hc : c = '\n' <;> simp [hc]

-- =============================================================== delivery

/-- What the pieces say on a stream, piece by piece. -/
theorem Pieces.on_cons (stream other : Stream) (bytes : Bytes) (ps : Pieces) :
    Pieces.on stream ((other, bytes) :: ps)
      = (if other = stream then bytes else []) ++ Pieces.on stream ps :=
  List.flatMap_cons

/-- Writes some bytes to the sink of a stream. -/
def Sinks.write (sinks : Sinks) (stream : Stream) (bytes : Bytes) :
    Sinks × Bool :=
  match stream with
  | .stdout =>
    ({ sinks with out := (sinks.out.write bytes).1 },
      (sinks.out.write bytes).2)
  | .stderr =>
    ({ sinks with err := (sinks.err.write bytes).1 },
      (sinks.err.write bytes).2)

/-- A piece that is not taken whole ends the delivery. -/
theorem deliver_cons (sinks : Sinks) (stream : Stream) (bytes : Bytes)
    (ps : Pieces) :
    deliver sinks ((stream, bytes) :: ps)
      = if (sinks.write stream bytes).2
        then deliver (sinks.write stream bytes).1 ps
        else ((sinks.write stream bytes).1, .error sinkFull) := by
  cases stream <;> rfl

/-- A sink that has taken all of it has it behind what it had before. -/
theorem Sink.taken_of_write {s : Sink} {bytes : Bytes}
    (hwhole : (s.write bytes).2 = true) :
    (s.write bytes).1.taken = s.taken ++ bytes := by
  unfold write at hwhole ⊢
  split
  next => rfl
  next room hroom =>
    rw [hroom] at hwhole
    show s.taken ++ bytes.take room = s.taken ++ bytes
    rw [List.take_of_length_le (of_decide_eq_true hwhole)]

/-- A piece goes to one sink, and the other is what it was. -/
theorem Sinks.taken_of_write {sinks : Sinks} {stream : Stream} {bytes : Bytes}
    (hwhole : (sinks.write stream bytes).2 = true) :
    (sinks.write stream bytes).1.out.taken
        = sinks.out.taken ++ (if stream = .stdout then bytes else [])
      ∧ (sinks.write stream bytes).1.err.taken
        = sinks.err.taken ++ (if stream = .stderr then bytes else []) := by
  cases stream with
  | stdout => exact ⟨Sink.taken_of_write hwhole, (List.append_nil _).symm⟩
  | stderr => exact ⟨(List.append_nil _).symm, Sink.taken_of_write hwhole⟩

/-- A report that is delivered is taken whole: each stream has got what the
pieces say on it, in their order. -/
theorem taken_of_deliver {sinks sinks' : Sinks} {ps : Pieces}
    (h : deliver sinks ps = (sinks', .ok ())) :
    sinks'.out.taken = sinks.out.taken ++ Pieces.on .stdout ps
      ∧ sinks'.err.taken = sinks.err.taken ++ Pieces.on .stderr ps := by
  induction ps generalizing sinks with
  | nil =>
      injection h with h
      subst h
      exact ⟨(List.append_nil _).symm, (List.append_nil _).symm⟩
  | cons piece ps ih =>
      obtain ⟨stream, bytes⟩ := piece
      rw [deliver_cons] at h
      split at h
      next hwhole =>
        obtain ⟨hout, herr⟩ := ih h
        obtain ⟨hout', herr'⟩ := Sinks.taken_of_write hwhole
        rw [Pieces.on_cons, Pieces.on_cons, hout, herr, hout', herr',
          List.append_assoc, List.append_assoc]
        exact ⟨rfl, rfl⟩
      next => cases h

/-- Where both sinks take everything, every report is delivered. -/
theorem deliver_unbounded (ps : Pieces) (out err : Bytes) :
    deliver ⟨{ taken := out }, { taken := err }⟩ ps
      = (⟨{ taken := out ++ Pieces.on .stdout ps },
          { taken := err ++ Pieces.on .stderr ps }⟩, .ok ()) := by
  induction ps generalizing out err with
  | nil =>
      show _ = (Sinks.mk { taken := out ++ [] } { taken := err ++ [] }, _)
      rw [List.append_nil, List.append_nil]
      rfl
  | cons piece ps ih =>
      obtain ⟨stream, bytes⟩ := piece
      rw [Pieces.on_cons, Pieces.on_cons]
      cases stream with
      | stdout =>
          rw [if_pos rfl, if_neg (by decide), ← List.append_assoc out,
            List.nil_append]
          exact ih (out ++ bytes) err
      | stderr =>
          rw [if_neg (by decide), if_pos rfl, ← List.append_assoc err,
            List.nil_append]
          exact ih out (err ++ bytes)

-- =================================================================== JSON

/-- The names of some members, in order. -/
def namesOf (members : List (Bytes × Json)) : List Bytes := members.map (·.1)

/-- The text that is the value of a name, if it has one value and that is a
text. -/
def textOf? (name : String) (members : List (Bytes × Json)) : Option String :=
  match Json.valuesOf (Utf8.encode name) members with
  | [.string text] => Utf8.decode? text
  | _ => none

/-- What the members of a report have to say of an outcome, and no others are
there: whether the tool succeeded, if not then why, and what it wrote. -/
def Says (members : List (Bytes × Json)) : Outcome → Prop
  | .ok output =>
      namesOf members = ["ok", "stdout", "stderr"].map Utf8.encode
        ∧ Json.valuesOf (Utf8.encode "ok") members = [.bool true]
        ∧ textOf? "stdout" members = some output.stdout
        ∧ textOf? "stderr" members = some output.stderr
  | .error failure =>
      namesOf members = ["ok", "error", "stdout", "stderr"].map Utf8.encode
        ∧ Json.valuesOf (Utf8.encode "ok") members = [.bool false]
        ∧ (∃ reason,
            Json.valuesOf (Utf8.encode "error") members = [.object reason]
              ∧ namesOf reason = ["kind", "message"].map Utf8.encode
              ∧ textOf? "kind" reason = some failure.kind
              ∧ textOf? "message" reason = some failure.message)
        ∧ textOf? "stdout" members
            = some ((failure.partialOutput?.map (·.stdout)).getD "")
        ∧ textOf? "stderr" members
            = some ((failure.partialOutput?.map (·.stderr)).getD "")

/-- A report nests two deep and has no numbers. -/
theorem plain_toJson (outcome : Outcome) :
    Json.Plain Json.depthLimit (toJson outcome) := by
  show Json.Plain (125 + 1 + 1) (toJson outcome)
  have htext (depth : Nat) (s : String) : Json.Plain depth (Json.ofText s) :=
    .string _
  cases outcome with
  | ok output =>
      refine .object ?_
      simp only [List.forall_mem_cons]
      exact ⟨.bool _, htext _ _, htext _ _, fun _ h => nomatch h⟩
  | error failure =>
      refine .object ?_
      simp only [List.forall_mem_cons]
      refine ⟨.bool _, .object ?_, htext _ _, htext _ _, fun _ h => nomatch h⟩
      simp only [List.forall_mem_cons]
      exact ⟨htext _ _, htext _ _, fun _ h => nomatch h⟩

theorem textOf?_of_valuesOf {name : String} {members : List (Bytes × Json)}
    {text : String}
    (h : Json.valuesOf (Utf8.encode name) members = [Json.ofText text]) :
    textOf? name members = some text := by
  unfold textOf?
  rw [h]
  exact Utf8.decode?_encode text

/-- The members of a report. -/
theorem exists_says (outcome : Outcome) :
    ∃ members, toJson outcome = .object members ∧ Says members outcome := by
  cases outcome with
  | ok output =>
      exact ⟨_, rfl, rfl, rfl, textOf?_of_valuesOf rfl,
        textOf?_of_valuesOf rfl⟩
  | error failure =>
      refine ⟨_, rfl, rfl, rfl, ⟨_, rfl, rfl, textOf?_of_valuesOf rfl,
        textOf?_of_valuesOf rfl⟩, ?_, ?_⟩
      · refine (textOf?_of_valuesOf rfl).trans (congrArg some ?_)
        show (failure.partialOutput?.getD Output.none).stdout = _
        cases failure.partialOutput? <;> rfl
      · refine (textOf?_of_valuesOf rfl).trans (congrArg some ?_)
        show (failure.partialOutput?.getD Output.none).stderr = _
        cases failure.partialOutput? <;> rfl

/-- What is printed as a report reads back, with blanks behind it, as an
object that says what there is to say. -/
theorem read_report (outcome : Outcome) {space : Bytes}
    (hspace : ∀ b ∈ space, Json.Reader.isSpace b = true) :
    ∃ members,
      Json.read (Json.render (toJson outcome) ++ space) = .ok (.object members)
        ∧ Says members outcome := by
  obtain ⟨members, hmembers, hsays⟩ := exists_says outcome
  refine ⟨members, ?_, hsays⟩
  rw [Json.read_render (plain_toJson outcome) hspace, hmembers]

/-- A report in JSON is one line. -/
theorem not_mem_render_toJson (outcome : Outcome) :
    0x0A ∉ Json.render (toJson outcome) :=
  fun h => absurd (Json.le_of_mem_render (plain_toJson outcome) h) (by decide)

/-- Members that say one output say no other. -/
theorem Says.output_unique {members : List (Bytes × Json)}
    {output output' : Output} (h : Says members (.ok output))
    (h' : Says members (.ok output')) : output = output' := by
  obtain ⟨-, -, hout, herr⟩ := h
  obtain ⟨-, -, hout', herr'⟩ := h'
  cases output
  cases output'
  cases hout.symm.trans hout'
  cases herr.symm.trans herr'
  rfl

/-- **Nothing is lost in JSON.** A report goes to the output stream as one
line, the line break at its end being the only one, and that line read as JSON
says of the outcome all there is to say and nothing else. So no two outputs
are reported alike. -/
theorem json_reads_back :
    (∀ outcome : Outcome, ∃ line members,
      deliver {} (pieces .json outcome)
          = ({ out := { taken := line ++ [0x0A] } }, .ok ())
        ∧ 0x0A ∉ line
        ∧ Json.read line = .ok (.object members)
        ∧ Says members outcome)
      ∧ Function.Injective fun output : Output =>
          (deliver {} (pieces .json (.ok output))).1.out.taken := by
  have hreads (outcome : Outcome) : ∃ members,
      Json.read (Json.render (toJson outcome)) = .ok (.object members)
        ∧ Says members outcome := by
    have h := read_report outcome (List.forall_mem_nil _)
    rwa [List.append_nil] at h
  constructor
  · intro outcome
    obtain ⟨members, hread, hsays⟩ := hreads outcome
    exact ⟨Json.render (toJson outcome), members, rfl,
      not_mem_render_toJson outcome, hread, hsays⟩
  · intro output output' hsame
    have hline : Json.render (toJson (.ok output))
        = Json.render (toJson (.ok output')) := List.append_cancel_right hsame
    obtain ⟨members, hread, hsays⟩ := hreads (.ok output)
    obtain ⟨members', hread', hsays'⟩ := hreads (.ok output')
    rw [hline, hread'] at hread
    cases hread
    exact hsays.output_unique hsays'

end Report

end Toolrun
