/-
The two streams a tool writes to, and what there is one of for each of them: a
reader, a pipe. Two such things are kept apart by the name of their stream, so
that what happens on the one stream leaves the other's alone (`get_set_of_ne`).
-/

namespace Toolrun

/-- The two streams a tool writes to. -/
inductive Stream where
  | stdout
  | stderr
  deriving DecidableEq, Repr

/-- The usual name of a stream. -/
def Stream.name : Stream → String
  | .stdout => "stdout"
  | .stderr => "stderr"

/-- One thing for each stream. -/
structure PerStream (α : Type) where
  stdout : α
  stderr : α
  deriving DecidableEq, Repr

namespace PerStream

variable {α : Type}

/-- What there is for a stream. -/
def get (p : PerStream α) : Stream → α
  | .stdout => p.stdout
  | .stderr => p.stderr

/-- Puts another thing in the place of the one for a stream. -/
def set (p : PerStream α) (stream : Stream) (thing : α) : PerStream α :=
  match stream with
  | .stdout => { p with stdout := thing }
  | .stderr => { p with stderr := thing }

/-- What was put there is there. -/
@[simp] theorem get_set_self (p : PerStream α) (stream : Stream) (thing : α) :
    (p.set stream thing).get stream = thing := by
  cases stream <;> rfl

/-- What there is for the other stream stays. -/
theorem get_set_of_ne (p : PerStream α) {stream other : Stream}
    (hne : other ≠ stream) (thing : α) :
    (p.set stream thing).get other = p.get other := by
  cases stream with
  | stdout =>
      cases other with
      | stdout => exact absurd rfl hne
      | stderr => rfl
  | stderr =>
      cases other with
      | stdout => rfl
      | stderr => exact absurd rfl hne

end PerStream

end Toolrun
