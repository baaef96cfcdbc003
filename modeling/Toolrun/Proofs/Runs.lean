/-
Runs of a machine that takes one event at a time and may refuse it. Readers,
invocations and sessions are such machines, and all of their runs are folds;
what is said here about such a fold serves all three.
-/
import Mathlib.Data.List.Induction

namespace Toolrun.Runs

variable {State Event : Type} {step : State → Event → Option State}

/-- A run is a step and then the run over what is left. -/
theorem cons_eq_some {event : Event} {events : List Event} {s t : State} :
    (event :: events).foldlM step s = some t ↔
      ∃ m, step s event = some m ∧ events.foldlM step m = some t := by
  rw [List.foldlM_cons]
  exact Option.bind_eq_some_iff

/-- A run over two stretches of events comes by the state between them. -/
theorem append_eq_some {first second : List Event} {s t : State} :
    (first ++ second).foldlM step s = some t ↔
      ∃ m, first.foldlM step s = some m ∧ second.foldlM step m = some t := by
  rw [List.foldlM_append]
  exact Option.bind_eq_some_iff

/-- A run over one event is a step. -/
theorem singleton (s : State) (event : Event) :
    [event].foldlM step s = step s event := by
  rw [List.foldlM_cons]
  exact bind_pure (step s event)

/-- What holds before anything has happened and is kept by every step, the
step being added to the events so far, holds after every run. -/
theorem induction {P : List Event → State → Prop} {start : State}
    (hstart : P [] start)
    (hstep : ∀ {events s event t}, events.foldlM step start = some s →
      P events s → step s event = some t → P (events ++ [event]) t) :
    ∀ {events t}, events.foldlM step start = some t → P events t := by
  intro events
  induction events using List.reverseRecOn with
  | nil =>
      intro t hrun
      injection hrun with ht
      exact ht ▸ hstart
  | append_singleton events event ih =>
      intro t hrun
      obtain ⟨s, hs, ht⟩ := append_eq_some.1 hrun
      rw [singleton] at ht
      exact hstep hs (ih hs) ht

end Toolrun.Runs
