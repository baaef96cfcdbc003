/-
Steps that may fail, one after the other. A sequence of them succeeds only if
each one does, and then the result of the one is what the next begins with;
this file says so for two steps and for the two ways of going through a list.
And if it fails, then by the first that does, which is found by looking at
their faults in turn.
-/
import Mathlib.Data.List.Basic

namespace Toolrun.Fallible

variable {ε α β σ : Type}

/-- A result that is there is the one that came of it. -/
theorem eq_ok_of_toOption {x : Except ε α} {a : α} (h : x.toOption = some a) :
    x = .ok a := by
  cases x with
  | error fault => cases h
  | ok b =>
      injection h with h
      rw [h]

/-- Steps that succeed alike go on alike. -/
theorem toOption_bind {x y : Except ε α} {f g : α → Except ε β}
    (h : x.toOption = y.toOption)
    (hrest : ∀ a, (f a).toOption = (g a).toOption) :
    (x >>= f).toOption = (y >>= g).toOption := by
  cases x with
  | error fault =>
      cases y with
      | error fault' => rfl
      | ok b => cases h
  | ok a =>
      cases y with
      | error fault' => cases h
      | ok b =>
          cases h
          exact hrest a

/-- Two steps succeed if each one does. -/
theorem bind_eq_ok {x : Except ε α} {f : α → Except ε β} {b : β} :
    (x >>= f) = .ok b ↔ ∃ a, x = .ok a ∧ f a = .ok b := by
  cases x with
  | error fault =>
      constructor
      · intro h
        cases h
      · rintro ⟨a, h, -⟩
        cases h
  | ok a =>
      constructor
      · intro h
        exact ⟨a, rfl, h⟩
      · rintro ⟨a', ha, h⟩
        injection ha with ha
        subst ha
        exact h

/-- Two steps fail if the first does, or else the second. -/
theorem bind_eq_error {x : Except ε α} {f : α → Except ε β} {fault : ε} :
    (x >>= f) = .error fault
      ↔ x = .error fault ∨ ∃ a, x = .ok a ∧ f a = .error fault := by
  cases x with
  | error fault' => simp [bind, Except.bind]
  | ok a => simp [bind, Except.bind]

/-- A step whose result is put in its place succeeds if the step does. -/
theorem bind_ok_eq_ok {x : Except ε α} {put : α → β} {b : β} :
    (x >>= fun a => .ok (put a)) = .ok b ↔ ∃ a, x = .ok a ∧ b = put a := by
  rw [bind_eq_ok]
  refine exists_congr fun a => and_congr_right fun _ => ?_
  exact ⟨fun h => (Except.ok.inj h).symm, fun h => congrArg _ h.symm⟩

/-- One more step at the end. -/
theorem foldlM_concat_eq_ok {step : σ → α → Except ε σ} {items : List α}
    {item : α} {s t : σ} :
    (items ++ [item]).foldlM step s = .ok t
      ↔ ∃ m, items.foldlM step s = .ok m ∧ step m item = .ok t := by
  have hlast (m : σ) : [item].foldlM step m = step m item := by
    rw [List.foldlM_cons]
    exact bind_pure _
  rw [List.foldlM_append, bind_eq_ok]
  simp only [hlast]

/-- If it depends on the items alone whether a step succeeds, then going
through a list of them succeeds if each one is good. -/
theorem foldlM_ok_iff {step : σ → α → Except ε σ} {good : α → Prop}
    (h : ∀ s item, (∃ t, step s item = .ok t) ↔ good item)
    (items : List α) (s : σ) :
    (∃ t, items.foldlM step s = .ok t) ↔ ∀ item ∈ items, good item := by
  induction items generalizing s with
  | nil => exact iff_of_true ⟨s, rfl⟩ nofun
  | cons item items ih =>
      rw [List.forall_mem_cons, ← h s item]
      simp only [List.foldlM_cons, bind_eq_ok]
      constructor
      · rintro ⟨t, m, hfirst, hothers⟩
        exact ⟨⟨m, hfirst⟩, (ih m).1 ⟨t, hothers⟩⟩
      · rintro ⟨⟨m, hfirst⟩, hothers⟩
        obtain ⟨t, ht⟩ := (ih m).2 hothers
        exact ⟨t, m, hfirst, ht⟩

theorem mapM_cons_eq_ok {f : α → Except ε β} {item : α} {items : List α}
    {results : List β} :
    (item :: items).mapM f = .ok results
      ↔ ∃ b others, f item = .ok b ∧ items.mapM f = .ok others
        ∧ results = b :: others := by
  rw [List.mapM_cons, bind_eq_ok]
  constructor
  · rintro ⟨b, hb, h⟩
    obtain ⟨others, hothers, h⟩ := bind_eq_ok.1 h
    injection h with h
    exact ⟨b, others, hb, hothers, h.symm⟩
  · rintro ⟨b, others, hb, hothers, rfl⟩
    exact ⟨b, hb, bind_eq_ok.2 ⟨others, hothers, rfl⟩⟩

-- ================================================================= faults

/-- Why a step failed, if it did. -/
def fault? : Except ε α → Option ε
  | .error fault => some fault
  | .ok _ => none

theorem fault?_error (fault : ε) :
    fault? (.error fault : Except ε α) = some fault := rfl

theorem fault?_ok (a : α) : fault? (.ok a : Except ε α) = none := rfl

theorem fault?_eq_some {x : Except ε α} {fault : ε} :
    fault? x = some fault ↔ x = .error fault := by
  cases x <;> simp [fault?]

/-- A fault told otherwise is one where there was one. -/
theorem fault?_mapError {δ : Type} (f : ε → δ) (x : Except ε α) :
    fault? (x.mapError f) = (fault? x).map f := by
  cases x <;> rfl

theorem fault?_eq_none {x : Except ε α} : fault? x = none ↔ ∃ a, x = .ok a := by
  cases x <;> simp [fault?]

/-- What is found first is what is found on the first that has something. -/
theorem findSome?_eq_of_find? {f : α → Option β} {l : List α} {a : α}
    (h : l.find? (fun b => (f b).isSome) = some a) : l.findSome? f = f a := by
  induction l with
  | nil => cases h
  | cons b l ih =>
      rw [List.find?_cons] at h
      rw [List.findSome?_cons]
      cases hb : f b with
      | none =>
          rw [hb] at h
          exact ih h
      | some found =>
          rw [hb] at h
          injection h with h
          rw [← h, hb]

end Toolrun.Fallible
