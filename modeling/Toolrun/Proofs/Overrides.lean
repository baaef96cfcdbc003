/-
What a request makes of the settings. Each of its options takes the place of
what was there. Its variables are set one after the other, up to the first
entry that is no pair: by that entry the request fails, and what stands in front
of it is all that is set (`withRequest_eq`).

For a name it is the last of these entries that counts (`sets_insertAll`). So a
request that is put on once more has nothing left to do, and it fails as it did
before (`withRequest_again`).
-/
import Toolrun.Proofs.Preparation

namespace Toolrun

open Fallible (fault?_eq_none fault?_eq_some)

namespace Settings

variable {raws before others : List String} {raw : String}
  {fault : EnvPair.Fault} {r : RunRequest} {s : Settings}

-- ================================================================= entries

/-- Entries all of which are pairs. -/
def ArePairs (raws : List String) : Prop :=
  ∀ raw ∈ raws, ∃ pair, EnvPair.read raw = .ok pair

/-- The first of some entries that is no pair, with those in front of it. -/
structure StopsAt (raws before : List String) (raw : String)
    (fault : EnvPair.Fault) : Prop where
  split : ∃ behind, raws = before ++ raw :: behind
  pairs : ArePairs before
  refused : EnvPair.read raw = .error fault

/-- A table on which entries have been put: a name has the value of the last
entry for it, and without one it has what it had. -/
structure Sets (raws : List String) (old new : EnvTable) : Prop where
  last : ∀ before raw behind name value, raws = before ++ raw :: behind →
    EnvPair.read raw = .ok (name, value) →
    (∀ other ∈ behind, ∀ v, EnvPair.read other ≠ .ok (name, v)) →
    new.get? name = some value
  unset : ∀ name, (∀ raw ∈ raws, ∀ v, EnvPair.read raw ≠ .ok (name, v)) →
    new.get? name = old.get? name

theorem badPair?_eq_none : badPair? raws = none ↔ ArePairs raws := by
  unfold badPair? ArePairs
  rw [List.findSome?_eq_none_iff]
  exact forall₂_congr fun _ _ => fault?_eq_none

theorem badPair?_eq_some :
    badPair? raws = some fault
      ↔ ∃ before raw, StopsAt raws before raw fault := by
  unfold badPair?
  rw [List.findSome?_eq_some_iff]
  constructor
  · rintro ⟨before, raw, behind, hraws, hfault, hbefore⟩
    exact ⟨before, raw, ⟨behind, hraws⟩,
      fun other hother => fault?_eq_none.1 (hbefore other hother),
      fault?_eq_some.1 hfault⟩
  · rintro ⟨before, raw, ⟨behind, hraws⟩, hbefore, hfault⟩
    exact ⟨before, raw, behind, hraws, fault?_eq_some.2 hfault,
      fun other hother => fault?_eq_none.2 (hbefore other hother)⟩

-- =================================================================== pairs

theorem takenPairs_append (h : ArePairs before) (others : List String) :
    takenPairs (before ++ others) = takenPairs before ++ takenPairs others := by
  induction before with
  | nil => rfl
  | cons raw before ih =>
      obtain ⟨⟨pair, hpair⟩, hbefore⟩ := List.forall_mem_cons.1 h
      rw [List.cons_append, takenPairs, takenPairs, hpair]
      exact congrArg _ (ih hbefore)

/-- What is taken are the pairs in front of the entry that is none. -/
theorem StopsAt.takenPairs_eq (h : StopsAt raws before raw fault) :
    takenPairs raws = takenPairs before := by
  obtain ⟨⟨behind, rfl⟩, hbefore, hfault⟩ := h
  have hnone : takenPairs (raw :: behind) = [] := by
    rw [takenPairs, hfault]
  rw [takenPairs_append hbefore, hnone, List.append_nil]

theorem read_of_mem_takenPairs {pair : String × String}
    (h : pair ∈ takenPairs raws) :
    ∃ raw ∈ raws, EnvPair.read raw = .ok pair := by
  induction raws with
  | nil => cases h
  | cons raw others ih =>
      rw [takenPairs] at h
      split at h
      next => cases h
      next first hfirst =>
        rcases List.mem_cons.1 h with rfl | h
        · exact ⟨raw, List.mem_cons_self, hfirst⟩
        · obtain ⟨other, hother, hread⟩ := ih h
          exact ⟨other, List.mem_cons_of_mem _ hother, hread⟩

/-- No pair is taken for a name that no entry is about. -/
theorem lastAssigned?_takenPairs {name : String}
    (h : ∀ raw ∈ raws, ∀ v, EnvPair.read raw ≠ .ok (name, v)) :
    lastAssigned? name (takenPairs raws) = none := by
  refine lastAssigned?_eq_none.2 ?_
  rintro ⟨other, v⟩ hpair rfl
  obtain ⟨raw, hraw, hread⟩ := read_of_mem_takenPairs hpair
  exact h raw hraw v hread

/-- Of the pairs that are taken the last one for a name counts. -/
theorem sets_insertAll (h : ArePairs raws) (t : EnvTable) :
    Sets raws t (t.insertAll (takenPairs raws)) := by
  constructor
  case last =>
    rintro before raw behind name value rfl hread hbehind
    obtain ⟨hbefore, -⟩ := List.forall_mem_append.1 h
    have hraw : takenPairs (raw :: behind)
        = [(name, value)] ++ takenPairs behind := by
      rw [takenPairs, hread]
      rfl
    rw [EnvTable.get?_insertAll, takenPairs_append hbefore, hraw,
      lastAssigned?_append, lastAssigned?_append,
      lastAssigned?_takenPairs hbehind]
    simp [lastAssigned?]
  case unset =>
    intro name hname
    rw [EnvTable.get?_insertAll, lastAssigned?_takenPairs hname]
    rfl

-- ================================================================ requests

/-- The settings of a request, whether or not it fails. -/
theorem withRequest_eq (r : RunRequest) (s : Settings) :
    s.withRequest r
      = ⟨{ runner :=
            ⟨r.tool.getD s.runner.toolPath, r.language.getD s.runner.language⟩
           control :=
            { timeoutMs := r.timeoutMs.getD s.control.timeoutMs
              captureBytes := r.captureBytes.getD s.control.captureBytes
              killGraceMs := s.control.killGraceMs
              workingDir := r.workingDir.or s.control.workingDir
              env := s.control.env.insertAll (takenPairs r.env) }
           logging := s.logging },
          badPair? r.env⟩ := by
  unfold withRequest
  rw [withPairs_eq]
  unfold withOptions
  cases r.workingDir <;> rfl

/-- A request that is put on once more finds everything as it wants it. -/
theorem withRequest_again (r : RunRequest) (s : Settings) :
    (s.withRequest r).settings.withRequest r = s.withRequest r := by
  have hdirectory : r.workingDir.or (r.workingDir.or s.control.workingDir)
      = r.workingDir.or s.control.workingDir := by
    rw [← Option.or_assoc, Option.or_self]
  rw [withRequest_eq r s, withRequest_eq]
  simp only [getD_getD, hdirectory, EnvTable.insertAll_insertAll]

/-- **A request is put on the settings exactly.** It fails just if one of its
entries is no pair, and by the first of these. The entries in front of that, or
all of them, are set in their order, and whatever else it says is put in place
even if it fails; everything it does not speak of stays. Putting it on once
more changes nothing and comes to the same. -/
theorem request_put_exactly (r : RunRequest) (s : Settings) :
    -- how it fails
    ((s.withRequest r).fault? = none ↔ ArePairs r.env)
      ∧ (∀ fault, (s.withRequest r).fault? = some fault
          ↔ ∃ before raw, StopsAt r.env before raw fault)
      ∧ (∀ failure, Plan.requested s r = .error failure
          ↔ ∃ before raw fault, StopsAt r.env before raw fault
            ∧ failure = .config fault.message)
      -- what becomes of the variables
      ∧ (ArePairs r.env →
          Sets r.env s.control.env (s.withRequest r).settings.control.env)
      ∧ (∀ before raw fault, StopsAt r.env before raw fault →
          Sets before s.control.env (s.withRequest r).settings.control.env)
      -- and of everything else
      ∧ (s.withRequest r).settings
          = { runner :=
                ⟨r.tool.getD s.runner.toolPath,
                  r.language.getD s.runner.language⟩
              control :=
                { timeoutMs := r.timeoutMs.getD s.control.timeoutMs
                  captureBytes := r.captureBytes.getD s.control.captureBytes
                  killGraceMs := s.control.killGraceMs
                  workingDir := r.workingDir.or s.control.workingDir
                  env := (s.withRequest r).settings.control.env }
              logging := s.logging }
      ∧ (s.withRequest r).settings.withRequest r = s.withRequest r := by
  have heq := withRequest_eq r s
  refine ⟨?_, fun fault => ?_, fun failure => ?_, ?_, ?_, ?_,
    withRequest_again r s⟩
  · rw [heq]
    exact badPair?_eq_none
  · rw [heq]
    exact badPair?_eq_some
  · rw [Preparation.requested_eq]
    constructor
    · intro h
      split at h
      next fault hfault =>
        obtain ⟨before, raw, hstops⟩ := badPair?_eq_some.1 hfault
        injection h with h
        exact ⟨before, raw, fault, hstops, h.symm⟩
      next => cases h
    · rintro ⟨before, raw, fault, hstops, rfl⟩
      rw [badPair?_eq_some.2 ⟨before, raw, hstops⟩]
  · intro hpairs
    rw [heq]
    exact sets_insertAll hpairs _
  · intro before raw fault hstops
    rw [heq, hstops.takenPairs_eq]
    exact sets_insertAll hstops.pairs _
  · rw [heq]

/-- The second entry for a name has another text in front of its `=`, and the
third comes too late, behind one that is no pair. -/
theorem request_put_exactly_stopped :
    let r : RunRequest :=
      { timeoutMs := some 7, env := ["A=1", " A\t=2", "B", "A=3"] }
    let s : Settings :=
      { control := { env := .ofList [("A", "0"), ("B", "0")] } }
    let after := s.withRequest r
    after.fault? = some (.noEquals "B")
      ∧ after.settings.control.env.get? "A" = some "2"
      ∧ after.settings.control.env.get? "B" = some "0"
      ∧ after.settings.control.timeoutMs = 7
      ∧ after.settings.withRequest r = after := by
  intro r s after
  have hfirst : EnvPair.read "A=1" = .ok ("A", "1") :=
    Fallible.eq_ok_of_toOption (by decide +kernel)
  have hsecond : EnvPair.read " A\t=2" = .ok ("A", "2") :=
    Fallible.eq_ok_of_toOption (by decide +kernel)
  have hstops : StopsAt r.env ["A=1", " A\t=2"] "B" (.noEquals "B") :=
    { split := ⟨["A=3"], rfl⟩
      pairs := List.forall_mem_cons.2 ⟨⟨_, hfirst⟩,
        List.forall_mem_singleton.2 ⟨_, hsecond⟩⟩
      refused := rfl }
  have hother : ∀ raw ∈ ["A=1", " A\t=2"], ∀ v,
      EnvPair.read raw ≠ .ok ("B", v) := by
    refine List.forall_mem_cons.2 ⟨fun v h => ?_,
      List.forall_mem_singleton.2 fun v h => ?_⟩
    · rw [hfirst] at h
      exact absurd h (by simp)
    · rw [hsecond] at h
      exact absurd h (by simp)
  obtain ⟨-, hfault, -, -, hsets, helse, hagain⟩ := request_put_exactly r s
  have hset := hsets _ _ _ hstops
  refine ⟨(hfault _).2 ⟨_, _, hstops⟩, ?_, ?_, ?_, hagain⟩
  · exact hset.last ["A=1"] " A\t=2" [] "A" "2" rfl hsecond nofun
  · rw [hset.unset "B" hother]
    decide +kernel
  · rw [helse]
    rfl

end Settings

end Toolrun
