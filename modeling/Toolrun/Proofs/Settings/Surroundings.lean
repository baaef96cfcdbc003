/-
The two layers that do not depend on the command, put on more than once.

A place for the log files is only looked for where there is none, and the one
that is found counts from then on (`hasPlace_withDataDir`); the environment sets
what it has something to say about, whatever was there. So each of them has
nothing left to do once it has been put on, and as they change different
fields it does not matter which comes first.
-/
import Toolrun.Proofs.Preparation
import Toolrun.Proofs.Utf8

namespace Toolrun

namespace Files

/-- A text continued by a name is a text that ends in the name. -/
theorem exists_join (path name : String) :
    ∃ front, join (Utf8.encode path) (Utf8.encode name)
      = Utf8.encode (front ++ name) := by
  have happend (s t : String) :
      Utf8.encode s ++ Utf8.encode t = Utf8.encode (s ++ t) := by
    simp [Utf8.encode, Utf8.encodeChars]
  unfold join
  split
  next hnone =>
    exact ⟨"", by rw [String.empty_append]⟩
  next b hlast =>
    split
    next => exact ⟨path, happend path name⟩
    next =>
      refine ⟨path ++ "/", ?_⟩
      rw [← happend, ← happend, List.append_assoc]
      rfl

end Files

namespace Settings

variable {env : Variables} {s s' : Settings} {dir : Bytes}

-- ====================================================== the log directory

/-- A log directory is set. -/
def HasPlace (s : Settings) : Prop :=
  (s.logging.directory.bind nonBlank?).isSome = true

theorem withDataDir_of_hasPlace (h : s.HasPlace) : s.withDataDir dir = s :=
  if_pos h

theorem withHome_of_hasPlace (h : s.HasPlace) : s.withHome env = s := by
  unfold withHome
  split
  next => exact withDataDir_of_hasPlace h
  next => rfl

/-- The directory for the program's own files has a name that is text. -/
theorem exists_dataDir (h : dataDir? env = some dir) :
    ∃ text, dir = Utf8.encode text := by
  obtain ⟨home, -, rfl⟩ := Option.map_eq_some_iff.1 h
  obtain ⟨front, hjoin⟩ := Files.exists_join home ".toolrun"
  exact ⟨_, hjoin⟩

/-- Where there is a home directory there is a place for log files. -/
theorem hasPlace_withDataDir (text : String) (s : Settings) :
    (s.withDataDir (Utf8.encode text)).HasPlace := by
  unfold withDataDir
  split
  next h => exact h
  next =>
    obtain ⟨front, hjoin⟩ := Files.exists_join text "logs"
    have hblank : Text.isAllBlank (front ++ "logs") = false := by
      unfold Text.isAllBlank
      rw [String.toList_append, List.all_append]
      exact Bool.and_false _
    unfold HasPlace
    simp [hjoin, Utf8.decodeLossy_encode, nonBlank?, hblank]

theorem withHome_withHome (env : Variables) (s : Settings) :
    (s.withHome env).withHome env = s.withHome env := by
  cases hdir : dataDir? env with
  | none =>
      unfold withHome
      rw [hdir]
  | some dir =>
      obtain ⟨text, rfl⟩ := exists_dataDir hdir
      have hplace : (s.withHome env).HasPlace := by
        unfold withHome
        rw [hdir]
        exact hasPlace_withDataDir text s
      exact withHome_of_hasPlace hplace

-- ======================================================== the environment

/-- Whether the environment can be taken over does not depend on the
settings. -/
theorem withVariables_get (env : Variables) (s : Settings) :
    (s.withVariables env).get
      = match badTimeout? env with
        | some fault => .error fault
        | none => .ok (s.overlaid env) := by
  rw [withVariables_eq]
  unfold Layered.get
  cases badTimeout? env <;> rfl

theorem overlaid_overlaid (env : Variables) (s : Settings) :
    (s.overlaid env).overlaid env = s.overlaid env := by
  unfold overlaid
  simp only [getD_getD]

theorem withHome_overlaid (env : Variables) (s : Settings) :
    (s.overlaid env).withHome env = (s.withHome env).overlaid env := by
  unfold withHome withDataDir overlaid
  split
  next =>
    split
    next => rfl
    next => rfl
  next => rfl

-- ============================================================ both of them

/-- In which order the two are put on makes no difference. -/
theorem withHome_withVariables (env : Variables) (s : Settings) :
    (s.withVariables env).get.map (·.withHome env)
      = ((s.withHome env).withVariables env).get := by
  rw [withVariables_get, withVariables_get]
  cases badTimeout? env with
  | some fault => rfl
  | none => exact congrArg _ (withHome_overlaid env s)

/-- Once they have been put on they have nothing left to do. -/
theorem withSurroundings_again (h : s.withSurroundings env = .ok s') :
    s'.withSurroundings env = .ok s' := by
  unfold withSurroundings at h ⊢
  rw [withVariables_get] at h ⊢
  cases hbad : badTimeout? env with
  | some fault =>
      rw [hbad] at h
      cases h
  | none =>
      rw [hbad] at h
      cases h
      simp only
      rw [withHome_overlaid, withHome_withHome, overlaid_overlaid]

end Settings

end Toolrun
