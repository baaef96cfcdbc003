/-
Whether the log can be set up.

Three things can come of it. It is refused, which is reported; or the program
is broken off, which happens only if the log has a file and there is no room
for it in its directory (`prepare_brokenOff`); or it succeeds. A log that could
be set up once can be set up again by another process, as long as the
directories stay and there is room for its file (`prepare_again`). The number
of the process is in the name of the file, so a process with a longer number
may find no room where another has found some. One whose number is no longer
can only find a directory in the place of its file (`not_lacksRoom`).
-/
import Toolrun.Logging
import Toolrun.Proofs.Blank
import Toolrun.Proofs.Directories
import Toolrun.Proofs.Utf8

namespace Toolrun.Logging

variable {files files' after : Files} {cwd : Location} {env : Variables}
  {processId other : Nat} {s : LoggingSettings} {cause : IoFault}

-- ================================================================== paths

/-- There is no room for the log file of a process. -/
def LacksRoom (files : Files) (cwd : Location) (env : Variables)
    (processId : Nat) (s : LoggingSettings) : Prop :=
  s.enabled = true ∧ s.file = true
    ∧ files.LacksRoom cwd (directory env s) (fileName processId)

instance (files : Files) (cwd : Location) (env : Variables) (processId : Nat)
    (s : LoggingSettings) :
    Decidable (LacksRoom files cwd env processId s) :=
  inferInstanceAs (Decidable (_ ∧ _ ∧ _))

theorem slash_not_mem_fileName (processId : Nat) :
    Files.slash ∉ fileName processId := by
  intro hmem
  obtain ⟨c, hc, hbyte⟩ := List.mem_flatMap.1 hmem
  obtain rfl : c = '/' := Utf8.eq_of_mem_utf8EncodeChar rfl (by decide) hbyte
  simp only [String.toList_append, List.mem_append] at hc
  rcases hc with (hc | hc) | hc
  · exact absurd hc (by decide)
  · rw [Numeral.decimal, String.toList_ofList] at hc
    exact absurd (Nat.isDigit_of_mem_toDigits (by decide) (by decide) hc)
      (by decide)
  · exact absurd hc (by decide)

theorem isDown_fileName (processId : Nat) :
    Files.IsDown (fileName processId) := by
  obtain ⟨rest, hname⟩ : ∃ rest, fileName processId = 0x74 :: rest := by
    unfold fileName Utf8.encode
    rw [String.toList_append, String.toList_append, List.append_assoc,
      Utf8.encodeChars_append]
    exact ⟨_, rfl⟩
  rw [hname]
  exact ⟨rfl, by simp, by simp⟩

theorem directory_ne_nil (env : Variables) (s : LoggingSettings) :
    directory env s ≠ [] := by
  unfold directory
  split
  next dir hset =>
    obtain ⟨named, -, hdir⟩ := Option.bind_eq_some_iff.1 hset
    unfold nonBlank? at hdir
    split at hdir
    next => cases hdir
    next hblank =>
      cases hdir
      intro hempty
      have htrimmed : Text.trimChars named.toList = [] := by
        rw [← String.toList_ofList (l := Text.trimChars named.toList)]
        exact congrArg String.toList (Utf8.encode_eq_nil_iff.1 hempty)
      exact hblank (List.all_eq_true.2 (Text.trimChars_eq_nil_iff.1 htrimmed))
  next => exact Files.join_ne_nil (by decide)

-- =============================================================== the file

/-- What comes of the log file: it is refused; or its directory is there, and
then it is opened if there is room for it, and else breaks the program off. -/
theorem makeFile_cases (files : Files) (cwd : Location) (env : Variables)
    (processId : Nat) (s : LoggingSettings) :
    (∃ made fault reason,
        files.makeDirectories cwd (directory env s) = (made, .error fault)
          ∧ makeFile files cwd env processId s
            = (made, .error (.refused reason)))
      ∨ ∃ made, files.makeDirectories cwd (directory env s) = (made, .ok ())
        ∧ if made.LacksRoom cwd (directory env s) (fileName processId) then
            ∃ cause, makeFile files cwd env processId s
              = (made, .error (.brokenOff cause))
          else
            ∃ opened, made.KeepsDirectories opened
              ∧ makeFile files cwd env processId s = (opened, .ok ()) := by
  unfold makeFile
  split
  next made fault hmade => exact .inl ⟨made, fault, _, hmade, rfl⟩
  next made hmade =>
    refine .inr ⟨made, hmade, ?_⟩
    have hroom := Files.openToAppend_join
      (Files.leads_of_makeDirectories (directory_ne_nil env s) hmade)
      (slash_not_mem_fileName processId) (isDown_fileName processId)
    unfold filePath
    split
    next hlacks =>
      cases hopen : made.openToAppend cwd
        (Files.join (directory env s) (fileName processId)) with
      | ok opened => exact absurd hlacks (hroom.1 ⟨opened, hopen⟩)
      | error errno => exact ⟨_, rfl⟩
    next hlacks =>
      obtain ⟨opened, hopen⟩ := hroom.2 hlacks
      refine ⟨opened, Files.keepsDirectories_openToAppend hopen, ?_⟩
      rw [hopen]

/-- A log file that has been made is in its directory, and there was room for
it. -/
theorem makeFile_eq_ok
    (h : makeFile files cwd env processId s = (files', .ok ())) :
    ∃ made, files.makeDirectories cwd (directory env s) = (made, .ok ())
      ∧ ¬ made.LacksRoom cwd (directory env s) (fileName processId)
      ∧ made.KeepsDirectories files' := by
  rcases makeFile_cases files cwd env processId s with
    ⟨made, -, reason, -, hrefused⟩ | ⟨made, hmade, hroom⟩
  · cases hrefused.symm.trans h
  · split at hroom
    next =>
      obtain ⟨cause, hbroken⟩ := hroom
      cases hbroken.symm.trans h
    next hlacks =>
      obtain ⟨opened, hkeeps, hopened⟩ := hroom
      cases hopened.symm.trans h
      exact ⟨made, hmade, hlacks, hkeeps⟩

/-- Where the directory stays, it depends on the room alone what becomes of the
file of another process. -/
theorem makeFile_again
    (h : makeFile files cwd env processId s = (files', .ok ()))
    (hkeeps : files'.KeepsDirectories after) (other : Nat) :
    if after.LacksRoom cwd (directory env s) (fileName other) then
      ∃ cause, makeFile after cwd env other s
        = (after, .error (.brokenOff cause))
    else ∃ made, makeFile after cwd env other s = (made, .ok ()) := by
  obtain ⟨made, hmade, -, hkept⟩ := makeFile_eq_ok h
  have hagain := Files.makeDirectories_again (directory_ne_nil env s) hmade
    (hkept.trans hkeeps)
  rcases makeFile_cases after cwd env other s with
    ⟨again, fault, -, hfault, -⟩ | ⟨again, hthere, hroom⟩
  · cases hagain.symm.trans hfault
  · cases hagain.symm.trans hthere
    split at hroom
    next hlacks =>
      rw [if_pos hlacks]
      exact hroom
    next hlacks =>
      rw [if_neg hlacks]
      obtain ⟨opened, -, hopened⟩ := hroom
      exact ⟨opened, hopened⟩

-- ================================================================ the log

/-- Whether there is anything to do for the log is a matter of the settings and
of the environment: it is refused, or there is nothing to do, or it has a
file. -/
theorem prepare_cases (cwd : Location) (env : Variables)
    (s : LoggingSettings) :
    (∃ reason, ∀ files processId, prepare files cwd env processId s
        = (files, .error (.refused reason)))
      ∨ (¬(s.enabled = true ∧ s.file = true)
        ∧ ∀ files processId, prepare files cwd env processId s
          = (files, .ok ()))
      ∨ (s.enabled = true ∧ s.file = true)
        ∧ ∀ files processId, prepare files cwd env processId s
          = makeFile files cwd env processId s := by
  unfold prepare
  cases hon : s.enabled with
  | false =>
      exact .inr (.inl ⟨fun h => Bool.false_ne_true h.1, fun _ _ => rfl⟩)
  | true =>
      cases checkFilter env s with
      | error reason => exact .inl ⟨reason, fun _ _ => rfl⟩
      | ok done =>
          cases hfile : s.file with
          | true => exact .inr (.inr ⟨⟨rfl, rfl⟩, fun _ _ => rfl⟩)
          | false =>
              cases s.console with
              | true =>
                  exact .inr
                    (.inl ⟨fun h => Bool.false_ne_true h.2, fun _ _ => rfl⟩)
              | false => exact .inl ⟨_, fun _ _ => rfl⟩

/-- The program is broken off only where there is no room for the log file. -/
theorem prepare_brokenOff
    (h : prepare files cwd env processId s
      = (files', .error (.brokenOff cause))) :
    LacksRoom files' cwd env processId s := by
  rcases prepare_cases cwd env s with
    ⟨reason, hrefused⟩ | ⟨-, hdone⟩ | ⟨⟨hon, hfile⟩, hmakes⟩
  · cases (hrefused files processId).symm.trans h
  · cases (hdone files processId).symm.trans h
  · rw [hmakes] at h
    rcases makeFile_cases files cwd env processId s with
      ⟨made, -, reason, -, hrefused⟩ | ⟨made, -, hroom⟩
    · cases hrefused.symm.trans h
    · split at hroom
      next hlacks =>
        obtain ⟨cause, hbroken⟩ := hroom
        cases hbroken.symm.trans h
        exact ⟨hon, hfile, hlacks⟩
      next =>
        obtain ⟨opened, -, hopened⟩ := hroom
        cases hopened.symm.trans h

/-- A log that could be set up can be set up again by another process, as long
as the directories stay and there is room for its file; and if there is none,
that process is broken off. -/
theorem prepare_again
    (h : prepare files cwd env processId s = (files', .ok ()))
    (hkeeps : files'.KeepsDirectories after) (other : Nat) :
    if LacksRoom after cwd env other s then
      ∃ cause, prepare after cwd env other s
        = (after, .error (.brokenOff cause))
    else ∃ made, prepare after cwd env other s = (made, .ok ()) := by
  rcases prepare_cases cwd env s with
    ⟨reason, hrefused⟩ | ⟨hnone, hdone⟩ | ⟨⟨hon, hfile⟩, hmakes⟩
  · cases (hrefused files processId).symm.trans h
  · rw [if_neg fun hlacks => hnone ⟨hlacks.1, hlacks.2.1⟩]
    exact ⟨after, hdone after other⟩
  · rw [hmakes] at h ⊢
    simp only [LacksRoom, hon, hfile, true_and]
    exact makeFile_again h hkeeps other

/-- Where there was room for the file of one process, that of another with a
number no longer only has to find no directory in its place. -/
theorem not_lacksRoom
    (h : prepare files cwd env processId s = (files', .ok ()))
    (hlength : (fileName other).length ≤ (fileName processId).length)
    (hplace : after.leadsToDirectory cwd (filePath env other s) = false) :
    ¬ LacksRoom after cwd env other s := by
  rintro ⟨hon, hfile, hlacks⟩
  rcases prepare_cases cwd env s with
    ⟨reason, hrefused⟩ | ⟨hnone, -⟩ | ⟨-, hmakes⟩
  · cases (hrefused files processId).symm.trans h
  · exact hnone ⟨hon, hfile⟩
  · rw [hmakes] at h
    obtain ⟨made, -, hroom, -⟩ := makeFile_eq_ok h
    unfold Files.LacksRoom at hroom hlacks
    push Not at hroom
    obtain ⟨hpath, hname, -⟩ := hroom
    have hshorter := Files.length_join_le (directory env s) hlength
    rcases hlacks with hlong | hlong | hdirectory
    · omega
    · omega
    · cases hplace.symm.trans hdirectory

end Toolrun.Logging
