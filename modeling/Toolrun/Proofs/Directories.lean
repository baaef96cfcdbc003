/-
Making directories, once and a second time, and opening files in them.

Once a path has been made it leads to a directory
(`leads_of_makeDirectories`), and it goes on to do so for as long as no
directory is taken away. Making it again then finds nothing left to make and
changes nothing (`makeDirectories_again`), whatever has become of the files.

In a directory that is there a file can be opened just if there is room for it
(`openToAppend_join`): its name or its path may be too long, or a directory may
stand in its place.
-/
import Mathlib.Data.List.DropRight
import Toolrun.Proofs.Paths

namespace Toolrun.Files

variable {files files' after : Files} {cwd location other start stop : Location}
  {path content : Bytes} {node : Node} {names : List Bytes}

-- ========================================================== what is written

/-- What stands at a location after a node has been put somewhere. -/
theorem at?_set (hne : location ≠ []) :
    (files.set location node).at? other
      = if other = location then some node else files.at? other := by
  by_cases hroot : other = []
  · subst hroot
    rw [if_neg (Ne.symm hne)]
    rfl
  · have hat (files : Files) : files.at? other
        = (files.nodes.find? fun n => n.1 = other).map (·.2) :=
      if_neg (by simpa using hroot)
    have hlocation : files.at? location
        = (files.nodes.find? fun n => n.1 = location).map (·.2) :=
      if_neg (by simpa using hne)
    rw [hat, hat]
    unfold set
    split
    next hthere =>
      have hkeys : (fun n : Location × Node => decide (n.1 = other))
            ∘ (fun n => if n.1 = location then (location, node) else n)
          = fun n => decide (n.1 = other) := by
        funext n
        by_cases hn : n.1 = location <;> simp [hn]
      rw [List.find?_map, hkeys]
      split
      next hsame =>
        subst hsame
        rw [hlocation, Option.isSome_map] at hthere
        obtain ⟨n, hn⟩ := Option.isSome_iff_exists.1 hthere
        have hname : n.1 = other := by simpa using List.find?_some hn
        simp [hn, hname]
      next hother =>
        cases hfind : files.nodes.find? fun n => n.1 = other with
        | none => rfl
        | some n =>
            have hname : n.1 = other := by simpa using List.find?_some hfind
            simp [hname, hother]
    next hnone =>
      rw [hlocation, Option.isSome_map, Bool.not_eq_true,
        Option.isSome_eq_false_iff, Option.isNone_iff_eq_none] at hnone
      rw [List.find?_append]
      split
      next hsame =>
        subst hsame
        rw [hnone]
        simp
      next hother => simp [Ne.symm hother]

/-- What is put where no directory stands takes none away. -/
theorem keepsDirectories_set (h : files.at? location ≠ some .directory) :
    KeepsDirectories files (files.set location node) := by
  have hne : location ≠ [] := by
    rintro rfl
    exact h rfl
  intro other hthere
  have hother : other ≠ location := by
    rintro rfl
    exact h hthere
  rw [at?_set hne, if_neg hother, hthere]

theorem keepsDirectories_write
    (h : files.write cwd path content = .ok files') :
    KeepsDirectories files files' := by
  unfold write at h
  obtain ⟨location, -, h⟩ := Fallible.bind_eq_ok.1 h
  split at h
  next => cases h
  next hfile =>
    cases h
    exact keepsDirectories_set (by simp [hfile])
  next =>
    cases h
    exact .refl files
  next hnone =>
    cases h
    exact keepsDirectories_set (by simp [hnone])

/-- To open a file takes no directory away. -/
theorem keepsDirectories_openToAppend
    (h : files.openToAppend cwd path = .ok files') :
    KeepsDirectories files files' := by
  unfold openToAppend at h
  obtain ⟨location, -, h⟩ := Fallible.bind_eq_ok.1 h
  split at h
  next => cases h
  next =>
    cases h
    exact .refl files
  next hnone =>
    cases h
    exact keepsDirectories_set (by simp [hnone])

-- ======================================================== slashes at the end

theorem parts_slashes (k : Nat) :
    parts (List.replicate k slash) = List.replicate (k + 1) [] := by
  induction k with
  | zero => rfl
  | succ k ih =>
      unfold parts at ih ⊢
      rw [List.replicate_succ, piecesOf_cons_self, ih]
      rfl

/-- Behind the last slash of a path stands a name, or nothing. -/
theorem parts_append_slashes (path : Bytes) (k : Nat) :
    parts (path ++ List.replicate k slash)
      = parts path ++ List.replicate k [] := by
  cases k with
  | zero => simp
  | succ k =>
      have hback := parts_slashes k
      unfold parts at hback ⊢
      rw [List.replicate_succ, piecesOf_append, hback]

/-- A path is what is left of it without the slashes at its end, and these. -/
theorem exists_slashes (path : Bytes) :
    ∃ k, path = withoutEndSlashes path ++ List.replicate k slash := by
  have hsplit : path.rdropWhile (· == slash) ++ path.rtakeWhile (· == slash)
      = path := List.rdropWhile_append_rtakeWhile
  obtain ⟨k, hk⟩ : ∃ k, path.rtakeWhile (· == slash)
      = List.replicate k slash :=
    ⟨_, List.eq_replicate_of_mem fun b hb => by
      simpa using List.mem_rtakeWhile_imp hb⟩
  rw [hk] at hsplit
  unfold withoutEndSlashes
  rw [show (path.reverse.dropWhile (· == slash)).reverse
    = path.rdropWhile (· == slash) from rfl]
  generalize path.rdropWhile (· == slash) = front at hsplit ⊢
  subst hsplit
  cases front with
  | cons b front => exact ⟨k, rfl⟩
  | nil =>
      cases k with
      | zero => exact ⟨0, rfl⟩
      | succ k => exact ⟨k, rfl⟩

/-- A walk goes on from where it has come to. -/
theorem walk_append (files : Files) (start : Location)
    (names others : List Bytes) :
    files.walk start (names ++ others)
      = files.walk start names >>= fun stop => files.walk stop others := by
  induction names generalizing start with
  | nil =>
      rw [walk]
      rfl
  | cons part names ih =>
      rw [List.cons_append, walk_cons, walk_cons, bind_assoc]
      refine bind_congr fun _ => ?_
      rw [bind_assoc]
      exact bind_congr fun next => ih next

/-- Nothing behind a slash leads on from a directory. -/
theorem walk_empty (h : files.at? start = some .directory) (k : Nat) :
    files.walk start (List.replicate k []) = .ok start := by
  induction k with
  | zero => rfl
  | succ k ih =>
      rw [List.replicate_succ]
      exact walk_cons_eq_ok.2 ⟨h, start, rfl, ih⟩

/-- Slashes at the end of a path to a directory lead nowhere else. -/
theorem locate_of_withoutEndSlashes (hlength : path.length < pathLimit)
    (hlocate : files.locate cwd (withoutEndSlashes path) = .ok stop)
    (hstop : files.at? stop = some .directory) :
    files.locate cwd path = .ok stop := by
  obtain ⟨hne, -, hwalk⟩ := locate_eq_ok.1 hlocate
  obtain ⟨k, hk⟩ := exists_slashes path
  generalize withoutEndSlashes path = front at *
  subst hk
  obtain ⟨b, rest, rfl⟩ := List.exists_cons_of_ne_nil hne
  refine locate_eq_ok.2 ⟨List.cons_ne_nil _ _, hlength, ?_⟩
  rw [parts_append_slashes, walk_append]
  show files.walk (startOf cwd (b :: rest)) _ >>= _ = _
  rw [hwalk]
  exact walk_empty hstop k

-- =========================================================== the second time

theorem leadsToDirectory_iff :
    files.leadsToDirectory cwd path = true
      ↔ ∃ stop, files.locate cwd path = .ok stop
        ∧ files.at? stop = some .directory := by
  rw [← find_eq_ok]
  unfold leadsToDirectory
  split
  next hfind => exact iff_of_true rfl hfind
  next hother => exact iff_of_false Bool.false_ne_true hother

theorem leadsToDirectory_of_keeps (hkeeps : KeepsDirectories files files')
    (h : files.leadsToDirectory cwd path = true) :
    files'.leadsToDirectory cwd path = true := by
  obtain ⟨stop, hlocate, hstop⟩ := leadsToDirectory_iff.1 h
  exact leadsToDirectory_iff.2
    ⟨stop, locate_of_keeps hkeeps hlocate, hkeeps stop hstop⟩

/-- A directory that has been made is one, and the others are kept. -/
theorem leads_of_makeDirectory
    (h : files.makeDirectory cwd path = .ok files') :
    files'.leadsToDirectory cwd path = true := by
  unfold makeDirectory at h
  split at h
  next => cases h
  next hlength =>
    obtain ⟨location, hlocate, h⟩ := Fallible.bind_eq_ok.1 h
    split at h
    next => cases h
    next hnone =>
      cases h
      have hkeeps : KeepsDirectories files (files.set location .directory) :=
        keepsDirectories_set (by simp [hnone])
      have hne : location ≠ [] := by
        rintro rfl
        cases hnone
      have hthere : (files.set location .directory).at? location
          = some .directory := by
        rw [at?_set hne, if_pos rfl]
      refine leadsToDirectory_iff.2 ⟨location, ?_, hthere⟩
      exact locate_of_withoutEndSlashes (Nat.lt_of_not_le hlength)
        (locate_of_keeps hkeeps hlocate) hthere

theorem leads_of_ensureDirectory
    (h : files.ensureDirectory cwd path = .ok files') :
    files'.leadsToDirectory cwd path = true := by
  unfold ensureDirectory at h
  split at h
  next made hmade =>
    cases h
    exact leads_of_makeDirectory hmade
  next errno hmade =>
    split at h
    next hleads =>
      cases h
      exact hleads
    next => cases h

/-- A path that has been made leads to a directory, unless it is empty. -/
theorem leads_of_makeDirectoriesWithin {fuel : Nat}
    (h : files.makeDirectoriesWithin fuel cwd path = (files', .ok ())) :
    path = [] ∨ files'.leadsToDirectory cwd path = true := by
  cases fuel with
  | zero => cases h
  | succ fuel =>
      unfold makeDirectoriesWithin at h
      split at h
      next hempty => exact .inl (List.isEmpty_iff.1 hempty)
      next =>
        refine .inr ?_
        split at h
        next made hmade =>
          cases h
          exact leads_of_ensureDirectory hmade
        next =>
          split at h
          next =>
            split at h
            next => cases h
            next =>
              split at h
              next => cases h
              next =>
                split at h
                next made hmade =>
                  cases h
                  exact leads_of_ensureDirectory hmade
                next => cases h
          next => cases h

theorem leads_of_makeDirectories (hpath : path ≠ [])
    (h : files.makeDirectories cwd path = (files', .ok ())) :
    files'.leadsToDirectory cwd path = true := by
  unfold makeDirectories at h
  split at h
  next => cases h
  next =>
    split at h
    next made hmade =>
      cases h
      exact (leads_of_makeDirectoriesWithin hmade).resolve_left hpath
    next => cases h

/-- Where there is a directory none is made. -/
theorem makeDirectory_of_leads (h : files.leadsToDirectory cwd path = true) :
    ∃ errno, files.makeDirectory cwd path = .error errno := by
  obtain ⟨stop, hlocate, hstop⟩ := leadsToDirectory_iff.1 h
  obtain ⟨-, -, hwalk⟩ := locate_eq_ok.1 hlocate
  unfold makeDirectory
  split
  next => exact ⟨_, rfl⟩
  next =>
    cases hfront : files.locate cwd (withoutEndSlashes path) with
    | error errno => exact ⟨errno, rfl⟩
    | ok location =>
        -- the slashes at the end lead on from there, so something is there
        obtain ⟨hne, -, hbefore⟩ := locate_eq_ok.1 hfront
        have hthere : files.at? location ≠ none := by
          obtain ⟨k, hk⟩ := exists_slashes path
          generalize withoutEndSlashes path = front at *
          subst hk
          obtain ⟨b, rest, rfl⟩ := List.exists_cons_of_ne_nil hne
          have hrest :
              files.walk location (List.replicate k []) = .ok stop := by
            rw [parts_append_slashes, walk_append] at hwalk
            obtain ⟨middle, hmiddle, hrest⟩ := Fallible.bind_eq_ok.1 hwalk
            cases hbefore.symm.trans hmiddle
            exact hrest
          cases k with
          | zero =>
              cases hrest
              rw [hstop]
              exact Option.some_ne_none _
          | succ k =>
              rw [List.replicate_succ] at hrest
              rw [(walk_cons_eq_ok.1 hrest).1]
              exact Option.some_ne_none _
        refine ⟨.alreadyThere, ?_⟩
        simp only [bind, Except.bind]
        split
        next => rfl
        next hnone => exact absurd hnone hthere

/-- Where there is a directory nothing is left to make. -/
theorem makeDirectories_of_leads (hpath : checkPath path = .ok ())
    (h : files.leadsToDirectory cwd path = true) :
    files.makeDirectories cwd path = (files, .ok ()) := by
  have hensure : files.ensureDirectory cwd path = .ok files := by
    obtain ⟨errno, herror⟩ := makeDirectory_of_leads h
    unfold ensureDirectory
    rw [herror]
    exact if_pos h
  have hwithin : files.makeDirectoriesWithin (depth path) cwd path
      = (files, .ok ()) := by
    unfold depth makeDirectoriesWithin
    rw [hensure]
    split
    next => rfl
    next => rfl
  unfold makeDirectories
  rw [hpath]
  simp only [hwithin]

/-- So what has been made once is made again, as long as the directories
stay. -/
theorem makeDirectories_again (hpath : path ≠ [])
    (h : files.makeDirectories cwd path = (files', .ok ()))
    (hkeeps : KeepsDirectories files' after) :
    after.makeDirectories cwd path = (after, .ok ()) := by
  refine makeDirectories_of_leads ?_
    (leadsToDirectory_of_keeps hkeeps (leads_of_makeDirectories hpath h))
  unfold makeDirectories at h
  split at h
  next => cases h
  next hcheck => exact hcheck

-- =================================================== files in directories

/-- There is no room for a file in a directory: its path or its name is too
long, or a directory stands in its place. -/
def LacksRoom (files : Files) (cwd : Location) (path name : Bytes) : Prop :=
  pathLimit ≤ (join path name).length ∨ longestName < name.length
    ∨ files.leadsToDirectory cwd (join path name) = true

instance (files : Files) (cwd : Location) (path name : Bytes) :
    Decidable (LacksRoom files cwd path name) :=
  inferInstanceAs (Decidable (_ ∨ _ ∨ _))

/-- A path that is joined with a name leads where the name leads from the end
of the path. -/
theorem walk_join (h : files.leadsToDirectory cwd path = true) {name : Bytes}
    (hname : slash ∉ name) :
    ∃ above, files.at? above = some .directory
      ∧ files.walk (startOf cwd (join path name)) (parts (join path name))
        = files.walk above [name] := by
  obtain ⟨stop, hlocate, hstop⟩ := leadsToDirectory_iff.1 h
  obtain ⟨hne, -, hwalk⟩ := locate_eq_ok.1 hlocate
  have hlast : parts name = [name] := piecesOf_of_not_mem hname
  have hstart (more : Bytes) :
      startOf cwd (path ++ more) = startOf cwd path := by
    obtain ⟨b, rest, rfl⟩ := List.exists_cons_of_ne_nil hne
    rfl
  have hparts (before : Bytes) :
      parts (before ++ slash :: name) = parts before ++ [name] := by
    rw [← hlast]
    exact piecesOf_append before name
  refine ⟨stop, hstop, ?_⟩
  unfold join
  cases hpath : path.getLast? with
  | none => exact absurd (List.getLast?_eq_none_iff.1 hpath) hne
  | some last =>
      by_cases hslash : last = slash
      · -- a slash at the end of the path leads nowhere else
        obtain ⟨before, rfl⟩ := List.getLast?_eq_some_iff.1 hpath
        subst hslash
        have hback : parts (before ++ [slash]) = parts before ++ [[]] :=
          piecesOf_append before []
        rw [hback, walk_append] at hwalk
        obtain ⟨middle, hmiddle, hend⟩ := Fallible.bind_eq_ok.1 hwalk
        obtain ⟨-, next, hnext, hwalked⟩ := walk_cons_eq_ok.1 hend
        cases hnext
        cases hwalked
        simp only [if_true]
        rw [hstart, List.append_assoc, List.singleton_append, hparts,
          walk_append, hmiddle]
        rfl
      · simp only [hslash, if_false]
        rw [hstart, hparts, walk_append, hwalk]
        rfl

/-- A file in a directory is located if neither its path nor its name is too
long. -/
theorem locate_join (h : files.leadsToDirectory cwd path = true) {name : Bytes}
    (hname : slash ∉ name) (hdown : IsDown name) :
    ∃ above, ∀ stop, files.locate cwd (join path name) = .ok stop
      ↔ (join path name).length < pathLimit ∧ name.length ≤ longestName
        ∧ above ++ [name] = stop := by
  obtain ⟨above, hdirectory, hwalk⟩ := walk_join h hname
  have hne : join path name ≠ [] := join_ne_nil fun hempty => by
    have hnonempty := hdown.nonempty
    rw [hempty] at hnonempty
    cases hnonempty
  have honward : onward above name
      = if longestName < name.length then .error .nameTooLong
        else .ok (above ++ [name]) := by
    unfold onward
    simp [hdown.nonempty, hdown.notHere, hdown.notUp]
  refine ⟨above, fun stop => ?_⟩
  rw [locate_eq_ok, hwalk, walk_cons_eq_ok, honward]
  simp only [hne, hdirectory, ne_eq, not_false_eq_true, true_and]
  refine and_congr_right fun _ => ?_
  by_cases hlength : name.length ≤ longestName
  · simp [hlength, Nat.not_lt.2 hlength, walk]
  · simp [hlength, Nat.not_le.1 hlength]

/-- A file can be opened in a directory just if there is room for it. -/
theorem openToAppend_join (h : files.leadsToDirectory cwd path = true)
    {name : Bytes} (hname : slash ∉ name) (hdown : IsDown name) :
    (∃ made, files.openToAppend cwd (join path name) = .ok made)
      ↔ ¬ files.LacksRoom cwd path name := by
  obtain ⟨above, hlocate⟩ := locate_join h hname hdown
  have hopen : (∃ made, files.openToAppend cwd (join path name) = .ok made)
      ↔ ∃ stop, files.locate cwd (join path name) = .ok stop
        ∧ files.at? stop ≠ some .directory := by
    unfold openToAppend
    simp only [Fallible.bind_eq_ok]
    rw [exists_comm]
    refine exists_congr fun stop => ?_
    rw [exists_and_left]
    refine and_congr_right fun _ => ?_
    split
    next hthere => simp [hthere]
    next hother hthere => simpa [hthere] using hother
    next hnone => simp [hnone]
  rw [hopen]
  unfold LacksRoom
  rw [leadsToDirectory_iff]
  simp only [hlocate]
  push Not
  constructor
  · rintro ⟨stop, ⟨hpath, hlength, rfl⟩, hthere⟩
    refine ⟨hpath, hlength, ?_⟩
    rintro stop ⟨-, -, rfl⟩
    exact hthere
  · rintro ⟨hpath, hlength, hthere⟩
    exact ⟨_, ⟨hpath, hlength, rfl⟩, hthere _ ⟨hpath, hlength, rfl⟩⟩

-- ============================================================ saved files

/-- A file has been written since, and no directory has been taken away. -/
structure Saved (files files' : Files) (cwd : Location) (path content : Bytes) :
    Prop where
  keeps : KeepsDirectories files files'
  reads : files'.read cwd path = .ok content

/-- Writing saves, unless what is written to is something other than a
file. -/
theorem saved_of_write (hpath : checkPath path = .ok ())
    (h : files.write cwd path content = .ok files')
    (hfile : ∀ node, files.find cwd path = .ok node →
      ∃ before mode, node = .file before mode) :
    Saved files files' cwd path content := by
  have hkeeps := keepsDirectories_write h
  refine ⟨hkeeps, ?_⟩
  unfold write at h
  obtain ⟨location, hlocate, h⟩ := Fallible.bind_eq_ok.1 h
  have hlocate' : files'.locate cwd path = .ok location :=
    locate_of_keeps hkeeps hlocate
  have hread {mode : Nat} (hroot : files.at? location ≠ some .directory)
      (hset : files.set location (.file content mode) = files') :
      files'.read cwd path = .ok content := by
    have hlocation : location ≠ [] := by
      rintro rfl
      exact hroot rfl
    have hthere : files'.at? location = some (.file content mode) := by
      rw [← hset, at?_set hlocation, if_pos rfl]
    unfold read
    rw [hpath, find_eq_ok.2 ⟨location, hlocate', hthere⟩]
  split at h
  next => cases h
  next before mode hthere => exact hread (by simp [hthere]) (Except.ok.inj h)
  next node _ hother hthere =>
    obtain ⟨before, mode, rfl⟩ := hfile node
      (find_eq_ok.2 ⟨location, hlocate, hthere⟩)
    exact absurd rfl (hother before mode)
  next hnone => exact hread (by simp [hnone]) (Except.ok.inj h)

end Toolrun.Files
