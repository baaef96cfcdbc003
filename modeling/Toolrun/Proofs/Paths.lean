/-
Following a path, which goes one name at a time (`Files.walk_cons`) and fails
in three ways (`Files.Loses`).

It looks at no more than the directories on the way and what stands at the
end. So a change at a single location, which is no directory, does not show to
a path that ends elsewhere (`Files.find_eq_of_agree`); and where a path ends
can be told from its last name (`Files.walk_last`), which is the name it was
joined with (`Files.parts_join`).
-/
import Mathlib.Data.List.Basic
import Toolrun.Proofs.Fallible
import Toolrun.System.Files

namespace Toolrun

-- ================================================================= pieces

section Pieces

variable {α : Type} [BEq α] {separator : α}

theorem exists_piecesOf_eq (items : List α) :
    ∃ first others, piecesOf separator items = first :: others := by
  cases items with
  | nil => exact ⟨[], [], rfl⟩
  | cons x items =>
      unfold piecesOf
      rw [List.foldr_cons]
      split
      · exact ⟨_, _, rfl⟩
      · split
        · exact ⟨_, _, rfl⟩
        · exact ⟨_, _, rfl⟩

variable [LawfulBEq α]

theorem piecesOf_cons_self (items : List α) :
    piecesOf separator (separator :: items)
      = [] :: piecesOf separator items := by
  unfold piecesOf
  rw [List.foldr_cons, if_pos (beq_self_eq_true separator)]

/-- Anything else belongs to the first piece. -/
theorem piecesOf_cons_of_ne {x : α} (hne : x ≠ separator) {items first : List α}
    {others : List (List α)}
    (h : piecesOf separator items = first :: others) :
    piecesOf separator (x :: items) = (x :: first) :: others := by
  unfold piecesOf at h ⊢
  rw [List.foldr_cons, h, if_neg (by simpa using hne)]

/-- A separator divides the pieces before it from those behind it. -/
theorem piecesOf_append (front back : List α) :
    piecesOf separator (front ++ separator :: back)
      = piecesOf separator front ++ piecesOf separator back := by
  induction front with
  | nil => exact piecesOf_cons_self back
  | cons x front ih =>
      by_cases hx : x = separator
      · subst hx
        rw [List.cons_append, piecesOf_cons_self, piecesOf_cons_self, ih]
        rfl
      · obtain ⟨first, others, hfront⟩ :=
          @exists_piecesOf_eq _ _ separator front
        rw [hfront] at ih
        rw [List.cons_append, piecesOf_cons_of_ne hx ih,
          piecesOf_cons_of_ne hx hfront]
        rfl

theorem piecesOf_of_not_mem {items : List α} (h : separator ∉ items) :
    piecesOf separator items = [items] := by
  induction items with
  | nil => rfl
  | cons x items ih =>
      rw [List.mem_cons, not_or] at h
      exact piecesOf_cons_of_ne (Ne.symm h.1) (ih h.2)

theorem not_mem_of_mem_piecesOf {items piece : List α}
    (h : piece ∈ piecesOf separator items) : separator ∉ piece := by
  induction items generalizing piece with
  | nil =>
      rw [List.mem_singleton.1 h]
      exact List.not_mem_nil
  | cons x items ih =>
      obtain ⟨first, others, hitems⟩ :=
        @exists_piecesOf_eq _ _ separator items
      by_cases hx : x = separator
      · subst hx
        rw [piecesOf_cons_self] at h
        rcases List.mem_cons.1 h with rfl | h
        · exact List.not_mem_nil
        · exact ih h
      · rw [piecesOf_cons_of_ne hx hitems] at h
        rw [hitems] at ih
        rcases List.mem_cons.1 h with rfl | h
        · rw [List.mem_cons, not_or]
          exact ⟨Ne.symm hx, ih List.mem_cons_self⟩
        · exact ih (List.mem_cons_of_mem first h)

/-- The pieces with the separators between them are what was divided. -/
theorem intercalate_piecesOf (items : List α) :
    [separator].intercalate (piecesOf separator items) = items := by
  induction items with
  | nil => exact List.intercalate_singleton
  | cons x items ih =>
      obtain ⟨first, others, hitems⟩ :=
        @exists_piecesOf_eq _ _ separator items
      rw [hitems] at ih
      by_cases hx : x = separator
      · subst hx
        rw [piecesOf_cons_self, hitems, List.intercalate_cons_cons, ih]
        rfl
      · rw [piecesOf_cons_of_ne hx hitems]
        cases others with
        | nil =>
            rw [List.intercalate_singleton] at ih ⊢
            rw [ih]
        | cons second others =>
            rw [List.intercalate_cons_cons] at ih ⊢
            rw [← ih]
            rfl

/-- Nothing else is divided into these pieces. -/
theorem piecesOf_intercalate {pieces : List (List α)} (hne : pieces ≠ [])
    (h : ∀ piece ∈ pieces, separator ∉ piece) :
    piecesOf separator ([separator].intercalate pieces) = pieces := by
  induction pieces with
  | nil => exact absurd rfl hne
  | cons first others ih =>
      obtain ⟨hfirst, hothers⟩ := List.forall_mem_cons.1 h
      cases others with
      | nil => rw [List.intercalate_singleton, piecesOf_of_not_mem hfirst]
      | cons second others =>
          have ih := ih (List.cons_ne_nil second others) hothers
          rw [List.intercalate_cons_cons, List.append_assoc,
            List.singleton_append, piecesOf_append, piecesOf_of_not_mem hfirst,
            ih]
          rfl

end Pieces

namespace Files

-- ================================================================== names

/-- The last name of a path is the one it was joined with. -/
theorem parts_join (path : Bytes) {name : Bytes} (hname : slash ∉ name) :
    ∃ above, parts (join path name) = above ++ [name] := by
  have hlast : parts name = [name] := piecesOf_of_not_mem hname
  unfold join
  cases hpath : path.getLast? with
  | none => exact ⟨[], hlast⟩
  | some last =>
      by_cases hslash : last = slash
      · obtain ⟨before, rfl⟩ := List.getLast?_eq_some_iff.1 hpath
        refine ⟨parts before, ?_⟩
        simp only [hslash, if_true, List.append_assoc, ← hlast]
        exact piecesOf_append before name
      · refine ⟨parts path, ?_⟩
        simp only [hslash, if_false, ← hlast]
        exact piecesOf_append path name

/-- A path that is joined with a name has at least that. -/
theorem join_ne_nil {path name : Bytes} (hname : name ≠ []) :
    join path name ≠ [] := by
  unfold join
  split
  next => exact hname
  next =>
    split
    next => exact List.append_ne_nil_of_right_ne_nil _ hname
    next => exact List.append_ne_nil_of_right_ne_nil _ (List.cons_ne_nil _ _)

theorem length_join_le (path : Bytes) {name other : Bytes}
    (h : other.length ≤ name.length) :
    (join path other).length ≤ (join path name).length := by
  unfold join
  split
  next => exact h
  next =>
    split
    next => simpa using h
    next => simpa using h

variable {files files' : Files} {cwd hole start stop : Location} {path : Bytes}

-- ================================================================== walks

theorem expectDirectory_eq_ok :
    files.expectDirectory start = .ok ()
      ↔ files.at? start = some .directory := by
  unfold expectDirectory
  split
  next hthere => exact iff_of_true rfl hthere
  next hother hthere =>
    refine iff_of_false (fun h => nomatch h) fun hdirectory => ?_
    exact hother (Option.some.inj (hthere.symm.trans hdirectory))
  next hnone => exact iff_of_false (fun h => nomatch h) (by simp [hnone])

/-- Where one name leads from a directory. -/
def onward (location : Location) (part : Bytes) : Except Errno Location :=
  if part.isEmpty || part = [0x2E] then .ok location
  else if part = [0x2E, 0x2E] then .ok location.dropLast
  else if longestName < part.length then .error .nameTooLong
  else .ok (location ++ [part])

/-- A walk takes one name after the other, each from a directory. -/
theorem walk_cons (files : Files) (start : Location) (part : Bytes)
    (names : List Bytes) :
    files.walk start (part :: names)
      = files.expectDirectory start >>= fun _ =>
          onward start part >>= fun next => files.walk next names := by
  rw [walk]
  cases files.expectDirectory start with
  | error errno => rfl
  | ok _ =>
      simp only [bind, Except.bind, onward]
      split_ifs <;> rfl

theorem walk_cons_eq_ok {part : Bytes} {names : List Bytes} :
    files.walk start (part :: names) = .ok stop
      ↔ files.at? start = some .directory
        ∧ ∃ next, onward start part = .ok next
          ∧ files.walk next names = .ok stop := by
  rw [walk_cons, Fallible.bind_eq_ok]
  simp only [Fallible.bind_eq_ok, ← expectDirectory_eq_ok]
  exact ⟨fun ⟨_, h⟩ => h, fun h => ⟨(), h⟩⟩

/-- A name that leads down. -/
structure IsDown (name : Bytes) : Prop where
  nonempty : name.isEmpty = false
  notHere : name ≠ [0x2E]
  notUp : name ≠ [0x2E, 0x2E]

/-- A walk ends at its last name, if that leads down. -/
theorem walk_last {name : Bytes} (hname : IsDown name) :
    ∀ {names : List Bytes} {start : Location},
      files.walk start (names ++ [name]) = .ok stop →
        ∃ above, stop = above ++ [name] := by
  intro names
  induction names with
  | nil =>
      intro start h
      obtain ⟨-, next, hnext, hstop⟩ := walk_cons_eq_ok.1 h
      unfold onward at hnext
      simp only [hname.nonempty, hname.notHere, hname.notUp, Bool.false_or,
        decide_false, Bool.false_eq_true, if_false] at hnext
      split at hnext
      next => cases hnext
      next =>
        cases hnext
        cases hstop
        exact ⟨start, rfl⟩
  | cons part names ih =>
      intro start h
      obtain ⟨-, next, -, hwalk⟩ := walk_cons_eq_ok.1 h
      exact ih hwalk

theorem locate_eq_ok :
    files.locate cwd path = .ok stop
      ↔ path ≠ [] ∧ path.length < pathLimit
        ∧ files.walk (startOf cwd path) (parts path) = .ok stop := by
  unfold locate
  split
  next hempty => simp_all
  next hempty =>
    split
    next hlong => simp [Nat.not_lt.2 hlong]
    next hlong => simp_all

theorem find_eq_ok {node : Node} :
    files.find cwd path = .ok node
      ↔ ∃ stop, files.locate cwd path = .ok stop
        ∧ files.at? stop = some node := by
  unfold find
  rw [Fallible.bind_eq_ok]
  refine exists_congr fun stop => and_congr_right fun _ => ?_
  cases files.at? stop <;> simp

-- =============================================================== lost paths

/-- The ways in which following a path fails. -/
inductive Loses : Errno → Prop where
  | missing : Loses .noEntry
  | throughFile : Loses .notDirectory
  | tooLong : Loses .nameTooLong

theorem loses_of_expectDirectory {e : Errno}
    (h : files.expectDirectory start = .error e) : Loses e := by
  unfold expectDirectory at h
  split at h
  next => cases h
  next =>
    cases h
    exact .throughFile
  next =>
    cases h
    exact .missing

theorem loses_of_onward {part : Bytes} {e : Errno}
    (h : onward start part = .error e) : Loses e := by
  unfold onward at h
  split_ifs at h
  cases h
  exact .tooLong

theorem loses_of_walk {names : List Bytes} {e : Errno}
    (h : files.walk start names = .error e) : Loses e := by
  induction names generalizing start with
  | nil => cases h
  | cons part names ih =>
      rw [walk_cons, Fallible.bind_eq_error] at h
      rcases h with hdirectory | ⟨-, -, h⟩
      · exact loses_of_expectDirectory hdirectory
      · rcases Fallible.bind_eq_error.1 h with hpart | ⟨next, -, hwalk⟩
        · exact loses_of_onward hpart
        · exact ih hwalk

theorem loses_of_find {e : Errno} (h : files.find cwd path = .error e) :
    Loses e := by
  unfold find at h
  rcases Fallible.bind_eq_error.1 h with hlocate | ⟨stop, -, hstop⟩
  · unfold locate at hlocate
    split_ifs at hlocate
    · cases hlocate
      exact .missing
    · cases hlocate
      exact .tooLong
    · exact loses_of_walk hlocate
  · split at hstop
    next => cases hstop
    next =>
      cases hstop
      exact .missing

-- ============================================================== agreement

/-- Two file trees that have the same everywhere but at one location. -/
def AgreeExcept (hole : Location) (files files' : Files) : Prop :=
  ∀ location, location ≠ hole → files'.at? location = files.at? location

/-- What is a directory in one tree is a directory in another. -/
def KeepsDirectories (files files' : Files) : Prop :=
  ∀ location, files.at? location = some .directory →
    files'.at? location = some .directory

theorem KeepsDirectories.refl (files : Files) : KeepsDirectories files files :=
  fun _ h => h

theorem KeepsDirectories.trans {files'' : Files}
    (h : KeepsDirectories files files') (h' : KeepsDirectories files' files'') :
    KeepsDirectories files files'' :=
  fun location hthere => h' location (h location hthere)

/-- A change at a single location keeps all directories, if there is none at
the hole. -/
theorem keepsDirectories_of_agree (hagree : AgreeExcept hole files files')
    (hhole : files.at? hole ≠ some .directory) :
    KeepsDirectories files files' := by
  intro location hthere
  have hne : location ≠ hole := by
    rintro rfl
    exact hhole hthere
  rw [hagree location hne, hthere]

/-- A walk leads to the same end where the directories are kept. -/
theorem walk_of_keeps (hkeeps : KeepsDirectories files files')
    {names : List Bytes} (h : files.walk start names = .ok stop) :
    files'.walk start names = .ok stop := by
  induction names generalizing start with
  | nil =>
      rw [walk] at h ⊢
      exact h
  | cons part names ih =>
      obtain ⟨hdirectory, next, hnext, hwalk⟩ := walk_cons_eq_ok.1 h
      exact walk_cons_eq_ok.2
        ⟨hkeeps start hdirectory, next, hnext, ih hwalk⟩

theorem locate_of_keeps (hkeeps : KeepsDirectories files files')
    (h : files.locate cwd path = .ok stop) :
    files'.locate cwd path = .ok stop := by
  obtain ⟨hpath, hlength, hwalk⟩ := locate_eq_ok.1 h
  exact locate_eq_ok.2 ⟨hpath, hlength, walk_of_keeps hkeeps hwalk⟩

/-- What is found at the end of a path is found there in the other tree too,
if the path has a last name that is not the hole's. -/
theorem find_eq_of_agree {above : Location} {last name : Bytes} {node : Node}
    {names : List Bytes}
    (hagree : AgreeExcept (above ++ [last]) files files')
    (hhole : files.at? (above ++ [last]) ≠ some .directory)
    (hname : IsDown name) (hne : name ≠ last)
    (hparts : parts path = names ++ [name])
    (h : files.find cwd path = .ok node) :
    files'.find cwd path = .ok node := by
  obtain ⟨stop, hlocate, hfound⟩ := find_eq_ok.1 h
  obtain ⟨-, -, hwalk⟩ := locate_eq_ok.1 hlocate
  have hstop : stop ≠ above ++ [last] := by
    rw [hparts] at hwalk
    obtain ⟨above', rfl⟩ := walk_last hname hwalk
    intro hsame
    exact hne (List.append_singleton_inj.1 hsame).2
  refine find_eq_ok.2 ⟨stop, ?_, (hagree stop hstop).trans hfound⟩
  exact locate_of_keeps (keepsDirectories_of_agree hagree hhole) hlocate

end Files

end Toolrun
