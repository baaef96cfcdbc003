/-
Where a configuration document stands makes no difference to what it says. The
same document gives the same settings, or the same fault up to the path that is
named in it, whether it is named on the command line, stands in the home
directory or stands in the current directory; and without any document it is
as with an empty one. What goes on top of a document is put there in two
places, one for a file that is named and one for a file that is found, and both
put the same (`loadNamed_eq`, `loadDefault_eq`).

Everything goes by what a path is read as (`load_of_read`). Which path that is
has been decided before anything is read: the first of the two files that is
present. So a home file that is unusable is a fault and does not give way to
the local one, and what is done to the local file does not show
(`loads_alike`).
-/
import Toolrun.Proofs.Paths
import Toolrun.Settings.Sources

namespace Toolrun

namespace Settings

-- ================================================================= faults

/-- The same fault at another path. -/
def SourceFault.relocated (path : Bytes) : SourceFault → SourceFault
  | .unreadable _ cause => .unreadable path cause
  | .malformed _ => .malformed path
  | .mismatch _ detail => .mismatch path detail
  | .badTimeout fault => .badTimeout fault

/-- The settings that a document gives, with faults for the path at which it
stands. -/
def ofBytes (path document : Bytes) : Except SourceFault Settings :=
  match Utf8.decode? document with
  | none => .error (.unreadable path .notUtf8)
  | some text =>
    match ofDocument text with
    | .ok settings => .ok settings
    | .error .malformed => .error (.malformed path)
    | .error (.mismatch detail) => .error (.mismatch path detail)

/-- A document with the layers on top that do not depend on the command. -/
def surrounded (env : Variables) (path document : Bytes) :
    Except SourceFault Settings := do
  (← ofBytes path document).withSurroundings env

variable {files files' : Files} {cwd cwd' : Location} {env : Variables}
  {path home document : Bytes}

/-- At another path a document has the same fault there, if it has one. -/
theorem ofBytes_relocated (path other document : Bytes) :
    (ofBytes path document).mapError (·.relocated other)
      = ofBytes other document := by
  unfold ofBytes
  split
  · rfl
  · split <;> rfl

theorem withSurroundings_relocated (env : Variables) (s : Settings)
    (other : Bytes) :
    (s.withSurroundings env).mapError (·.relocated other)
      = s.withSurroundings env := by
  unfold withSurroundings
  split <;> rfl

theorem surrounded_relocated (env : Variables) (path other document : Bytes) :
    (surrounded env path document).mapError (·.relocated other)
      = surrounded env other document := by
  unfold surrounded
  rw [← ofBytes_relocated path other document]
  cases ofBytes path document with
  | error fault => rfl
  | ok settings => exact withSurroundings_relocated env settings other

-- ================================================================ reading

theorem present_of_read (hread : files.read cwd path = .ok document) :
    files.present cwd path = true := by
  unfold Files.read Files.checkPath at hread
  unfold Files.present
  cases hnul : path.contains 0 with
  | true =>
      rw [hnul] at hread
      cases hread
  | false =>
      rw [hnul] at hread
      cases hfind : files.find cwd path with
      | error errno =>
          rw [hfind] at hread
          cases hread
      | ok node => rfl

/-- A path is loaded as what it is read as. -/
theorem load_of_read (hread : files.read cwd path = .ok document) :
    load files cwd path = ofBytes path document := by
  unfold load Files.readText ofBytes
  rw [hread]
  simp only [bind, Except.bind]
  cases Utf8.decode? document with
  | none => rfl
  | some text => rfl

theorem loadNamed_of_read (hread : files.read cwd path = .ok document) :
    loadNamed files cwd env path = surrounded env path document := by
  rw [loadNamed_eq, load_of_read hread]
  rfl

-- ======================================================== the default path

theorem defaultPath?_of_home (hhome : homePath? env = some home)
    (hpresent : files.present cwd home = true) :
    defaultPath? files cwd env = some home := by
  unfold defaultPath?
  rw [hhome]
  exact List.find?_cons_of_pos hpresent

/-- There is no file in the home directory, or no home directory. -/
def NoHomeFile (files : Files) (cwd : Location) (env : Variables) : Prop :=
  ∀ home, homePath? env = some home → files.present cwd home = false

/-- Without a home file the local one counts, if it is present. -/
theorem defaultPath?_of_noHome (hhome : NoHomeFile files cwd env) :
    defaultPath? files cwd env
      = if files.present cwd localPath then some localPath else none := by
  have hlocal : [localPath].find? (files.present cwd)
      = if files.present cwd localPath then some localPath else none := by
    rw [List.find?_singleton]
  unfold defaultPath?
  cases hpath : homePath? env with
  | none => exact hlocal
  | some home =>
      refine Eq.trans ?_ hlocal
      exact List.find?_cons_of_neg (by rw [hhome home hpath]; decide)

theorem loadDefault_of_home (hhome : homePath? env = some home)
    (hpresent : files.present cwd home = true) :
    loadDefault files cwd env = loadNamed files cwd env home := by
  rw [loadDefault_eq, loadNamed_eq, defaultPath?_of_home hhome hpresent]

theorem loadDefault_of_local
    (hhome : NoHomeFile files cwd env)
    (hpresent : files.present cwd localPath = true) :
    loadDefault files cwd env = loadNamed files cwd env localPath := by
  rw [loadDefault_eq, loadNamed_eq, defaultPath?_of_noHome hhome,
    if_pos hpresent]

theorem ofBytes_nil (path : Bytes) : ofBytes path [] = .ok default := by
  rfl

/-- Without a file it is as with an empty one. -/
theorem loadDefault_of_nothing
    (hhome : NoHomeFile files cwd env)
    (hlocal : files.present cwd localPath = false) (path : Bytes) :
    loadDefault files cwd env = surrounded env path [] := by
  have hpath : defaultPath? files cwd env = none := by
    rw [defaultPath?_of_noHome hhome, hlocal]
    rfl
  unfold surrounded
  rw [loadDefault_eq, hpath, ofBytes_nil]

-- ======================================================== the local file

def homeName : Bytes := Utf8.encode "config.toml"

/-- The path of the home file ends in its name. -/
theorem parts_homePath (hhome : homePath? env = some home) :
    ∃ above, Files.parts home = above ++ [homeName] := by
  obtain ⟨dir, -, rfl⟩ := Option.map_eq_some_iff.1 hhome
  exact Files.parts_join dir (by decide)

/-- Whatever is done to the local file, the home file is found as before. -/
theorem find_home_of_agree {node : Node} (hhome : homePath? env = some home)
    (hagree : Files.AgreeExcept (cwd ++ [localPath]) files files')
    (hfile : files.at? (cwd ++ [localPath]) ≠ some .directory)
    (hfind : files.find cwd home = .ok node) :
    files'.find cwd home = .ok node := by
  obtain ⟨above, hparts⟩ := parts_homePath hhome
  have hdown : Files.IsDown homeName := ⟨by decide, by decide, by decide⟩
  exact Files.find_eq_of_agree hagree hfile hdown (by decide) hparts hfind

theorem exists_find_of_present (hpresent : files.present cwd path = true) :
    ∃ node, files.find cwd path = .ok node := by
  unfold Files.present at hpresent
  cases hfind : files.find cwd path with
  | ok node => exact ⟨node, rfl⟩
  | error errno =>
      rw [hfind, Bool.and_eq_true] at hpresent
      cases hpresent.2

/-- What a path leads to decides how it is loaded, and whether it is
present. -/
theorem loadNamed_congr (hfind : files'.find cwd path = files.find cwd path) :
    loadNamed files' cwd env path = loadNamed files cwd env path := by
  unfold loadNamed load Files.readText Files.read
  rw [hfind]

theorem present_congr (hfind : files'.find cwd path = files.find cwd path) :
    files'.present cwd path = files.present cwd path := by
  unfold Files.present
  rw [hfind]

-- ============================================================== the result

/-- All ways of loading a document agree, in every environment. Take a file
that holds the document and is named on the command line. If the home file
holds the same document, or if there is no home file and the local one does,
then the same comes of it without a name, up to the path in a fault; and
without either file the same comes of it as of an empty document. If there is
a home file, then it is as if that were named, and whatever is put in the place
of the local file does not change it. -/
theorem loads_alike (env : Variables)
    (hread : files.read cwd path = .ok document) :
    (∀ files' cwd' home, homePath? env = some home →
        files'.read cwd' home = .ok document →
        loadDefault files' cwd' env
          = (loadNamed files cwd env path).mapError (·.relocated home))
      ∧ (∀ files' cwd', NoHomeFile files' cwd' env →
          files'.read cwd' localPath = .ok document →
          loadDefault files' cwd' env
            = (loadNamed files cwd env path).mapError (·.relocated localPath))
      ∧ (∀ files' cwd', NoHomeFile files' cwd' env →
          files'.present cwd' localPath = false → document = [] →
          loadDefault files' cwd' env = loadNamed files cwd env path)
      ∧ (∀ before after cwd' home, homePath? env = some home →
          before.present cwd' home = true →
          before.at? (cwd' ++ [localPath]) ≠ some .directory →
          Files.AgreeExcept (cwd' ++ [localPath]) before after →
          loadDefault before cwd' env = loadNamed before cwd' env home
            ∧ loadDefault after cwd' env = loadDefault before cwd' env) := by
  refine ⟨?_, ?_, ?_, ?_⟩
  · intro files' cwd' home hhome hread'
    rw [loadDefault_of_home hhome (present_of_read hread'),
      loadNamed_of_read hread', loadNamed_of_read hread, surrounded_relocated]
  · intro files' cwd' hhome hread'
    rw [loadDefault_of_local hhome (present_of_read hread'),
      loadNamed_of_read hread', loadNamed_of_read hread, surrounded_relocated]
  · rintro files' cwd' hhome hlocal rfl
    rw [loadDefault_of_nothing hhome hlocal path, loadNamed_of_read hread]
  · -- the home file is found in both trees as the same node, as its path never
    -- passes through the local file; so neither its presence nor its loading
    -- can tell the trees apart
    intro before after cwd' home hhome hpresent hfile hagree
    have hdefault := loadDefault_of_home hhome hpresent
    refine ⟨hdefault, ?_⟩
    obtain ⟨node, hfind⟩ := exists_find_of_present hpresent
    have hfind' : after.find cwd' home = before.find cwd' home :=
      (find_home_of_agree hhome hagree hfile hfind).trans hfind.symm
    have hpresent' : after.present cwd' home = true :=
      (present_congr hfind').trans hpresent
    rw [loadDefault_of_home hhome hpresent', hdefault, loadNamed_congr hfind']

/-- A home file with a number for the tool: its fault is that of the same
document under another name, and a good local file that comes to stand beside
it does not help. -/
theorem loads_alike_mismatched :
    ∃ (env : Variables) (named after : Files) (document : Bytes),
      named.read [] (Utf8.encode "P") = .ok document
        ∧ loadNamed named [] env (Utf8.encode "P")
            = .error (.mismatch (Utf8.encode "P")
                ("TOML parse error at line 2, column 13\n  |\n" ++
                  "2 | tool_path = 1\n  |             ^\n" ++
                  "invalid type: integer \x601\x60, expected a string\n"))
        ∧ loadDefault after [] env
            = (loadNamed named [] env (Utf8.encode "P")).mapError
                (·.relocated (Utf8.encode "/h/.toolrun/config.toml"))
        ∧ after.read [] localPath = .ok [] := by
  let document : Bytes := Utf8.encode "[runner]\ntool_path = 1\n"
  let env : Variables := fun name =>
    if name = "HOME" then some (Utf8.encode "/h") else none
  let named : Files := ⟨[([Utf8.encode "P"], .file document 420)]⟩
  let above : List Bytes := [Utf8.encode "h", Utf8.encode ".toolrun"]
  let before : Files :=
    ⟨[(above.take 1, .directory), (above, .directory),
      (above ++ [homeName], .file document 420)]⟩
  let after : Files := ⟨before.nodes ++ [([localPath], .file [] 420)]⟩
  have hnamed : named.read [] (Utf8.encode "P") = .ok document := rfl
  have hhome : homePath? env = some (Utf8.encode "/h/.toolrun/config.toml") :=
    by decide
  have hagree : Files.AgreeExcept [localPath] before after := by
    intro location hne
    unfold Files.at?
    have hother : ¬([localPath] : Location) = location := Ne.symm hne
    simp [after, List.find?_append, hother]
  obtain ⟨hsame, -, -, hfirst⟩ := loads_alike env hnamed
  obtain ⟨-, hkept⟩ := hfirst before after [] _ hhome (by decide) (by decide)
    hagree
  exact ⟨env, named, after, document, hnamed, rfl,
    hkept.trans (hsame before [] _ hhome rfl), rfl⟩

end Settings

end Toolrun
