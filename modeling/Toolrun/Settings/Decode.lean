/-
Settings from a configuration document.

The members of a table are taken in the order in which the document has them,
and the first that is of the wrong type is the one reported. A member that is
not known is passed over. One that is not there has a default of its own, and
these make up a second set of defaults beside that of a section which is not
there at all; that both are the same is a fact (`Shape.fallback_sections`). In
the place of a section there may be a list of its members in their fixed order,
or a date, which is a section without any known member.
-/
import Toolrun.Settings.Basic
import Toolrun.Toml.Mismatch

namespace Toolrun.Settings

open Toml (Item Key Entries Found Wanted Mismatch)

-- =============================================================== values

/-- An item, with the stretch that shows where it is. -/
structure Place where
  span : Toml.Span
  item : Item

namespace Place

/-- The place of a member of a table. What has no stretch of its own is shown
by its key. -/
def ofMember (key : Key) (item : Item) : Place :=
  ⟨item.span?.getD key.span, item⟩

/-- The place of an element of a list. -/
def ofElement (list : Toml.Span) (item : Item) : Place :=
  ⟨item.span?.getD list, item⟩

/-- The item is not of the type that is wanted. -/
def mismatch {α : Type} (p : Place) (wanted : Wanted) : Except Mismatch α :=
  .error (.type p.span (.of p.item) wanted)

/-- A text. -/
def string (p : Place) : Except Mismatch String :=
  match p.item with
  | .scalar _ (.string s) => .ok s
  | _ => p.mismatch .string

/-- A truth value. -/
def boolean (p : Place) : Except Mismatch Bool :=
  match p.item with
  | .scalar _ (.boolean b) => .ok b
  | _ => p.mismatch .boolean

/-- A count, which is not below zero. -/
def count (wanted : Wanted) (p : Place) : Except Mismatch UInt64 :=
  match p.item with
  | .scalar _ (.integer (.ofNat n)) => .ok (.ofNat n)
  | .scalar _ (.integer i) => .error (.negative p.span i wanted)
  | _ => p.mismatch wanted

/-- The name under which a date shows itself where a table is wanted. -/
def dateMember : String := "$__toml_private_datetime"

/-- A table of texts. -/
def textTable (p : Place) : Except Mismatch EnvTable :=
  match p.item with
  | .table _ _ entries =>
    entries.foldlM
      (fun t e => do
        .ok (t.insert e.1.name (← (ofMember e.1 e.2).string)))
      .empty
  | .scalar _ (.dateTime d) => .ok (.ofList [(dateMember, d.render)])
  | _ => p.mismatch .map

end Place

-- ============================================================= sections

/-- A member of a section: its name, and how it is taken over. -/
structure Member (σ : Type) where
  name : String
  take : σ → Place → Except Mismatch σ

/-- A kind of section: what messages call it, its members in order, and what
each of them is if it is not there. -/
structure Shape (σ : Type) where
  name : String
  fallback : σ
  members : List (Member σ)

namespace Shape

/-- Takes over one member of a table, if it is known. -/
def takeMember {σ : Type} (shape : Shape σ) (s : σ) (e : Key × Item) :
    Except Mismatch σ :=
  match shape.members.find? fun m => m.name = e.1.name with
  | some m => m.take s (.ofMember e.1 e.2)
  | none => .ok s

/-- A section from a table. -/
def takeTable {σ : Type} (shape : Shape σ) (entries : Entries) :
    Except Mismatch σ :=
  entries.foldlM shape.takeMember shape.fallback

/-- A section from a list of its members in order. -/
def takeList {σ : Type} (shape : Shape σ) (list : Toml.Span)
    (items : List Item) : Except Mismatch σ :=
  (shape.members.zip items).foldlM
    (fun s (m, item) => m.take s (.ofElement list item)) shape.fallback

/-- A section. -/
def take {σ : Type} (shape : Shape σ) (p : Place) : Except Mismatch σ :=
  match p.item with
  | .table _ _ entries => shape.takeTable entries
  | .array _ items => shape.takeList p.span items
  | .tables items => shape.takeList p.span items
  | .scalar _ (.dateTime _) => .ok shape.fallback
  | _ => p.mismatch (.section shape.name)

end Shape

/-- The section `runner`. -/
def runnerShape : Shape RunnerSettings where
  name := "RunnerSettings"
  fallback :=
    { toolPath := ""
      language := "" }
  members :=
    [⟨"tool_path", fun s p => do .ok { s with toolPath := ← p.string }⟩,
      ⟨"language", fun s p => do .ok { s with language := ← p.string }⟩]

/-- The section `control`. -/
def controlShape : Shape ControlSettings where
  name := "ControlConfig"
  fallback :=
    { timeoutMs := 0
      captureBytes := defaultCaptureBytes
      killGraceMs := defaultKillGraceMs
      workingDir := none
      env := .empty }
  members :=
    [⟨"timeout_ms",
        fun s p => do .ok { s with timeoutMs := ← p.count .timeCount }⟩,
      ⟨"capture_bytes",
        fun s p => do .ok { s with captureBytes := ← p.count .byteCount }⟩,
      ⟨"kill_grace_ms",
        fun s p => do .ok { s with killGraceMs := ← p.count .timeCount }⟩,
      ⟨"working_dir",
        fun s p => do .ok { s with workingDir := some (← p.string) }⟩,
      ⟨"env", fun s p => do .ok { s with env := ← p.textTable }⟩]

/-- The section `logging`. -/
def loggingShape : Shape LoggingSettings where
  name := "LoggingConfig"
  fallback :=
    { enabled := defaultLoggingEnabled
      console := defaultLoggingConsole
      file := false
      level := defaultLoggingLevel
      directory := none }
  members :=
    [⟨"enabled", fun s p => do .ok { s with enabled := ← p.boolean }⟩,
      ⟨"console", fun s p => do .ok { s with console := ← p.boolean }⟩,
      ⟨"file", fun s p => do .ok { s with file := ← p.boolean }⟩,
      ⟨"level", fun s p => do .ok { s with level := ← p.string }⟩,
      ⟨"directory",
        fun s p => do .ok { s with directory := some (← p.string) }⟩]

-- ======================================================== all settings

/-- The outermost table. A section that is not there is as if nothing were
configured. -/
def shape : Shape Settings where
  name := "Settings"
  fallback :=
    { runner := {}
      control := {}
      logging := {} }
  members :=
    [⟨"runner", fun s p => do
        .ok { s with runner := ← runnerShape.take p }⟩,
      ⟨"control", fun s p => do
        .ok { s with control := ← controlShape.take p }⟩,
      ⟨"logging", fun s p => do
        .ok { s with logging := ← loggingShape.take p }⟩]

/-- A section without any member is what it is if it is not there, and so is
the whole. -/
theorem Shape.fallback_sections :
    runnerShape.fallback = {} ∧ controlShape.fallback = {}
      ∧ loggingShape.fallback = {} ∧ shape.fallback = default :=
  ⟨rfl, rfl, rfl, rfl⟩

/-- The settings that a document's entries give. -/
def ofEntries (entries : Entries) : Except Mismatch Settings :=
  shape.takeTable entries

/-- Why a document gives no settings. -/
inductive DocumentFault where
  | malformed
  | mismatch (detail : String)
  deriving DecidableEq, Repr

/-- The settings that a document gives. -/
def ofDocument (document : String) : Except DocumentFault Settings :=
  match Toml.read? document with
  | none => .error .malformed
  | some entries =>
    match ofEntries entries with
    | .ok settings => .ok settings
    | .error m => .error (.mismatch (m.message document))

end Toolrun.Settings
