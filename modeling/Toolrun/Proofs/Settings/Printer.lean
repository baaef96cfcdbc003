/-
The settings as shown are a document that gives them back.

They are written as a document in which no member is left out, and such a
document gives every member as it was written (`Choice.ofDocument_document`).
The one thing that cannot be shown is a number that has no place in a
document.
-/
import Toolrun.Proofs.Settings.Partial
import Toolrun.Proofs.Settings.Sources
import Toolrun.Proofs.Utf8

namespace Toolrun

namespace Settings

variable {s : Settings}

/-- Every member of every section. -/
def Choice.everything : Choice := ⟨fun _ => true, fun _ _ => true⟩

theorem document_everything (s : Settings) :
    Choice.everything.document s = s.document := by
  have hpart (t : Toml.WrittenSection) : Choice.everything.part t = t := by
    obtain ⟨name, members, inner⟩ := t
    unfold Choice.part Choice.everything
    cases inner <;> simp
  have hwritten : Choice.everything.written s = s.written :=
    (List.map_congr_left fun t _ => hpart t).trans (List.map_id _)
  unfold Choice.document document
  rw [hwritten]
  rfl

/-- If the settings can be written then the document gives them back. -/
theorem ofDocument_document (h : s.isWritable = true) :
    ofDocument s.document = .ok s := by
  rw [← document_everything, Choice.everything.ofDocument_document h]
  rfl

theorem isWritable_iff (s : Settings) :
    s.isWritable = true ↔ s.control.timeoutMs.toNat ≤ 9223372036854775807
      ∧ s.control.captureBytes.toNat ≤ 9223372036854775807
      ∧ s.control.killGraceMs.toNat ≤ 9223372036854775807 := by
  simp only [isWritable, List.all_cons, List.all_nil, Bool.and_true,
    Bool.and_eq_true, decide_eq_true_eq]
  exact Iff.rfl

/-- Settings are shown if none of their numbers is above 2^63 - 1, and then
what is shown is a document that gives the same settings, whichever file it is
put into. Otherwise they cannot be shown, as a failure of the
configuration. -/
theorem shown_reloads (s : Settings) :
    ((s.control.timeoutMs.toNat ≤ 9223372036854775807
          ∧ s.control.captureBytes.toNat ≤ 9223372036854775807
          ∧ s.control.killGraceMs.toNat ≤ 9223372036854775807) →
        ∃ document, s.shown = .ok document
          ∧ ofDocument document = .ok s
          ∧ ∀ files cwd path,
              Files.read files cwd path = .ok (Utf8.encode document) →
              load files cwd path = .ok s)
      ∧ (¬(s.control.timeoutMs.toNat ≤ 9223372036854775807
          ∧ s.control.captureBytes.toNat ≤ 9223372036854775807
          ∧ s.control.killGraceMs.toNat ≤ 9223372036854775807) →
        ∃ reason, s.shown = .error (.config reason)) := by
  rw [← isWritable_iff]
  refine ⟨fun h => ?_, fun h => ?_⟩
  · have hdocument := ofDocument_document h
    refine ⟨s.document, if_pos h, hdocument, fun files cwd path hread => ?_⟩
    rw [load_of_read hread, ofBytes, Utf8.decode?_encode]
    simp only [hdocument]
  · exact ⟨_, if_neg h⟩

/-- A directory with quotes and a line break in its name, a variable without a
name and one number at the limit; with one more there is no document. -/
theorem shown_reloads_limit :
    ∃ s t : Settings, s.control.timeoutMs = 9223372036854775807
      ∧ s.control.workingDir = some "'''\"\n"
      ∧ s.control.env.pairs = [("", "\r")]
      ∧ t.control.timeoutMs = 9223372036854775808
      ∧ (∃ document, s.shown = .ok document ∧ ofDocument document = .ok s)
      ∧ ∃ reason, t.shown = .error (.config reason) := by
  let s : Settings :=
    { control :=
        { timeoutMs := 9223372036854775807
          workingDir := some "'''\"\n"
          env := .ofList [("", "\r")] } }
  let t : Settings := { control := { timeoutMs := 9223372036854775808 } }
  obtain ⟨document, hshown, hdocument, -⟩ :=
    (shown_reloads s).1 (by decide)
  exact ⟨s, t, rfl, rfl, rfl, rfl, ⟨document, hshown, hdocument⟩,
    (shown_reloads t).2 (by decide)⟩

end Settings

end Toolrun
