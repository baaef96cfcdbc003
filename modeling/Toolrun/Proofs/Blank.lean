/-
What trimming leaves of a text, and what it takes away.

A text is what was trimmed off in front, then what is left, then what was
trimmed off behind (`exists_padding`); and what is left is all there is to
know, as nothing else that could be put around it changes it
(`trimChars_padded`).
-/
import Mathlib.Data.List.DropRight
import Toolrun.Text.Blank

namespace Toolrun.Text

variable {cs before behind : List Char}

/-- Characters that are all white space. -/
def AllBlank (cs : List Char) : Prop := ∀ c ∈ cs, isBlank c = true

instance (cs : List Char) : Decidable (AllBlank cs) :=
  List.decidableBAll (fun c => isBlank c = true) cs

/-- Neither the first character nor the last one is white space. -/
structure IsTrimmed (cs : List Char) : Prop where
  first : ∀ c ∈ cs.head?, isBlank c = false
  last : ∀ c ∈ cs.getLast?, isBlank c = false

theorem AllBlank.append (h : AllBlank before) (h' : AllBlank behind) :
    AllBlank (before ++ behind) :=
  List.forall_mem_append.2 ⟨h, h'⟩

theorem allBlank_nil : AllBlank [] := List.forall_mem_nil _

theorem trimEndChars_eq (cs : List Char) :
    trimEndChars cs = cs.rdropWhile isBlank := rfl

theorem trimStartChars_padded (h : AllBlank before) (cs : List Char) :
    trimStartChars (before ++ cs) = trimStartChars cs :=
  List.dropWhile_append_of_pos h

theorem trimStartChars_eq_self (h : ∀ c ∈ cs.head?, isBlank c = false) :
    trimStartChars cs = cs := by
  cases cs with
  | nil => rfl
  | cons c cs =>
      have hc : isBlank c = false := h c rfl
      exact List.dropWhile_cons_of_neg (by rw [hc]; exact Bool.false_ne_true)

theorem trimEndChars_padded (h : AllBlank behind) (cs : List Char) :
    trimEndChars (cs ++ behind) = trimEndChars cs := by
  have hreverse : AllBlank behind.reverse := fun c hc =>
    h c (List.mem_reverse.1 hc)
  unfold trimEndChars
  rw [List.reverse_append, List.dropWhile_append_of_pos hreverse]

theorem trimEndChars_eq_self (h : ∀ c ∈ cs.getLast?, isBlank c = false) :
    trimEndChars cs = cs := by
  rw [trimEndChars_eq, List.rdropWhile_eq_self_iff]
  intro hne hlast
  rw [h _ (List.getLast?_eq_getLast_of_ne_nil hne)] at hlast
  cases hlast

/-- White space around a text is trimmed off, and nothing else. -/
theorem trimChars_padded (hbefore : AllBlank before) (h : IsTrimmed cs)
    (hbehind : AllBlank behind) : trimChars (before ++ cs ++ behind) = cs := by
  unfold trimChars
  cases cs with
  | nil =>
      have hblank : AllBlank (before ++ behind) := hbefore.append hbehind
      rw [List.append_nil, trimStartChars, List.dropWhile_eq_nil_iff.2 hblank]
      rfl
  | cons c cs =>
      have hfirst : ∀ d ∈ ((c :: cs) ++ behind).head?, isBlank d = false :=
        h.first
      rw [List.append_assoc, trimStartChars_padded hbefore,
        trimStartChars_eq_self hfirst, trimEndChars_padded hbehind,
        trimEndChars_eq_self h.last]

/-- The first character that is no white space stays the first. -/
theorem exists_trimChars_eq_cons (hbefore : AllBlank before) {c : Char}
    (hc : isBlank c = false) (cs : List Char) :
    ∃ others, trimChars (before ++ c :: cs) = c :: others := by
  have hstart : trimStartChars (before ++ c :: cs) = c :: cs := by
    rw [trimStartChars_padded hbefore]
    exact trimStartChars_eq_self (by simpa using hc)
  have hne : (c :: cs).rdropWhile isBlank ≠ [] := by
    rw [Ne, List.rdropWhile_eq_nil_iff]
    intro hall
    rw [hall c List.mem_cons_self] at hc
    cases hc
  obtain ⟨first, others, hcons⟩ := List.exists_cons_of_ne_nil hne
  obtain ⟨behind, hprefix⟩ := List.rdropWhile_prefix isBlank (c :: cs)
  rw [hcons, List.cons_append] at hprefix
  obtain ⟨rfl, -⟩ := List.cons.inj hprefix
  exact ⟨others, by rw [trimChars, hstart, trimEndChars_eq, hcons]⟩

/-- A text with the white space that is trimmed off it. -/
theorem exists_padding (cs : List Char) :
    ∃ before behind, cs = before ++ trimChars cs ++ behind
      ∧ AllBlank before ∧ AllBlank behind := by
  have hfront : cs = cs.takeWhile isBlank ++ trimStartChars cs :=
    List.takeWhile_append_dropWhile.symm
  have hback : trimStartChars cs
      = trimChars cs ++ (trimStartChars cs).rtakeWhile isBlank :=
    List.rdropWhile_append_rtakeWhile.symm
  refine ⟨cs.takeWhile isBlank, (trimStartChars cs).rtakeWhile isBlank, ?_,
    fun c => List.mem_takeWhile_imp, fun c => List.mem_rtakeWhile_imp⟩
  rw [List.append_assoc, ← hback]
  exact hfront

/-- Nothing is left just of white space. -/
theorem trimChars_eq_nil_iff : trimChars cs = [] ↔ AllBlank cs := by
  constructor
  · intro hnil
    obtain ⟨before, behind, hcs, hbefore, hbehind⟩ := exists_padding cs
    rw [hcs, hnil, List.append_nil]
    exact hbefore.append hbehind
  · intro hblank
    have htrimmed : IsTrimmed [] := ⟨by simp, by simp⟩
    have hnil := trimChars_padded hblank htrimmed allBlank_nil
    rw [List.append_nil, List.append_nil] at hnil
    exact hnil

/-- What has no white space around it is left as it is. -/
theorem trimChars_eq_self (h : IsTrimmed cs) : trimChars cs = cs := by
  have hsame := trimChars_padded allBlank_nil h allBlank_nil
  rw [List.nil_append, List.append_nil] at hsame
  exact hsame

/-- What is left has no white space around it. -/
theorem isTrimmed_trimChars (cs : List Char) : IsTrimmed (trimChars cs) := by
  have hprefix : trimChars cs <+: trimStartChars cs :=
    List.rdropWhile_prefix isBlank (trimStartChars cs)
  constructor
  case first =>
    intro c hc
    obtain ⟨trimmed, htrimmed⟩ := hprefix
    have hstart : (cs.dropWhile isBlank).head? = some c := by
      rw [show cs.dropWhile isBlank = trimStartChars cs from rfl, ← htrimmed,
        List.head?_append, hc]
      rfl
    have hnot := List.head?_dropWhile_not isBlank cs
    rw [hstart] at hnot
    exact hnot
  case last =>
    intro c hc
    have hne : trimChars cs ≠ [] := by
      intro hnil
      rw [hnil] at hc
      cases hc
    have hlast : (trimChars cs).getLast hne = c :=
      Option.some.inj ((List.getLast?_eq_getLast_of_ne_nil hne).symm.trans hc)
    rw [← hlast]
    exact Bool.eq_false_iff.2 (List.rdropWhile_last_not isBlank _ hne)

theorem trimChars_eq_self_iff : trimChars cs = cs ↔ IsTrimmed cs :=
  ⟨fun h => h ▸ isTrimmed_trimChars cs, trimChars_eq_self⟩

instance (cs : List Char) : Decidable (IsTrimmed cs) :=
  decidable_of_iff _ trimChars_eq_self_iff

end Toolrun.Text
