/-
What it means that a reader takes what has been written: wherever the written
characters stand with something behind them, the reader gives the value and
stops right where they end (`Takes`). How many bytes lie before does not
matter, so everything is said about what is still unread.
-/
import Mathlib.Data.List.TakeWhile
import Toolrun.Toml.Cursor

namespace Toolrun.Toml

/-- A reader takes what is written for a value, and leaves what stands
behind. -/
def Takes {α : Type} (reader : Cursor → Option (α × Cursor))
    (written behind : List Char) (value : α) : Prop :=
  ∀ c : Cursor, c.rest = written ++ behind →
    ∃ d, reader c = some (value, d) ∧ d.rest = behind

namespace Cursor

variable {c : Cursor} {cs behind : List Char} {ch : Char}

@[simp] theorem rest_skip (c : Cursor) (count : Nat) :
    (c.skip count).rest = c.rest.drop count :=
  rfl

/-- What is skipped is no longer unread. -/
theorem rest_skip_of_append (h : c.rest = cs ++ behind) :
    (c.skip cs.length).rest = behind := by
  rw [rest_skip, h, List.drop_left]

theorem expect?_of_append (h : c.rest = cs ++ behind) :
    ∃ d, c.expect? cs = some d ∧ d.rest = behind := by
  have hprefix : cs.isPrefixOf c.rest = true := by
    rw [List.isPrefixOf_iff_prefix, h]
    exact List.prefix_append _ _
  unfold expect?
  rw [if_pos hprefix]
  exact ⟨_, rfl, rest_skip_of_append h⟩

/-- What begins otherwise is not what is expected. -/
theorem expect?_of_ne {first : Char} {others : List Char}
    (h : c.rest = ch :: behind) (hne : first ≠ ch) :
    c.expect? (first :: others) = none := by
  unfold expect?
  rw [h, List.isPrefixOf, beq_false_of_ne hne, Bool.false_and]
  exact if_neg Bool.false_ne_true

theorem skipSpace_of_cons (h : c.rest = ch :: behind)
    (hspace : isSpace ch = false) : c.skipSpace.rest = ch :: behind := by
  unfold skipSpace skipWhile
  simp only [h]
  rw [List.dropWhile_cons_of_neg (by rw [hspace]; exact Bool.false_ne_true)]

theorem skipSpace_of_space (h : c.rest = ' ' :: ch :: behind)
    (hspace : isSpace ch = false) : c.skipSpace.rest = ch :: behind := by
  unfold skipSpace skipWhile
  simp only [h]
  rw [List.dropWhile_cons_of_pos rfl,
    List.dropWhile_cons_of_neg (by rw [hspace]; exact Bool.false_ne_true)]

theorem lineBreak?_of_cons (h : c.rest = '\n' :: behind) :
    ∃ d, c.lineBreak? = some d ∧ d.rest = behind := by
  refine ⟨c.skip 1, ?_, by rw [rest_skip, h]; rfl⟩
  unfold lineBreak?
  rw [h]
  rfl

/-- Anything but a line feed or a carriage return is no line break. -/
theorem lineBreak?_of_ne (h : c.rest = ch :: behind) (hfeed : ch ≠ '\n')
    (hreturn : ch ≠ '\r') : c.lineBreak? = none := by
  unfold lineBreak?
  rw [h]
  split
  next heq =>
    injection heq with heq
    exact absurd heq hfeed
  next heq =>
    injection heq with heq
    exact absurd heq hreturn
  next => rfl

theorem lineEnd?_of_cons (h : c.rest = '\n' :: behind) :
    ∃ d, c.lineEnd? = some d ∧ d.rest = behind := by
  have hspace : c.skipSpace.rest = '\n' :: behind :=
    skipSpace_of_cons h rfl
  have hcomment : c.skipSpace.skipComment.rest = '\n' :: behind := by
    unfold skipComment
    rw [hspace]
    exact hspace
  obtain ⟨d, hd, hrest⟩ := lineBreak?_of_cons hcomment
  refine ⟨d, ?_, hrest⟩
  unfold lineEnd?
  simp only [hcomment, List.isEmpty_cons, Bool.false_eq_true, if_false]
  exact hd

end Cursor

end Toolrun.Toml
