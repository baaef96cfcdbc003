/-
What a capture holds, said without the chunks: of everything it has taken, the
head up to its limit, and the length of the whole. Taking one more chunk
appends the chunk to that everything (`Holds.push`), so how a stream is cut
into chunks leaves no trace in its capture.
-/
import Toolrun.Capture
import Mathlib.Data.List.TakeDrop

namespace Toolrun.Capture

/-- A capture that has taken these bytes, in whatever chunks. -/
structure Holds (c : Capture) (bytes : Bytes) : Prop where
  kept : c.kept = bytes.take c.limit
  total : c.total = bytes.length

/-- A new capture has taken nothing. -/
theorem holds_empty (limit : Nat) : (empty limit).Holds [] where
  kept := List.take_nil.symm
  total := rfl

/-- A chunk is appended to what was taken before. Beyond the limit there is
room for nothing, in the capture as in the head of the whole. -/
theorem Holds.push {c : Capture} {bytes : Bytes} (h : c.Holds bytes)
    (chunk : Bytes) : (c.push chunk).Holds (bytes ++ chunk) where
  kept := by
    have hroom : c.limit - c.kept.length = c.limit - bytes.length := by
      rw [h.kept, List.length_take]
      omega
    show c.kept ++ chunk.take (c.limit - c.kept.length)
      = (bytes ++ chunk).take c.limit
    rw [hroom, h.kept, List.take_append]
  total := by
    show c.total + chunk.length = (bytes ++ chunk).length
    rw [h.total, List.length_append]

/-- The same of any number of chunks, and none of them moves the limit. -/
theorem Holds.foldl {c : Capture} {bytes : Bytes} (h : c.Holds bytes)
    (chunks : List Bytes) :
    (chunks.foldl Capture.push c).Holds (bytes ++ chunks.flatten)
      ∧ (chunks.foldl Capture.push c).limit = c.limit := by
  induction chunks generalizing c bytes with
  | nil =>
      rw [List.flatten_nil, List.append_nil]
      exact ⟨h, rfl⟩
  | cons chunk chunks ih =>
      rw [List.flatten_cons, ← List.append_assoc]
      exact ih (h.push chunk)

/-- The text of a capture is that of the head. -/
theorem Holds.text {c : Capture} {bytes : Bytes} (h : c.Holds bytes) :
    c.text = Utf8.decodeLossy (bytes.take c.limit) := by
  unfold Capture.text
  rw [h.kept]

/-- Something is cut off if more was taken than the limit. -/
theorem Holds.isTruncated_iff {c : Capture} {bytes : Bytes}
    (h : c.Holds bytes) : c.isTruncated = true ↔ c.limit < bytes.length := by
  unfold isTruncated
  rw [h.kept, h.total, decide_eq_true_iff, List.length_take]
  omega

-- ============================================================== from chunks

/-- The capture of a stream that comes in chunks. -/
def ofChunks (limit : Nat) (chunks : List Bytes) : Capture :=
  chunks.foldl push (.empty limit)

theorem holds_ofChunks (limit : Nat) (chunks : List Bytes) :
    (ofChunks limit chunks).Holds chunks.flatten :=
  ((holds_empty limit).foldl chunks).1

@[simp] theorem limit_ofChunks (limit : Nat) (chunks : List Bytes) :
    (ofChunks limit chunks).limit = limit :=
  ((holds_empty limit).foldl chunks).2

end Toolrun.Capture
