/-
Keeping the head of a stream. A capture takes a stream in whatever chunks it
comes, keeps the first bytes up to its limit, and counts all of them; so what
it keeps depends on the stream and on the limit alone, not on the chunks.
-/
import Toolrun.Text.Utf8

namespace Toolrun

/-- The head of a stream: at most `limit` bytes of it, and how many bytes
there have been in all. -/
structure Capture where
  limit : Nat
  kept : Bytes
  total : Nat
  length_kept : kept.length = min limit total := by simp

namespace Capture

/-- Nothing captured yet. -/
def empty (limit : Nat) : Capture where
  limit := limit
  kept := []
  total := 0

/-- Takes one more chunk: what there is room for is kept, all of it
counts. -/
def push (c : Capture) (chunk : Bytes) : Capture where
  limit := c.limit
  kept := c.kept ++ chunk.take (c.limit - c.kept.length)
  total := c.total + chunk.length
  length_kept := by
    have h := c.length_kept
    simp only [List.length_append, List.length_take]
    omega

/-- Whether some of the stream was not kept. -/
def isTruncated (c : Capture) : Bool := c.kept.length < c.total

/-- What was kept, as text. -/
def text (c : Capture) : String := Utf8.decodeLossy c.kept

end Capture

end Toolrun
