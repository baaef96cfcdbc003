/-
Every byte of a stream is accounted for. A capture keeps the head of what it
is given and counts all of it, whether or not there is room, and whatever the
pieces are (`accounts_ofChunks`). A reader that is left to itself hands over
every chunk it takes before it takes another, and counts the same once more.
So when it comes to its end, by that of its stream or by a read that fails,
what it reports, what was counted and what was kept are about the same bytes
(`every_byte_accounted`).

Counts have no bound here. One of 64 bits is as good, for every stream whose
length fits in it (`toNat_counted`).
-/
import Mathlib.Algebra.GroupWithZero.Nat
import Toolrun.Proofs.Readers

namespace Toolrun

namespace Capture

variable {chunks : List Bytes}

-- ================================================================ counting

/-- A count of 64 bits, to which the length of each chunk is added. -/
def counted (chunks : List Bytes) : UInt64 :=
  chunks.foldl (fun count chunk => count + .ofNat chunk.length) 0

theorem toNat_foldl_count (start : UInt64)
    (hfits : start.toNat + chunks.flatten.length < 2 ^ 64) :
    (chunks.foldl (fun count chunk => count + .ofNat chunk.length)
      start).toNat = start.toNat + chunks.flatten.length := by
  induction chunks generalizing start with
  | nil => rfl
  | cons chunk chunks ih =>
      rw [List.flatten_cons, List.length_append] at hfits ⊢
      have hnext : (start + .ofNat chunk.length).toNat
          = start.toNat + chunk.length := by
        rw [UInt64.toNat_add, UInt64.toNat_ofNat']
        omega
      rw [List.foldl_cons, ih _ (by omega), hnext, Nat.add_assoc]

/-- It does not turn over as long as the whole fits. -/
theorem toNat_counted (hfits : chunks.flatten.length < 2 ^ 64) :
    (counted chunks).toNat = chunks.flatten.length := by
  have hcount := @toNat_foldl_count chunks 0
  rw [UInt64.toNat_zero, Nat.zero_add] at hcount
  exact hcount hfits

/-- A capture that accounts for some chunks under a limit: of all of them
together it has kept the head, it has counted every byte, and it tells whether
that is more than it has kept. -/
structure Accounts (c : Capture) (limit : Nat) (chunks : List Bytes) :
    Prop where
  kept : c.kept = chunks.flatten.take (min limit c.total)
  length_kept : c.kept.length = min limit c.total
  total : c.total = (chunks.map List.length).sum
  total_eq_counted : c.total = (counted chunks).toNat
  isTruncated_iff : c.isTruncated = true ↔ limit < c.total

/-- However a stream is cut, its capture accounts for it. -/
theorem accounts_ofChunks (limit : Nat)
    (hfits : chunks.flatten.length < 2 ^ 64) :
    (ofChunks limit chunks).Accounts limit chunks := by
  have hholds := holds_ofChunks limit chunks
  have hlimit := limit_ofChunks limit chunks
  have hkept := hholds.kept
  have htruncated := hholds.isTruncated_iff
  rw [hlimit] at hkept htruncated
  constructor
  case kept => rw [hkept, hholds.total, ← List.take_eq_take_min]
  case length_kept => rw [hkept, hholds.total, List.length_take]
  case total => rw [hholds.total, List.length_flatten]
  case total_eq_counted => rw [hholds.total, toNat_counted hfits]
  case isTruncated_iff => rw [htruncated, hholds.total]

end Capture

-- ================================================================= readers

namespace Reader

variable {stream : Stream} {limit : Nat} {chunks : List Bytes}

/-- A new reader of a stream that ends reports how long the stream was, and
has handed over all of it. -/
theorem run_to_end (hchunks : ∀ chunk ∈ chunks, IsChunk chunk) :
    ∃ r, (fresh stream limit).run (passes chunks ++ [.ended]) = some r
      ∧ r.result? = some (.ok chunks.flatten.length)
      ∧ r.capture = .ofChunks limit chunks := by
  have hpasses := run_passes hchunks (r := fresh stream limit) rfl rfl
  refine ⟨_, Runs.append_eq_some.2 ⟨_, hpasses, rfl⟩, ?_, rfl⟩
  rw [result?_of_ended rfl]
  exact congrArg (some ∘ Except.ok) (Nat.zero_add _)

/-- A new reader that comes to a read that fails reports its stream and why,
and has handed over all that came before. -/
theorem run_to_failure (hchunks : ∀ chunk ∈ chunks, IsChunk chunk)
    (cause : IoFault) :
    ∃ r, (fresh stream limit).run (passes chunks ++ [.failed cause]) = some r
      ∧ r.result? = some (.error (.streamFailed stream cause))
      ∧ r.capture = .ofChunks limit chunks := by
  have hpasses := run_passes hchunks (r := fresh stream limit) rfl rfl
  exact ⟨_, Runs.append_eq_some.2 ⟨_, hpasses, rfl⟩, rfl, rfl⟩

/-- **Every byte is accounted for.** Whatever pieces a stream comes in, and
whatever the limit, its capture accounts for it after every piece. A reader
that takes the whole of a stream reports its length, which is what its capture
has counted; a reader that comes to a read that fails reports that, and whose
stream it was. Either way its capture was given all that has been read, room or
no room, and holds the head of that. -/
theorem every_byte_accounted :
    (∀ (limit : Nat) (chunks taken : List Bytes),
        chunks.flatten.length < 2 ^ 64 → taken <+: chunks →
        (Capture.ofChunks limit taken).Accounts limit taken)
      ∧ ∀ (stream : Stream) (limit : Nat) (chunks : List Bytes),
          (∀ chunk ∈ chunks, IsChunk chunk) →
          (∃ r, (fresh stream limit).run (passes chunks ++ [.ended]) = some r
              ∧ r.result? = some (.ok r.capture.total)
              ∧ r.capture.total = chunks.flatten.length
              ∧ r.capture = .ofChunks limit chunks)
            ∧ ∀ cause, ∃ r,
                (fresh stream limit).run (passes chunks ++ [.failed cause])
                    = some r
                  ∧ r.result? = some (.error (.streamFailed stream cause))
                  ∧ r.capture = .ofChunks limit chunks
                  ∧ r.capture.kept = chunks.flatten.take limit := by
  constructor
  · intro limit chunks taken hfits hprefix
    refine Capture.accounts_ofChunks limit (Nat.lt_of_le_of_lt ?_ hfits)
    obtain ⟨others, rfl⟩ := hprefix
    rw [List.flatten_append, List.length_append]
    exact Nat.le_add_right _ _
  · intro stream limit chunks hchunks
    have hholds := Capture.holds_ofChunks limit chunks
    refine ⟨?_, fun cause => ?_⟩
    · obtain ⟨r, hrun, hresult, hcapture⟩ := run_to_end hchunks
      have htotal : r.capture.total = chunks.flatten.length := by
        rw [hcapture, hholds.total]
      exact ⟨r, hrun, by rw [hresult, htotal], htotal, hcapture⟩
    · obtain ⟨r, hrun, hresult, hcapture⟩ := run_to_failure hchunks cause
      refine ⟨r, hrun, hresult, hcapture, ?_⟩
      rw [hcapture, hholds.kept, Capture.limit_ofChunks]

/-- An empty piece, and two pieces beyond a limit that fell inside the one
before; and a reader without any room, whose second read fails. -/
theorem every_byte_accounted_overfull :
    let chunks : List Bytes := [[1], [], [2, 3], [4], [5]]
    let c : Capture := .ofChunks 2 chunks
    c.kept = [1, 2] ∧ c.total = 5 ∧ c.isTruncated = true
      ∧ ∃ r : Reader,
          (fresh .stderr 0).run
              [.read [1], .pushed [1], .failed (.other "gone")] = some r
            ∧ r.result? = some (.error (.streamFailed .stderr (.other "gone")))
            ∧ r.capture.kept = [] ∧ r.capture.total = 1 := by
  intro chunks c
  have haccounts := every_byte_accounted.1 2 chunks chunks (by decide)
    (List.prefix_refl _)
  have hchunks : ∀ chunk ∈ [[1]], IsChunk chunk := by
    rintro chunk hchunk
    obtain rfl := List.mem_singleton.1 hchunk
    exact ⟨by decide, by decide⟩
  obtain ⟨-, hfailure⟩ := every_byte_accounted.2 .stderr 0 [[1]] hchunks
  obtain ⟨r, hrun, hresult, hcapture, hkept⟩ := hfailure (.other "gone")
  have htotal : c.total = 5 := haccounts.total
  refine ⟨haccounts.kept, htotal, haccounts.isTruncated_iff.2 ?_, r, hrun,
    hresult, hkept, by rw [hcapture]; rfl⟩
  rw [htotal]
  decide

end Reader

end Toolrun
