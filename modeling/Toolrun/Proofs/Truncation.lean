/-
What a cut does to a text. A capture keeps the head of its stream, so what it
shows as text may end in the middle of a character, and may not have been text
to begin with. No more is lost by that than the one character that the cut has
broken off (`text_of_cut`).

Two things about the decoder carry this, and neither looks at what a byte
means. It never takes back a piece that it has found
(`Decoder.found_suffix_foldl`), so what was settled in the head is settled in
the whole. And it never has fewer pieces than before, counting a character
under way as one, while each byte where a character may begin makes it one
more (`Decoder.length_finish_push`). A character is one piece; so between its
first byte and its last the decoder can only have it under way
(`Decoder.exists_begun`).
-/
import Toolrun.Proofs.Capture
import Toolrun.Proofs.Utf8

namespace Toolrun

namespace Utf8

namespace Decoder

-- ================================================================= pieces

theorem found_suffix_first (d : Decoder) (b : UInt8) :
    d.found <:+ (d.first b).found := by
  unfold first
  split
  · exact List.suffix_cons ..
  · exact List.suffix_refl _

/-- What a byte adds comes on top of what was found. -/
theorem found_suffix_push (d : Decoder) (b : UInt8) :
    d.found <:+ (d.push b).found := by
  unfold push
  split
  next hbegun => exact found_suffix_first d b
  next part hbegun =>
    by_cases hcontinues : part.low ≤ b ∧ b ≤ part.high
    · rw [if_pos hcontinues]
      by_cases hlast : part.missing ≤ 1
      · simp only [if_pos hlast]
        exact List.suffix_cons ..
      · simp only [if_neg hlast]
        exact List.suffix_refl _
    · rw [if_neg hcontinues]
      have hbroken : d.found <:+ .broken :: d.found := List.suffix_cons ..
      exact hbroken.trans (found_suffix_first ⟨none, .broken :: d.found⟩ b)

/-- A piece that was found is not taken back. -/
theorem found_suffix_foldl (bytes : Bytes) (d : Decoder) :
    d.found <:+ (bytes.foldl push d).found := by
  induction bytes generalizing d with
  | nil => exact List.suffix_refl _
  | cons b bytes ih => exact (found_suffix_push d b).trans (ih (d.push b))

-- ================================================================= counts

/-- A character under way counts as a piece. -/
theorem length_finish (d : Decoder) :
    d.finish.length = d.found.length + if d.begun.isSome then 1 else 0 := by
  unfold finish
  cases d.begun with
  | none => simp
  | some part => simp

theorem length_finish_first (d : Decoder) (b : UInt8) :
    (d.first b).finish.length = d.found.length + 1 := by
  unfold first
  split
  · simp [length_finish]
  · simp [length_finish]

/-- A byte where a character may begin is one piece more. -/
theorem length_finish_push {d : Decoder} (hbegun : d.begun = none)
    (b : UInt8) : (d.push b).finish.length = d.finish.length + 1 := by
  unfold push
  rw [hbegun, length_finish_first, length_finish d, hbegun]
  rfl

/-- No byte takes away from the number of pieces. -/
theorem length_finish_le_push (d : Decoder) (b : UInt8) :
    d.finish.length ≤ (d.push b).finish.length := by
  cases hbegun : d.begun with
  | none =>
      rw [length_finish_push hbegun]
      omega
  | some part =>
      have hcount : d.finish.length = d.found.length + 1 := by
        rw [length_finish, hbegun]
        rfl
      unfold push
      rw [hbegun, hcount]
      dsimp only
      by_cases hcontinues : part.low ≤ b ∧ b ≤ part.high
      · rw [if_pos hcontinues]
        by_cases hlast : part.missing ≤ 1
        · simp [if_pos hlast, length_finish]
        · simp [if_neg hlast, length_finish]
      · rw [if_neg hcontinues, length_finish_first]
        simp

theorem length_finish_le_foldl (bytes : Bytes) (d : Decoder) :
    d.finish.length ≤ (bytes.foldl push d).finish.length := by
  induction bytes generalizing d with
  | nil => exact Nat.le_refl _
  | cons b bytes ih =>
      exact Nat.le_trans (length_finish_le_push d b) (ih (d.push b))

/-- Inside of a character the decoder has it under way, and has found nothing
more. -/
theorem exists_begun {c : Char} {part rest : Bytes}
    (hsplit : String.utf8EncodeChar c = part ++ rest) (hpart : part ≠ [])
    (hrest : rest ≠ []) (found : List Piece) :
    ∃ begun, part.foldl push ⟨none, found⟩ = ⟨some begun, found⟩ := by
  obtain ⟨b, part, rfl⟩ := List.exists_cons_of_ne_nil hpart
  obtain ⟨next, rest, rfl⟩ := List.exists_cons_of_ne_nil hrest
  have hwhole := foldl_push_char c found
  rw [hsplit, List.foldl_append, List.foldl_cons] at hwhole
  have hgrown := found_suffix_foldl (b :: part) ⟨none, found⟩
  -- the first byte has made it one piece more, and in the end it is no more
  have hfirst : found.length + 1
      ≤ ((b :: part).foldl push ⟨none, found⟩).finish.length := by
    have hle := length_finish_le_foldl part (push ⟨none, found⟩ b)
    rw [length_finish_push rfl, length_finish] at hle
    exact hle
  generalize (b :: part).foldl push ⟨none, found⟩ = d at hwhole hgrown hfirst
  have hlast : (d.push next).finish.length ≤ found.length + 1 := by
    have hle := length_finish_le_foldl rest (d.push next)
    rw [hwhole, length_finish ⟨none, _⟩] at hle
    exact hle
  have hnext := length_finish_le_push d next
  obtain ⟨begun, reached⟩ := d
  cases begun with
  | none =>
      rw [length_finish_push rfl] at hlast
      omega
  | some begun =>
      rw [length_finish] at hfirst hnext
      simp only [Option.isSome_some, if_true] at hfirst hnext
      have hsame : found = reached := by
        refine List.IsSuffix.eq_of_length hgrown ?_
        have hlength := hgrown.length_le
        dsimp only at hlength
        omega
      exact ⟨begun, by rw [hsame]⟩

end Decoder

-- ============================================================ cut anywhere

/-- The characters that some bytes are read as, but for one that is still
under way behind them. -/
def settled (bytes : Bytes) : List Char :=
  (bytes.foldl Decoder.push {}).found.reverse.map Piece.shown

/-- Whether a character is still under way behind some bytes. -/
def isMidway (bytes : Bytes) : Bool :=
  (bytes.foldl Decoder.push {}).begun.isSome

/-- What is under way is shown as broken. -/
theorem toList_decodeLossy (bytes : Bytes) :
    (decodeLossy bytes).toList
      = settled bytes ++ if isMidway bytes then ['\uFFFD'] else [] := by
  unfold decodeLossy settled isMidway pieces Decoder.finish
  rw [String.toList_ofList]
  cases (bytes.foldl Decoder.push {}).begun with
  | none => simp
  | some part => simp [Piece.shown]

/-- Whatever comes behind, the characters that are settled stay. -/
theorem settled_prefix (front behind : Bytes) :
    settled front <+: (decodeLossy (front ++ behind)).toList := by
  have hfound :=
    Decoder.found_suffix_foldl behind (front.foldl Decoder.push {})
  rw [← List.foldl_append] at hfound
  have hsettled : settled front <+: settled (front ++ behind) :=
    (List.reverse_prefix.2 hfound).map Piece.shown
  rw [toList_decodeLossy]
  exact hsettled.trans (List.prefix_append ..)

-- ============================================================= cut in a text

/-- A limit falls strictly inside of a character. -/
def CutsInside (limit : Nat) (cs : List Char) : Prop :=
  ∃ front c behind, cs = front ++ c :: behind
    ∧ (encodeChars front).length < limit
    ∧ limit < (encodeChars (front ++ [c])).length

/-- The longest beginning of some characters that takes no more bytes than the
limit. -/
structure IsLongest (limit : Nat) (cs front : List Char) : Prop where
  begins : front <+: cs
  fits : (encodeChars front).length ≤ limit
  longest : ∀ other, other <+: cs → (encodeChars other).length ≤ limit →
    other <+: front

/-- As many characters come in front of a limit as fit; the next one ends
behind it. -/
theorem exists_fitting (limit : Nat) (cs : List Char) :
    ∃ front behind, cs = front ++ behind
      ∧ (encodeChars front).length ≤ limit
      ∧ ∀ c ∈ behind.head?, limit < (encodeChars (front ++ [c])).length := by
  induction cs generalizing limit with
  | nil => exact ⟨[], [], rfl, Nat.zero_le _, by simp⟩
  | cons c cs ih =>
      by_cases hfits : (String.utf8EncodeChar c).length ≤ limit
      · obtain ⟨front, behind, rfl, hfront, hnext⟩ :=
          ih (limit - (String.utf8EncodeChar c).length)
        refine ⟨c :: front, behind, rfl, ?_, fun next hmem => ?_⟩
        · rw [encodeChars_cons, List.length_append]
          omega
        · have hlt := hnext next hmem
          rw [List.cons_append, encodeChars_cons, List.length_append]
          omega
      · refine ⟨[], c :: cs, rfl, Nat.zero_le _, fun next hmem => ?_⟩
        obtain rfl : c = next := Option.some.inj hmem
        rw [List.nil_append, encodeChars_singleton]
        omega

/-- Where the next character does not fit, no longer beginning does. -/
theorem isLongest_of_fits {limit : Nat} {front behind : List Char}
    (hfront : (encodeChars front).length ≤ limit)
    (hnext : ∀ c ∈ behind.head?,
      limit < (encodeChars (front ++ [c])).length) :
    IsLongest limit (front ++ behind) front where
  begins := List.prefix_append ..
  fits := hfront
  longest := by
    intro other hother hfits
    rcases List.prefix_or_prefix_of_prefix hother
      (List.prefix_append front behind) with hshorter | ⟨more, rfl⟩
    · exact hshorter
    · cases more with
      | nil => simp
      | cons c more =>
          obtain ⟨rest, rfl⟩ := (List.prefix_append_right_inj front).1 hother
          have hlt := hnext c rfl
          rw [List.append_cons, encodeChars_append, List.length_append]
            at hfits
          omega

/-- Between characters nothing is under way. -/
theorem settled_encodeChars (front : List Char) :
    settled (encodeChars front) = front
      ∧ isMidway (encodeChars front) = false := by
  unfold settled isMidway
  rw [foldl_push_chars]
  simp

/-- Inside of a character, what is in front of it is settled, and the
character itself is under way. -/
theorem settled_inside {limit : Nat} {front : List Char} {c : Char}
    (behind : List Char) (hfront : (encodeChars front).length < limit)
    (hlimit : limit < (encodeChars (front ++ [c])).length) :
    settled ((encodeChars (front ++ c :: behind)).take limit) = front
      ∧ isMidway ((encodeChars (front ++ c :: behind)).take limit)
        = true := by
  rw [encodeChars_append, encodeChars_singleton, List.length_append] at hlimit
  let rest := limit - (encodeChars front).length
  have htake : (encodeChars (front ++ c :: behind)).take limit
      = encodeChars front ++ (String.utf8EncodeChar c).take rest := by
    rw [encodeChars_append, encodeChars_cons, List.take_append,
      List.take_of_length_le (Nat.le_of_lt hfront),
      List.take_append_of_le_length (by omega)]
  have hpart : (String.utf8EncodeChar c).take rest ≠ [] := by
    apply List.ne_nil_of_length_pos
    rw [List.length_take]
    omega
  have hleft : (String.utf8EncodeChar c).drop rest ≠ [] := by
    apply List.ne_nil_of_length_pos
    rw [List.length_drop]
    omega
  obtain ⟨begun, hbegun⟩ :=
    Decoder.exists_begun (List.take_append_drop rest _).symm hpart hleft
      ((front.map Piece.char).reverse ++ [])
  unfold settled isMidway
  rw [htake, List.foldl_append, foldl_push_chars, hbegun]
  simp

/-- Cut at a limit, a text has settled the longest beginning that fits, and has
a character under way if the cut is inside of it. -/
theorem settled_take (limit : Nat) (cs : List Char) :
    IsLongest limit cs (settled ((encodeChars cs).take limit))
      ∧ (isMidway ((encodeChars cs).take limit) = true
          ↔ CutsInside limit cs) := by
  obtain ⟨front, behind, rfl, hfront, hnext⟩ := exists_fitting limit cs
  have hlongest := isLongest_of_fits hfront hnext
  have between (hhead : (encodeChars (front ++ behind)).take limit
      = encodeChars front) :
      IsLongest limit (front ++ behind)
          (settled ((encodeChars (front ++ behind)).take limit))
        ∧ (isMidway ((encodeChars (front ++ behind)).take limit) = true
            ↔ CutsInside limit (front ++ behind)) := by
    obtain ⟨hsettled, hmidway⟩ := settled_encodeChars front
    constructor
    · rw [hhead, hsettled]
      exact hlongest
    · constructor
      · intro hunder
        rw [hhead, hmidway] at hunder
        cases hunder
      · rintro ⟨before, c, after, hcs, hbefore, hlimit⟩
        rw [hcs]
        exact (settled_inside after hbefore hlimit).2
  cases behind with
  | nil =>
      apply between
      rw [List.append_nil]
      exact List.take_of_length_le hfront
  | cons c others =>
      have hlimit : limit < (encodeChars (front ++ [c])).length := hnext c rfl
      rcases Nat.lt_or_eq_of_le hfront with hlt | heq
      · obtain ⟨hsettled, hmidway⟩ := settled_inside others hlt hlimit
        rw [hsettled]
        exact ⟨hlongest, iff_of_true hmidway
          ⟨front, c, others, rfl, hlt, hlimit⟩⟩
      · apply between
        rw [encodeChars_append]
        exact List.take_left' heq

end Utf8

-- ============================================================== the result

namespace Capture

/-- **A cut breaks off one character at most.** However a stream comes in
chunks and whatever is in it, its capture shows a beginning of the text that
the whole stream would be read as, with one mark for a broken character behind
it or without. Where the stream is a text, that beginning is the longest of
whole characters that fits the limit; the mark is there just if the limit falls
inside of a character; and if nothing was cut off, what is shown is the text.
What is shown is a text in any case, so it stays what it is when it is encoded
and read again. -/
theorem text_of_cut (limit : Nat) (chunks : List Bytes) :
    (∃ whole : List Char,
      whole <+: (Utf8.decodeLossy chunks.flatten).toList
        ∧ ((ofChunks limit chunks).text.toList = whole
          ∨ (ofChunks limit chunks).text.toList = whole ++ ['\uFFFD'])
        ∧ ∀ s, Utf8.encode s = chunks.flatten →
            Utf8.IsLongest limit s.toList whole
              ∧ ((ofChunks limit chunks).text.toList = whole ++ ['\uFFFD']
                  ↔ Utf8.CutsInside limit s.toList)
              ∧ ((ofChunks limit chunks).isTruncated = false →
                  (ofChunks limit chunks).text = s))
      ∧ Utf8.decode? (Utf8.encode (ofChunks limit chunks).text)
          = some (ofChunks limit chunks).text
      ∧ Utf8.decodeLossy (Utf8.encode (ofChunks limit chunks).text)
          = (ofChunks limit chunks).text := by
  have hholds := holds_ofChunks limit chunks
  have hlimit := limit_ofChunks limit chunks
  generalize ofChunks limit chunks = c at hholds hlimit ⊢
  subst hlimit
  let head := chunks.flatten.take c.limit
  have htext : c.text.toList
      = Utf8.settled head
        ++ if Utf8.isMidway head then ['\uFFFD'] else [] := by
    rw [hholds.text, Utf8.toList_decodeLossy]
  refine ⟨⟨Utf8.settled head, ?_, ?_, fun s hs => ?_⟩,
    Utf8.decode?_encode _, Utf8.decodeLossy_encode _⟩
  · have hbegins := Utf8.settled_prefix head (chunks.flatten.drop c.limit)
    rw [List.take_append_drop] at hbegins
    exact hbegins
  · rw [htext]
    split
    · exact Or.inr rfl
    · exact Or.inl (List.append_nil _)
  · obtain ⟨hlongest, hmidway⟩ := Utf8.settled_take c.limit s.toList
    rw [show Utf8.encodeChars s.toList = chunks.flatten from hs]
      at hlongest hmidway
    refine ⟨hlongest, ?_, fun hwhole => ?_⟩
    · rw [htext, ← hmidway, List.append_right_inj]
      simp [head]
    · have hfits : chunks.flatten.length ≤ c.limit := by
        rw [← Nat.not_lt, ← hholds.isTruncated_iff, hwhole]
        simp
      rw [hholds.text, List.take_of_length_le hfits, ← hs,
        Utf8.decodeLossy_encode]

/-- A text of which the chunks cut one character and the limit another shows
the first whole and the second broken; with room for all of it, it is shown as
it is. -/
theorem text_of_cut_twice :
    (∃ whole : List Char,
      Utf8.IsLongest 4 ['a', 'é', 'é'] whole
        ∧ (ofChunks 4 [[0x61, 0xC3], [], [0xA9, 0xC3, 0xA9]]).text.toList
          = whole ++ ['\uFFFD'])
      ∧ (ofChunks 5 [[0x61, 0xC3], [], [0xA9, 0xC3, 0xA9]]).text = "aéé" := by
  have hs : Utf8.encode "aéé"
      = [[0x61, 0xC3], [], [0xA9, 0xC3, 0xA9]].flatten := by decide
  constructor
  · obtain ⟨⟨whole, -, -, htext⟩, -⟩ :=
      text_of_cut 4 [[0x61, 0xC3], [], [0xA9, 0xC3, 0xA9]]
    obtain ⟨hlongest, hmark, -⟩ := htext "aéé" hs
    exact ⟨whole, hlongest,
      hmark.2 ⟨['a', 'é'], 'é', [], by decide, by decide, by decide⟩⟩
  · obtain ⟨⟨whole, -, -, htext⟩, -⟩ :=
      text_of_cut 5 [[0x61, 0xC3], [], [0xA9, 0xC3, 0xA9]]
    exact (htext "aéé" hs).2.2 (by decide)

end Capture

end Toolrun
