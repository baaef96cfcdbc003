/-
UTF-8, in both directions.

Decoding is a small automaton that takes one byte at a time, so that a text
may arrive in any pieces and still decode alike: the decoder's state after a
concatenation is its state after the first part, fed the second. Whatever is
not UTF-8 is cut into the longest stretches that could have begun a
character, one broken piece for each; a lossy reading shows every broken
piece as U+FFFD, a strict reading refuses the text.
-/
import Toolrun.Bytes

namespace Toolrun.Utf8

-- ========================================================= encoding

/-- The UTF-8 form of a list of characters. -/
def encodeChars (cs : List Char) : Bytes := cs.flatMap String.utf8EncodeChar

/-- The UTF-8 form of a text. -/
def encode (s : String) : Bytes := encodeChars s.toList

-- ========================================================= decoding

/-- What decoding finds: a character, or bytes that are part of none. -/
inductive Piece where
  | char (c : Char)
  | broken
  deriving DecidableEq, Repr

/-- A character begun and not yet complete: how many bytes are still to
come, the bits read so far, and where the next byte has to lie. -/
structure Begun where
  missing : Nat
  bits : Nat
  low : UInt8
  high : UInt8
  deriving DecidableEq, Repr

/-- What a first byte announces: a whole character, a longer one, or
nothing. The ranges leave out overlong forms, surrogates and everything
beyond U+10FFFF. -/
def lead (b : UInt8) : Piece ⊕ Begun :=
  let begin (missing : Nat) (base low high : UInt8) : Piece ⊕ Begun :=
    .inr ⟨missing, (b - base).toNat, low, high⟩
  if b < 0x80 then .inl (.char (Char.ofNat b.toNat))
  else if b < 0xC2 then .inl .broken
  else if b < 0xE0 then begin 1 0xC0 0x80 0xBF
  else if b = 0xE0 then begin 2 0xE0 0xA0 0xBF
  else if b = 0xED then begin 2 0xE0 0x80 0x9F
  else if b < 0xF0 then begin 2 0xE0 0x80 0xBF
  else if b = 0xF0 then begin 3 0xF0 0x90 0xBF
  else if b < 0xF4 then begin 3 0xF0 0x80 0xBF
  else if b = 0xF4 then begin 3 0xF0 0x80 0x8F
  else .inl .broken

/-- The decoder between two bytes: a character under way, if any, and the
pieces found so far, the newest first. -/
structure Decoder where
  begun : Option Begun := none
  found : List Piece := []
  deriving DecidableEq, Repr

namespace Decoder

/-- Takes a byte that stands where a character may begin. -/
def first (d : Decoder) (b : UInt8) : Decoder :=
  match lead b with
  | .inl piece => { begun := none, found := piece :: d.found }
  | .inr begun => { begun := some begun, found := d.found }

/-- Takes one byte. A byte that cannot continue the character under way
breaks it off and is read anew, as a first byte. -/
def push (d : Decoder) (b : UInt8) : Decoder :=
  match d.begun with
  | none => d.first b
  | some part =>
    if part.low ≤ b ∧ b ≤ part.high then
      let bits := part.bits * 64 + (b - 0x80).toNat
      if part.missing ≤ 1 then
        { begun := none, found := .char (Char.ofNat bits) :: d.found }
      else
        { d with begun := some ⟨part.missing - 1, bits, 0x80, 0xBF⟩ }
    else
      first { begun := none, found := .broken :: d.found } b

/-- The pieces in order; a character that never became complete is one
broken piece. -/
def finish (d : Decoder) : List Piece :=
  match d.begun with
  | none => d.found.reverse
  | some _ => (.broken :: d.found).reverse

end Decoder

/-- The pieces of a byte string. -/
def pieces (bytes : Bytes) : List Piece := (bytes.foldl Decoder.push {}).finish

/-- The character that stands for a piece: U+FFFD for a broken one. -/
def Piece.shown : Piece → Char
  | .char c => c
  | .broken => '\uFFFD'

/-- A byte string as text, with U+FFFD for what is not UTF-8. -/
def decodeLossy (bytes : Bytes) : String :=
  String.ofList ((pieces bytes).map Piece.shown)

/-- The character a piece is, if it is one. -/
def Piece.char? : Piece → Option Char
  | .char c => some c
  | .broken => none

/-- A byte string as text, if it is UTF-8 from end to end. -/
def decode? (bytes : Bytes) : Option String :=
  ((pieces bytes).mapM Piece.char?).map String.ofList

end Toolrun.Utf8
