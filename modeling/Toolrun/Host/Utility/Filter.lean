/-
What programs make of their whole input: dumps, counts, letters replaced or
left out, the last lines.
-/
import Toolrun.Host.Shell.Source

namespace Toolrun.Host

/-- What a program makes of its whole input. -/
inductive Filter where
  | dump (addresses : Bool)
  | drop (set : List Char)
  | replace (set : List Char) (others : List Char)
  | count (lines words bytes : Bool) (name : Option Letters)
  | lastLines (n : Nat)

/-- Two hexadecimal digits for a byte. -/
def twoDigits (b : UInt8) : Letters :=
  [Nat.digitChar (b.toNat / 16), Nat.digitChar (b.toNat % 16)]

/-- An address in octal. -/
def address (n : Nat) : Letters :=
  let digits := Nat.toDigits 8 n
  List.replicate (7 - digits.length) '0' ++ digits

/-- Bytes in rows of sixteen. The fuel is their number. -/
def rows : Nat → Bytes → List Bytes
  | 0, _ => []
  | _ + 1, [] => []
  | n + 1, bytes => bytes.take 16 :: rows n (bytes.drop 16)

/-- The lines of a dump; of rows that are alike, a star stands for all but
the first. -/
def dumpLines (addresses : Bool) :
    Nat → Option Bytes → Bool → List Bytes → List Letters
  | _, _, _, [] => []
  | position, before, starred, row :: others =>
    let next := position + row.length
    if before = some row && row.length = 16 then
      (if starred then [] else [['*', '\n']]) ++
        dumpLines addresses next before true others
    else
      ((if addresses then address position else []) ++
        row.flatMap (fun b => ' ' :: twoDigits b) ++ ['\n']) ::
        dumpLines addresses next (some row) false others

/-- The last lines of a text. -/
def lastLines (n : Nat) (bytes : Bytes) : Bytes :=
  let pieces := piecesOf 0x0A bytes
  let isWhole := bytes.getLast? = some 0x0A
  let kept := if isWhole then n + 1 else n
  [(0x0A : UInt8)].intercalate (pieces.drop (pieces.length - kept))

/-- Whether a byte is a blank between words. -/
def isGap (b : UInt8) : Bool := b = 0x20 || (0x09 ≤ b && b ≤ 0x0D)

/-- The number of words in a text. -/
def wordCount (bytes : Bytes) : Nat :=
  (bytes.foldl
    (fun (s : Nat × Bool) b =>
      if isGap b then (s.1, false)
      else (if s.2 then s.1 else s.1 + 1, true))
    (0, false)).1

/-- What a filter writes. -/
def Filter.apply (bytes : Bytes) : Filter → Bytes
  | dump addresses =>
    let lines := dumpLines addresses 0 none false (rows bytes.length bytes)
    let ending := if addresses then address bytes.length ++ ['\n'] else []
    Letters.toBytes (lines.flatten ++ ending)
  | drop set =>
    bytes.filter fun b => !set.contains (Char.ofNat b.toNat)
  | replace set others =>
    bytes.map fun b =>
      match set.idxOf? (Char.ofNat b.toNat) with
      | some i =>
        match others[i]? <|> others.getLast? with
        | some c => UInt8.ofNat c.toNat
        | none => b
      | none => b
  | count lines words whole name =>
    let figures :=
      (if lines then [bytes.count 0x0A] else []) ++
      (if words then [wordCount bytes] else []) ++
      (if whole then [bytes.length] else [])
    let width := if figures.length ≤ 1 then 0 else 7
    let shown := figures.map fun n =>
      let digits := Nat.toDigits 10 n
      List.replicate (width - digits.length) ' ' ++ digits
    let shown := shown ++ name.toList
    Letters.toBytes ([' '].intercalate shown ++ ['\n'])
  | lastLines n => Host.lastLines n bytes

/-- A set of letters as `tr` reads it: escapes, and ranges. -/
def setOfLetters : Letters → List Char
  | a :: '-' :: b :: rest =>
    ((List.range (b.toNat + 1 - a.toNat)).map fun n =>
      Char.ofNat (a.toNat + n)) ++ setOfLetters rest
  | a :: rest => a :: setOfLetters rest
  | [] => []

end Toolrun.Host
