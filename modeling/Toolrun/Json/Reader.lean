/-
Reading JSON, strictly: white space is space, tab, line feed and carriage
return, nothing may follow the last item of a list or object but its bracket,
and lists and objects nest at most to a fixed depth. Every reader takes the
unread bytes and gives back a result with the bytes that follow it, or the
first fault from the left.

Nesting is bounded by a budget, which is what the recursion over values runs
on; the loops over characters and items run on fuel, of which the length of
the whole text is enough, since each round takes at least one byte.
-/
import Toolrun.Json.Value
import Toolrun.Json.Fault
import Toolrun.Text.Binary64

namespace Toolrun.Json

namespace Reader

/-- White space between tokens. -/
def isSpace (b : UInt8) : Bool :=
  b == 0x20 || b == 0x09 || b == 0x0A || b == 0x0D

/-- The bytes from the next token on. -/
def skipSpace (rest : Bytes) : Bytes := rest.dropWhile isSpace

-- ============================================================ words

/-- The remaining letters of a word whose first letter has been read. -/
def word (value : Json) : Bytes → Bytes → Except Fault (Json × Bytes)
  | [], rest => .ok (value, rest)
  | _ :: _, [] => .error (.before .endInValue [])
  | w :: ws, b :: rest =>
    if b = w then word value ws rest else .error (.before .expectedWord rest)

-- ========================================================== numbers

/-- An ASCII digit. -/
def isDigit (b : UInt8) : Bool := 0x30 ≤ b && b ≤ 0x39

/-- The value of an ASCII digit. -/
def digitValue (b : UInt8) : Nat := (b - 0x30).toNat

/-- A significand gathered digit by digit, as long as it fits in 64 bits:
its value, the power of ten it is short of, and whether a digit had to be
dropped. -/
structure Significand where
  value : Nat
  shift : Int
  full : Bool
  deriving DecidableEq, Repr

/-- Takes a digit before the point. Once one has been dropped, those behind
it only raise the power. -/
def Significand.pushWhole (s : Significand) (b : UInt8) : Significand :=
  let grown := s.value * 10 + digitValue b
  if s.full || UInt64.size ≤ grown then
    { s with shift := s.shift + 1, full := true }
  else { s with value := grown }

/-- Takes a digit behind the point. Once one has been dropped, those behind
it do not matter. -/
def Significand.pushFraction (s : Significand) (b : UInt8) : Significand :=
  let grown := s.value * 10 + digitValue b
  if s.full || UInt64.size ≤ grown then { s with full := true }
  else { s with value := grown, shift := s.shift - 1 }

/-- The significand of the digits on both sides of the point. -/
def significand (whole fraction : Bytes) : Significand :=
  let s := whole.foldl Significand.pushWhole ⟨0, 0, false⟩
  fraction.foldl Significand.pushFraction { s with full := false }

/-- The value of an exponent's digits, and the digits left over once the
value no longer fits in 31 bits. -/
def exponentValue : Bytes → Nat → Option Bytes × Nat
  | [], value => (none, value)
  | b :: rest, value =>
    let grown := value * 10 + digitValue b
    if 2 ^ 31 ≤ grown then (some rest, value) else exponentValue rest grown

/-- Whether a number lies in the range of binary64; if not, how many of its
last digits need not be read to see it. -/
def excess (n : Numeral) : Option Nat :=
  let s := significand n.whole n.fraction
  match n.exponent with
  | none => if Binary64.scaleOverflows s.value s.shift then some 0 else none
  | some (down, digits) =>
    match exponentValue digits 0 with
    | (some leftOver, _) =>
      if s.value ≠ 0 && !down then some leftOver.length else none
    | (none, e) =>
      let e := if down then s.shift - (e : Int) else s.shift + (e : Int)
      if Binary64.scaleOverflows s.value e then some 0 else none

/-- The digits before the point: a zero stands alone. -/
def wholePart : Bytes → Except Fault (Bytes × Bytes)
  | [] => .error (.before .endInValue [])
  | b :: rest =>
    if b = 0x30 then
      match rest with
      | c :: _ =>
        if isDigit c then .error (.at .invalidNumber rest)
        else .ok ([b], rest)
      | [] => .ok ([b], [])
    else if isDigit b then
      .ok (b :: rest.takeWhile isDigit, rest.dropWhile isDigit)
    else .error (.before .invalidNumber rest)

/-- The digits behind a point, if there is one. -/
def fractionPart : Bytes → Except Fault (Bytes × Bytes)
  | 0x2E :: rest =>
    match rest.takeWhile isDigit with
    | [] =>
      .error (.at (if rest.isEmpty then .endInValue else .invalidNumber) rest)
    | digits => .ok (digits, rest.dropWhile isDigit)
  | rest => .ok ([], rest)

/-- The digits of an exponent behind its sign. -/
def exponentDigits (down : Bool) :
    Bytes → Except Fault ((Option (Bool × Bytes)) × Bytes)
  | [] => .error (.before .endInValue [])
  | b :: rest =>
    if isDigit b then
      .ok (some (down, b :: rest.takeWhile isDigit), rest.dropWhile isDigit)
    else .error (.before .invalidNumber rest)

/-- An exponent, if there is one. -/
def exponentPart : Bytes → Except Fault ((Option (Bool × Bytes)) × Bytes)
  | [] => .ok (none, [])
  | e :: rest =>
    if e = 0x65 || e = 0x45 then
      match rest with
      | 0x2B :: rest => exponentDigits false rest
      | 0x2D :: rest => exponentDigits true rest
      | rest => exponentDigits false rest
    else .ok (none, e :: rest)

/-- A number, sign and all. A number outside the range of binary64 is a
fault, found at the digit that shows it. -/
def number (negative : Bool) (rest : Bytes) : Except Fault (Json × Bytes) := do
  let (whole, rest) ← wholePart rest
  let (fraction, rest) ← fractionPart rest
  let (exponent, rest) ← exponentPart rest
  let n : Numeral := ⟨negative, whole, fraction, exponent⟩
  match excess n with
  | none => .ok (.number n, rest)
  | some digits => .error ⟨.numberOutOfRange, rest.length + digits⟩

-- ========================================================== strings

/-- The value of a hexadecimal digit. -/
def hexValue? (b : UInt8) : Option Nat :=
  if isDigit b then some (b - 0x30).toNat
  else if 0x61 ≤ b && b ≤ 0x66 then some ((b - 0x61).toNat + 10)
  else if 0x41 ≤ b && b ≤ 0x46 then some ((b - 0x41).toNat + 10)
  else none

/-- Four hexadecimal digits. With fewer than four bytes left the string has
no end, whatever they are. -/
def hexQuad : Bytes → Except Fault (Nat × Bytes)
  | a :: b :: c :: d :: rest =>
    match hexValue? a, hexValue? b, hexValue? c, hexValue? d with
    | some a, some b, some c, some d =>
      .ok (((a * 16 + b) * 16 + c) * 16 + d, rest)
    | _, _, _, _ => .error (.before .invalidEscape rest)
  | _ => .error (.before .endInString [])

/-- The second half of a surrogate pair, backslash and all. -/
def secondHalf : Bytes → Except Fault (Nat × Bytes)
  | [] => .error (.before .endInString [])
  | b :: rest =>
    if b ≠ 0x5C then .error (.before .unpairedSurrogate rest)
    else
      match rest with
      | [] => .error (.before .endInString [])
      | u :: rest =>
        if u ≠ 0x75 then .error (.before .unpairedSurrogate rest)
        else hexQuad rest

/-- The character a numeric escape names, from behind the `u`. -/
def unicodeEscape (rest : Bytes) : Except Fault (Char × Bytes) := do
  let (first, rest) ← hexQuad rest
  if 0xDC00 ≤ first && first ≤ 0xDFFF then
    .error (.before .loneSurrogate rest)
  else if 0xD800 ≤ first && first ≤ 0xDBFF then
    let (second, rest) ← secondHalf rest
    if 0xDC00 ≤ second && second ≤ 0xDFFF then
      let code := 0x10000 + (first - 0xD800) * 0x400 + (second - 0xDC00)
      .ok (Char.ofNat code, rest)
    else .error (.before .loneSurrogate rest)
  else .ok (Char.ofNat first, rest)

/-- The byte a one-letter escape stands for. -/
def letterEscape? (b : UInt8) : Option UInt8 :=
  if b = 0x22 then some 0x22
  else if b = 0x5C then some 0x5C
  else if b = 0x2F then some 0x2F
  else if b = 0x62 then some 0x08
  else if b = 0x66 then some 0x0C
  else if b = 0x6E then some 0x0A
  else if b = 0x72 then some 0x0D
  else if b = 0x74 then some 0x09
  else none

/-- What an escape stands for, from behind the backslash. -/
def escape : Bytes → Except Fault (Bytes × Bytes)
  | [] => .error (.before .endInString [])
  | b :: rest =>
    if b = 0x75 then do
      let (c, rest) ← unicodeEscape rest
      .ok (String.utf8EncodeChar c, rest)
    else
      match letterEscape? b with
      | some plain => .ok ([plain], rest)
      | none => .error (.before .invalidEscape rest)

/-- The rest of a string behind what has been read of it, newest byte
first. -/
def stringFrom : Nat → Bytes → Bytes → Except Fault (Bytes × Bytes)
  | 0, _, rest => .error (.before .endInString rest)
  | _ + 1, _, [] => .error (.before .endInString [])
  | fuel + 1, found, b :: rest =>
    if b = 0x22 then .ok (found.reverse, rest)
    else if b = 0x5C then do
      let (plain, rest) ← escape rest
      stringFrom fuel (plain.reverse ++ found) rest
    else if b < 0x20 then .error (.before .controlCharacter rest)
    else stringFrom fuel (b :: found) rest

/-- A string from behind its opening quote. -/
def string (fuel : Nat) (rest : Bytes) : Except Fault (Bytes × Bytes) :=
  stringFrom fuel [] rest

-- ================================================ lists and objects

/-- How a kind of brackets closes, and what is wrong when it does not. -/
structure Brackets where
  close : UInt8
  atEnd : Cause
  expectedSeparator : Cause

/-- The brackets of a list. -/
def listBrackets : Brackets := ⟨0x5D, .endInList, .expectedListSeparator⟩

/-- The brackets of an object. -/
def objectBrackets : Brackets :=
  ⟨0x7D, .endInObject, .expectedObjectSeparator⟩

/-- The items behind those already read, newest first, up to and including
the closing bracket. -/
def itemsFrom {α : Type} (brackets : Brackets)
    (item : Bytes → Except Fault (α × Bytes)) :
    Nat → List α → Bytes → Except Fault (List α × Bytes)
  | 0, _, rest => .error (.at brackets.atEnd rest)
  | fuel + 1, found, rest =>
    match skipSpace rest with
    | [] => .error (.at brackets.atEnd [])
    | b :: after =>
      if b = brackets.close then .ok (found.reverse, after)
      else if found.isEmpty then do
        let (x, rest) ← item (b :: after)
        itemsFrom brackets item fuel (x :: found) rest
      else if b = 0x2C then
        match skipSpace after with
        | [] => .error (.at .endInValue [])
        | c :: behind =>
          if c = brackets.close then .error (.at .trailingComma (c :: behind))
          else do
            let (x, rest) ← item (c :: behind)
            itemsFrom brackets item fuel (x :: found) rest
      else .error (.at brackets.expectedSeparator (b :: after))

/-- The items of a list or object from behind its opening bracket. -/
def items {α : Type} (brackets : Brackets)
    (item : Bytes → Except Fault (α × Bytes)) (fuel : Nat) (rest : Bytes) :
    Except Fault (List α × Bytes) :=
  itemsFrom brackets item fuel [] rest

/-- A member of an object, whose value is read by `value`. -/
def member (fuel : Nat) (value : Bytes → Except Fault (Json × Bytes)) :
    Bytes → Except Fault ((Bytes × Json) × Bytes)
  | [] => .error (.at .keyNotString [])
  | b :: rest =>
    if b ≠ 0x22 then .error (.at .keyNotString (b :: rest))
    else do
      let (name, rest) ← string fuel rest
      match skipSpace rest with
      | [] => .error (.at .endInObject [])
      | c :: rest =>
        if c ≠ 0x3A then .error (.at .expectedColon (c :: rest))
        else do
          let (v, rest) ← value rest
          .ok ((name, v), rest)

/-- A value that is no list and no object, from its first byte `b`, which is
not white space. -/
def scalar (fuel : Nat) (b : UInt8) (rest : Bytes) :
    Except Fault (Json × Bytes) :=
  if b = 0x6E then word .null [0x75, 0x6C, 0x6C] rest
  else if b = 0x74 then word (.bool true) [0x72, 0x75, 0x65] rest
  else if b = 0x66 then word (.bool false) [0x61, 0x6C, 0x73, 0x65] rest
  else if b = 0x22 then do
    let (text, rest) ← string fuel rest
    .ok (.string text, rest)
  else if b = 0x2D then number true rest
  else if isDigit b then number false (b :: rest)
  else .error (.at .expectedValue (b :: rest))

/-- A value, with room for `budget` more brackets inside one another. -/
def value (fuel : Nat) : Nat → Bytes → Except Fault (Json × Bytes)
  | 0, rest =>
    match skipSpace rest with
    | [] => .error (.at .endInValue [])
    | b :: rest =>
      if b = 0x5B || b = 0x7B then .error (.at .tooDeep (b :: rest))
      else scalar fuel b rest
  | budget + 1, rest =>
    match skipSpace rest with
    | [] => .error (.at .endInValue [])
    | b :: rest =>
      if b = 0x5B then do
        let (found, rest) ← items listBrackets (value fuel budget) fuel rest
        .ok (.array found, rest)
      else if b = 0x7B then do
        let (found, rest) ←
          items objectBrackets (member fuel (value fuel budget)) fuel rest
        .ok (.object found, rest)
      else scalar fuel b rest

/-- Refuses anything but white space. -/
def expectEnd (rest : Bytes) : Except Fault Unit :=
  match skipSpace rest with
  | [] => .ok ()
  | b :: rest => .error (.at .trailingCharacters (b :: rest))

end Reader

/-- How many brackets may stand open at once. -/
def depthLimit : Nat := 127

/-- The fuel that is enough to read a text. -/
def fuelFor (text : Bytes) : Nat := text.length + 1

/-- The value a text is. -/
def read (text : Bytes) : Except Fault Json := do
  let (v, rest) ← Reader.value (fuelFor text) depthLimit text
  Reader.expectEnd rest
  .ok v

end Toolrun.Json
