/-
Writing JSON on one line, without spaces. In a string the quote, the
backslash and the control characters are escaped, by a letter where there is
one and else by number; everything else stands for itself.
-/
import Toolrun.Json.Value

namespace Toolrun.Json

/-- A hexadecimal digit in lower case. -/
def hexDigit (n : Nat) : UInt8 :=
  if n < 10 then 0x30 + UInt8.ofNat n else 0x57 + UInt8.ofNat n

/-- The letter that names a byte in an escape, if there is one. -/
def escapeLetter? (b : UInt8) : Option UInt8 :=
  if b = 0x22 then some 0x22
  else if b = 0x5C then some 0x5C
  else if b = 0x08 then some 0x62
  else if b = 0x0C then some 0x66
  else if b = 0x0A then some 0x6E
  else if b = 0x0D then some 0x72
  else if b = 0x09 then some 0x74
  else none

/-- A byte of a string as it is written. -/
def escapeByte (b : UInt8) : Bytes :=
  match escapeLetter? b with
  | some letter => [0x5C, letter]
  | none =>
    if b < 0x20 then
      [0x5C, 0x75, 0x30, 0x30, hexDigit (b.toNat / 16), hexDigit (b.toNat % 16)]
    else [b]

/-- A string between quotes. -/
def quote (text : Bytes) : Bytes :=
  0x22 :: (text.flatMap escapeByte ++ [0x22])

/-- Written parts with commas between them. -/
def commaSeparated : List Bytes → Bytes
  | [] => []
  | [part] => part
  | part :: others => part ++ 0x2C :: commaSeparated others

/-- A number as written. -/
def Numeral.render (n : Numeral) : Bytes :=
  (if n.negative then [0x2D] else []) ++ n.whole ++
    (if n.fraction.isEmpty then [] else 0x2E :: n.fraction) ++
    match n.exponent with
    | none => []
    | some (down, digits) => 0x65 :: (if down then [0x2D] else []) ++ digits

mutual

/-- A value as it is written. -/
def render : Json → Bytes
  | .null => [0x6E, 0x75, 0x6C, 0x6C]
  | .bool true => [0x74, 0x72, 0x75, 0x65]
  | .bool false => [0x66, 0x61, 0x6C, 0x73, 0x65]
  | .number n => n.render
  | .string text => quote text
  | .array items => 0x5B :: (commaSeparated (renderItems items) ++ [0x5D])
  | .object members =>
    0x7B :: (commaSeparated (renderMembers members) ++ [0x7D])

/-- The items of a list, each as it is written. -/
def renderItems : List Json → List Bytes
  | [] => []
  | item :: others => render item :: renderItems others

/-- The members of an object, each as it is written. -/
def renderMembers : List (Bytes × Json) → List Bytes
  | [] => []
  | (name, value) :: others =>
    (quote name ++ 0x3A :: render value) :: renderMembers others

end

end Toolrun.Json
