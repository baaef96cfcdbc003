/-
Decimal numerals: reading the unsigned 64-bit numbers that the settings are
made of, and writing numbers back. A numeral is read from the left, one digit
at a time, and the first digit that does not fit ends the reading; so the
reason given for a bad numeral is that of its first offending character.
-/
import Toolrun.Text.Utf8

namespace Toolrun.Numeral

/-- Why a numeral was refused. -/
inductive Fault where
  | empty
  | invalidDigit
  | tooLarge
  deriving DecidableEq, Repr

/-- The wording of a refusal. -/
def Fault.message : Fault → String
  | .empty => "cannot parse integer from empty string"
  | .invalidDigit => "invalid digit found in string"
  | .tooLarge => "number too large to fit in target type"

/-- The value of a decimal digit. -/
def digit? (c : Char) : Option Nat :=
  if '0' ≤ c ∧ c ≤ '9' then some (c.toNat - '0'.toNat) else none

/-- One more digit behind a number that fits in 64 bits. -/
def push (value : Nat) (c : Char) : Except Fault Nat :=
  match digit? c with
  | none => .error .invalidDigit
  | some d =>
    if value * 10 + d < UInt64.size then .ok (value * 10 + d)
    else .error .tooLarge

/-- Digits without a sign. -/
def readDigits (cs : List Char) : Except Fault Nat := cs.foldlM push 0

/-- An unsigned 64-bit number: one `+` is allowed in front, and there has to
be a digit. -/
def readChars (cs : List Char) : Except Fault UInt64 :=
  match cs with
  | [] => .error .empty
  | ['+'] => .error .invalidDigit
  | '+' :: digits => UInt64.ofNat <$> readDigits digits
  | digits => UInt64.ofNat <$> readDigits digits

/-- An unsigned 64-bit number written in decimal. -/
def read (s : String) : Except Fault UInt64 := readChars s.toList

/-- A number in decimal, without leading zeros. -/
def decimal (n : Nat) : String := String.ofList (Nat.toDigits 10 n)

/-- A signed number in decimal. -/
def signedDecimal : Int → String
  | .ofNat n => decimal n
  | .negSucc n => "-" ++ decimal (n + 1)

end Toolrun.Numeral
