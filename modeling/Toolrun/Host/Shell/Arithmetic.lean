/-
Expressions over whole numbers, as scripts count with them.
-/
import Toolrun.Host.Shell.Word

namespace Toolrun.Host.Shell.Arithmetic

/-- Why an expression has no value. -/
inductive Fault where
  | divisionByZero
  | malformed
  deriving DecidableEq

/-- The wording of a fault. -/
def Fault.message : Fault → String
  | .divisionByZero => "division by zero"
  | .malformed => "expecting primary"

/-- What expressions consist of. -/
inductive Token where
  | number (n : Int)
  | name (letters : Letters)
  | operator (sign : String)
  deriving DecidableEq

/-- The operators, longer ones first. -/
def operators : List String :=
  ["<<", ">>", "<=", ">=", "==", "!=", "&&", "||", "+", "-", "*", "/", "%",
    "<", ">", "!", "~", "(", ")", "&", "|", "^", "?", ":"]

/-- The value of digits in some base. -/
def inBase (base : Nat) (digits : Letters) : Nat :=
  digits.foldl
    (fun n c =>
      let d :=
        if c.isDigit then c.toNat - 0x30
        else if c.toNat < 0x60 then c.toNat - 0x37 else c.toNat - 0x57
      n * base + d)
    0

/-- The value of a number as written: octal behind a zero, hexadecimal behind
`0x`. -/
def constant (word : Letters) : Nat :=
  match word with
  | '0' :: 'x' :: digits => inBase 16 digits
  | '0' :: digits => inBase 8 digits
  | digits => inBase 10 digits

/-- The tokens of an expression. A dollar sign in front of a name, and braces
around it, say nothing. -/
def tokensWithin : Nat → Letters → Option (List Token)
  | 0, _ => none
  | _ + 1, [] => some []
  | n + 1, c :: rest =>
    if [' ', '\t', '\n', '$', '\x7b', '\x7d'].contains c then
      tokensWithin n rest
    else if c.isDigit then
      let word := (c :: rest).takeWhile Char.isAlphanum
      (tokensWithin n ((c :: rest).drop word.length)).map
        (.number (constant word) :: ·)
    else if isNameLetter c || isSpecial c && c ≠ '!' && c ≠ '*' && c ≠ '-'
        && c ≠ '?' then
      let name := if isNameLetter c then (c :: rest).takeWhile isNameLetter
        else [c]
      (tokensWithin n ((c :: rest).drop name.length)).map (.name name :: ·)
    else
      match operators.find? fun o => o.toList.isPrefixOf (c :: rest) with
      | some sign =>
        (tokensWithin n ((c :: rest).drop sign.length)).map
          (.operator sign :: ·)
      | none => none

/-- The tokens of an expression. -/
def tokens (letters : Letters) : Option (List Token) :=
  tokensWithin (letters.length + 1) letters

/-- The operators between two values, by how weakly they bind. -/
def levels : List (List String) :=
  [["||"], ["&&"], ["|"], ["^"], ["&"], ["==", "!="],
    ["<=", ">=", "<", ">"], ["<<", ">>"], ["+", "-"], ["*", "/", "%"]]

/-- A truth value as a number. -/
def truth (b : Bool) : Int := if b then 1 else 0

/-- How many whole numbers there are. -/
def span : Nat := 18446744073709551616

/-- A number brought back among those that there are. -/
def wrapped (i : Int) : Int := Int.bmod i span

/-- The bits of a number. -/
def bits (i : Int) : Nat := (i % (span : Int)).toNat

/-- The number with some bits. -/
def ofBits (n : Nat) : Int := wrapped (Int.ofNat n)

/-- The value of an operator. -/
def apply (sign : String) (a b : Int) : Except Fault Int :=
  match sign with
  | "||" => .ok (truth (a ≠ 0 || b ≠ 0))
  | "&&" => .ok (truth (a ≠ 0 && b ≠ 0))
  | "|" => .ok (ofBits (bits a ||| bits b))
  | "^" => .ok (ofBits (bits a ^^^ bits b))
  | "&" => .ok (ofBits (bits a &&& bits b))
  | "==" => .ok (truth (a = b))
  | "!=" => .ok (truth (a ≠ b))
  | "<=" => .ok (truth (a ≤ b))
  | ">=" => .ok (truth (a ≥ b))
  | "<" => .ok (truth (a < b))
  | ">" => .ok (truth (a > b))
  | "<<" => .ok (ofBits (bits a <<< (bits b % 64)))
  | ">>" => .ok (a >>> (bits b % 64))
  | "+" => .ok (wrapped (a + b))
  | "-" => .ok (wrapped (a - b))
  | "*" => .ok (wrapped (a * b))
  | "/" => if b = 0 then .error .divisionByZero else .ok (a.tdiv b)
  | "%" => if b = 0 then .error .divisionByZero else .ok (a.tmod b)
  | _ => .error .malformed

/-- A reader of a value: the value, and the tokens behind it. -/
abbrev Operand := List Token → Except Fault (Int × List Token)

/-- Goes on with operators of one level behind a value. -/
def continueWith (operand : Operand) (signs : List String) :
    Nat → Int → Operand
  | 0, a, tokens => .ok (a, tokens)
  | n + 1, a, .operator sign :: rest =>
    if signs.contains sign then do
      let (b, rest) ← operand rest
      continueWith operand signs n (← apply sign a b) rest
    else .ok (a, .operator sign :: rest)
  | _ + 1, a, tokens => .ok (a, tokens)

/-- An expression with the operators of some levels. -/
def binary (operand : Operand) : List (List String) → Operand
  | [], tokens => operand tokens
  | signs :: tighter, tokens => do
    let (a, rest) ← binary operand tighter tokens
    continueWith (binary operand tighter) signs rest.length a rest

/-- A value without an operator behind it. -/
def operand (lookup : Letters → Int) : Nat → Operand
  | 0, _ => .error .malformed
  | n + 1, tokens =>
    match tokens with
    | .number v :: rest => .ok (v, rest)
    | .name letters :: rest => .ok (lookup letters, rest)
    | .operator "-" :: rest => do
      let (v, rest) ← operand lookup n rest
      .ok (-v, rest)
    | .operator "+" :: rest => operand lookup n rest
    | .operator "!" :: rest => do
      let (v, rest) ← operand lookup n rest
      .ok (truth (v = 0), rest)
    | .operator "~" :: rest => do
      let (v, rest) ← operand lookup n rest
      .ok (-v - 1, rest)
    | .operator "(" :: rest => do
      let (v, rest) ← binary (operand lookup n) levels rest
      match rest with
      | .operator ")" :: rest => .ok (v, rest)
      | _ => .error .malformed
    | _ => .error .malformed

/-- An expression, in which a choice between two values may come last. -/
def choice (whole : Operand) : Operand := fun tokens => do
  let (v, rest) ← whole tokens
  match rest with
  | .operator "?" :: rest => do
    let (yes, rest) ← whole rest
    match rest with
    | .operator ":" :: rest => do
      let (no, rest) ← whole rest
      .ok (if v ≠ 0 then yes else no, rest)
    | _ => .error .malformed
  | rest => .ok (v, rest)

/-- The value of an expression; an empty one is zero. -/
def value (lookup : Letters → Int) (letters : Letters) : Except Fault Int :=
  match tokens letters with
  | none => .error .malformed
  | some [] => .ok 0
  | some tokens => do
    let whole := binary (operand lookup (tokens.length + 1)) levels
    let (v, rest) ← choice whole tokens
    if rest.isEmpty then .ok v else .error .malformed

end Toolrun.Host.Shell.Arithmetic
