/-
Reading the values that have no values inside: strings in their four forms,
numbers, booleans and dates. A reader gives nothing where the text is not
well formed; which way it fails does not matter.
-/
import Toolrun.Toml.Value

namespace Toolrun.Toml.Scalar

-- ============================================================= strings

/-- A character that may stand for itself in a string; a line break is none,
nor is what ends or escapes. -/
def isPlain (c : Char) : Bool := isCommentChar c

/-- The character a one-letter escape stands for. -/
def escapeLetter? : Char → Option Char
  | 'b' => some '\x08'
  | 't' => some '\t'
  | 'n' => some '\n'
  | 'f' => some '\x0c'
  | 'r' => some '\r'
  | '"' => some '"'
  | '\\' => some '\\'
  | _ => none

/-- The value of a hexadecimal digit. -/
def hexValue? (c : Char) : Option Nat :=
  match Numeral.digit? c with
  | some d => some d
  | none =>
    if 'a' ≤ c ∧ c ≤ 'f' then some (c.toNat - 'a'.toNat + 10)
    else if 'A' ≤ c ∧ c ≤ 'F' then some (c.toNat - 'A'.toNat + 10)
    else none

/-- The character with a code, if there is one. -/
def charOfCode? (n : Nat) : Option Char :=
  if n.isValidChar then some (Char.ofNat n) else none

/-- The character named by so many hexadecimal digits. -/
def hexEscape? (count : Nat) (c : Cursor) : Option (Char × Cursor) := do
  let digits := (c.rest.take count).filterMap hexValue?
  if digits.length = count then
    let ch ← charOfCode? (digits.foldl (fun n d => n * 16 + d) 0)
    some (ch, c.skip count)
  else none

/-- The character an escape stands for, from behind the backslash. -/
def escape? (c : Cursor) : Option (Char × Cursor) :=
  match c.rest with
  | 'u' :: _ => hexEscape? 4 (c.skip 1)
  | 'U' :: _ => hexEscape? 8 (c.skip 1)
  | letter :: _ => (escapeLetter? letter).map fun ch => (ch, c.skip 1)
  | [] => none

/-- The rest of a string on one line in double quotes; `found` is what has
been read of it, backwards. -/
def basic? : Nat → List Char → Cursor → Option (List Char × Cursor)
  | 0, _, _ => none
  | fuel + 1, found, c =>
    match c.rest with
    | [] => none
    | '"' :: _ => some (found.reverse, c.skip 1)
    | '\\' :: _ =>
      match escape? (c.skip 1) with
      | none => none
      | some (ch, c) => basic? fuel (ch :: found) c
    | ch :: _ =>
      if isPlain ch then basic? fuel (ch :: found) (c.skip 1) else none

/-- The rest of a string on one line in single quotes. -/
def literal? (c : Cursor) : Option (List Char × Cursor) :=
  let body := c.rest.takeWhile fun ch => isPlain ch && ch != '\''
  (((c.skip body.length).expect? ['\''])).map fun d => (body, d)

/-- What a run of so many quotes means inside a string over several lines:
one or two stand for themselves; three end the string, and up to two more in
front of those stand for themselves. -/
def closing? (quotes : Nat) : Option (Nat × Bool) :=
  if quotes ≤ 2 then some (quotes, false)
  else if quotes ≤ 5 then some (quotes - 3, true)
  else none

/-- Skips the white space and line breaks behind a line that is continued,
carriage returns in front of line feeds included. -/
def skipBlankLines : Nat → Cursor → Cursor
  | 0, c => c
  | fuel + 1, c =>
    let d := c.skipSpace
    match d.lineBreak? with
    | some e => skipBlankLines fuel e
    | none => d

/-- The rest of a string over several lines; `quote` ends it, and escapes are
read only between double quotes. -/
def multiline? (quote : Char) :
    Nat → List Char → Cursor → Option (List Char × Cursor)
  | 0, _, _ => none
  | fuel + 1, found, c =>
    match c.rest with
    | [] => none
    | ch :: _ =>
      if ch = quote then
        let quotes := (c.rest.takeWhile (· == quote)).length
        match closing? quotes with
        | none => none
        | some (kept, done) =>
          let found := List.replicate kept quote ++ found
          let d := c.skip quotes
          if done then some (found.reverse, d)
          else multiline? quote fuel found d
      else if ch = '\\' && quote = '"' then
        let d := c.skip 1
        match d.skipSpace.lineBreak? with
        | some e => multiline? quote fuel found (skipBlankLines fuel e)
        | none =>
          match escape? d with
          | none => none
          | some (ch, d) => multiline? quote fuel (ch :: found) d
      else
        match c.lineBreak? with
        | some d => multiline? quote fuel ('\n' :: found) d
        | none =>
          if isPlain ch then multiline? quote fuel (ch :: found) (c.skip 1)
          else none

/-- The cursor behind a line break that directly follows the opening
quotes. -/
def skipFirstBreak (c : Cursor) : Cursor := c.lineBreak?.getD c

/-- A string in any of its four forms. -/
def string? (c : Cursor) : Option (String × Cursor) :=
  let fuel := c.rest.length + 1
  let found :=
    match c.rest with
    | '"' :: '"' :: '"' :: _ =>
      multiline? '"' fuel [] (skipFirstBreak (c.skip 3))
    | '\'' :: '\'' :: '\'' :: _ =>
      multiline? '\'' fuel [] (skipFirstBreak (c.skip 3))
    | '"' :: _ => basic? fuel [] (c.skip 1)
    | '\'' :: _ => literal? (c.skip 1)
    | _ => none
  found.map fun (cs, d) => (String.ofList cs, d)

-- ============================================================= numbers

/-- A decimal digit. -/
def isDigit (c : Char) : Bool := (Numeral.digit? c).isSome

/-- The digits behind a digit, with single underscores between them left out,
and the number of characters they take. -/
def moreDigits (test : Char → Bool) : List Char → List Char × Nat
  | '_' :: d :: rest =>
    if test d then
      let (digits, taken) := moreDigits test rest
      (d :: digits, taken + 2)
    else ([], 0)
  | d :: rest =>
    if test d then
      let (digits, taken) := moreDigits test rest
      (d :: digits, taken + 1)
    else ([], 0)
  | [] => ([], 0)

/-- One or more digits, with single underscores between them left out, and the
number of characters they take. -/
def digits? (test : Char → Bool) : List Char → Option (List Char × Nat)
  | d :: rest =>
    if test d then
      let (digits, taken) := moreDigits test rest
      some (d :: digits, taken + 1)
    else none
  | [] => none

/-- The number that digits of some base write. -/
def valueOf (base : Nat) (digits : List Char) : Nat :=
  digits.foldl (fun n d => n * base + (hexValue? d).getD 0) 0

/-- An integer of 64 bits. -/
def integer? (i : Int) : Option Scalar :=
  if -9223372036854775808 ≤ i && i ≤ 9223372036854775807 then
    some (.integer i)
  else none

/-- An integer in a base other than ten, from behind its two-character
mark. -/
def based? (base : Nat) (c : Cursor) : Option (Scalar × Cursor) := do
  let test := fun d => (hexValue? d).any (· < base)
  let (digits, taken) ← digits? test c.rest
  let i ← integer? (valueOf base digits)
  some (i, c.skip taken)

/-- The exponent of a floating-point number, if one begins here: its value and
the number of characters it takes. -/
def exponent? : List Char → Option (Int × Nat)
  | e :: rest =>
    if e = 'e' || e = 'E' then
      match rest with
      | '+' :: rest =>
        (digits? isDigit rest).map fun (ds, n) => ((valueOf 10 ds : Nat), n + 2)
      | '-' :: rest =>
        (digits? isDigit rest).map fun (ds, n) =>
          (-((valueOf 10 ds : Nat) : Int), n + 2)
      | rest =>
        (digits? isDigit rest).map fun (ds, n) => ((valueOf 10 ds : Nat), n + 1)
    else none
  | [] => none

/-- A floating-point number whose value is finite, or beyond the range below
zero. -/
def float? (negative : Bool) (digits : Nat) (exponent : Int) :
    Option Scalar :=
  match Binary64.ofDecimal digits exponent with
  | some _ => some (.float (.decimal negative digits exponent))
  | none => if negative then some (.float (.infinite true)) else none

/-- What follows the digits before the point: a fraction, an exponent, both,
or nothing, which makes the number an integer. -/
def behindWhole? (negative : Bool) (whole : List Char) (c : Cursor) :
    Option (Scalar × Cursor) := do
  match c.rest with
  | '.' :: behind =>
    let (fraction, taken) ← digits? isDigit behind
    let shift : Int := fraction.length
    let digits := valueOf 10 (whole ++ fraction)
    let c := c.skip (1 + taken)
    match exponent? c.rest with
    | some (e, taken) =>
      let f ← float? negative digits (e - shift)
      some (f, c.skip taken)
    | none =>
      let f ← float? negative digits (-shift)
      some (f, c)
  | rest =>
    match exponent? rest with
    | some (e, taken) =>
      let f ← float? negative (valueOf 10 whole) e
      some (f, c.skip taken)
    | none =>
      let magnitude : Int := valueOf 10 whole
      let i ← integer? (if negative then -magnitude else magnitude)
      some (i, c)

/-- The digits before the point: a zero stands alone. -/
def whole? : List Char → Option (List Char × Nat)
  | '0' :: _ => some (['0'], 1)
  | cs => digits? isDigit cs

/-- A decimal number from behind its sign. -/
def unsigned? (negative : Bool) (c : Cursor) : Option (Scalar × Cursor) := do
  match c.expect? ['i', 'n', 'f'] with
  | some d => some (.float (.infinite negative), d)
  | none =>
    match c.expect? ['n', 'a', 'n'] with
    | some d => some (.float .notANumber, d)
    | none =>
      let (whole, taken) ← whole? c.rest
      behindWhole? negative whole (c.skip taken)

/-- A number. Only one without a sign may be in another base. -/
def number? (c : Cursor) : Option (Scalar × Cursor) :=
  match c.rest with
  | '+' :: _ => unsigned? false (c.skip 1)
  | '-' :: _ => unsigned? true (c.skip 1)
  | '0' :: 'x' :: _ => based? 16 (c.skip 2)
  | '0' :: 'o' :: _ => based? 8 (c.skip 2)
  | '0' :: 'b' :: _ => based? 2 (c.skip 2)
  | _ => unsigned? false c

-- ================================================================= all

/-- A value with no values inside, by its first character. -/
def read? (c : Cursor) : Option (Scalar × Cursor) :=
  match c.rest with
  | '"' :: _ => (string? c).map fun (s, d) => (.string s, d)
  | '\'' :: _ => (string? c).map fun (s, d) => (.string s, d)
  | 't' :: _ =>
    (c.expect? ['t', 'r', 'u', 'e']).map fun d => (.boolean true, d)
  | 'f' :: _ =>
    (c.expect? ['f', 'a', 'l', 's', 'e']).map fun d => (.boolean false, d)
  | _ =>
    match dateTime? c with
    | some (d, e) => some (.dateTime d, e)
    | none => number? c

end Toolrun.Toml.Scalar
