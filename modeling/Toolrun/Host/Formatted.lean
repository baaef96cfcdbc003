/-
Writing arguments out, as they are or by a format. Escapes are read alike in
both; where they differ, the caller says so.
-/
import Toolrun.Host.Shell.Source

namespace Toolrun.Host.Formatted

-- ============================================================= escapes

/-- Which escapes there are: whether an octal number has to begin with a zero
of its own, whether there are hexadecimal ones and one for the escape
character, and whether one ends the writing. -/
structure Dialect where
  zeroFirst : Bool := false
  hexadecimal : Bool := false
  ending : Bool := true

/-- The value of digits in some base. -/
def valueOf (base : Nat) (digits : Letters) : Nat :=
  digits.foldl
    (fun n c =>
      let d :=
        if c.isDigit then c.toNat - 0x30
        else if c.toNat < 0x60 then c.toNat - 0x37 else c.toNat - 0x57
      n * base + d)
    0

/-- A byte by its number, as a letter. -/
def letter (n : Nat) : Char := Char.ofNat (n % 256)

/-- Whether a letter is an octal digit. -/
def isOctal (c : Char) : Bool := '0' ≤ c && c ≤ '7'

/-- Whether a letter is a hexadecimal digit. -/
def isHexadecimal (c : Char) : Bool :=
  c.isDigit || ('a' ≤ c && c ≤ 'f') || ('A' ≤ c && c ≤ 'F')

/-- The first digits of some letters, at most so many. -/
def leading (isWanted : Char → Bool) (most : Nat) (letters : Letters) :
    Letters :=
  (letters.take most).takeWhile isWanted

/-- The letter that an escape of one letter stands for. -/
def plainEscape? (c : Char) : Option Char :=
  match c with
  | 'a' => some '\x07'
  | 'b' => some '\x08'
  | 'f' => some '\x0c'
  | 'n' => some '\n'
  | 'r' => some '\r'
  | 't' => some '\t'
  | 'v' => some '\x0b'
  | '\\' => some '\\'
  | _ => none

/-- What stands behind a backslash: the letters it means, or nothing if it
ends the writing, and how many letters it takes. -/
def escape (d : Dialect) (rest : Letters) : Option Letters × Nat :=
  match rest with
  | [] => (some ['\\'], 0)
  | c :: others =>
    match plainEscape? c with
    | some e => (some [e], 1)
    | none =>
      if d.ending && c = 'c' then (none, 1)
      else if d.zeroFirst && c = '0' then
        let digits := leading isOctal 3 others
        (some [letter (valueOf 8 digits)], digits.length + 1)
      else if !d.zeroFirst && isOctal c then
        let digits := leading isOctal 3 rest
        (some [letter (valueOf 8 digits)], digits.length)
      else if d.hexadecimal && c = 'x' then
        let digits := leading isHexadecimal 2 others
        if digits.isEmpty then (some ['\\', 'x'], 1)
        else (some [letter (valueOf 16 digits)], digits.length + 1)
      else if d.hexadecimal && c = '"' then (some ['"'], 1)
      else if d.hexadecimal && c = 'e' then (some ['\x1b'], 1)
      else (some ['\\', c], 1)

/-- Text that has been put together, and whether the writing ends there. -/
structure Written where
  letters : Letters := []
  isOver : Bool := false

/-- Two texts, one behind the other. -/
def Written.append (a b : Written) : Written :=
  if a.isOver then a else ⟨a.letters ++ b.letters, b.isOver⟩

/-- Text with its escapes replaced. The fuel is its length. -/
def unescapeWithin (d : Dialect) : Nat → Letters → Letters → Written
  | 0, got, _ => ⟨got.reverse, false⟩
  | _ + 1, got, [] => ⟨got.reverse, false⟩
  | n + 1, got, '\\' :: rest =>
    match escape d rest with
    | (none, _) => ⟨got.reverse, true⟩
    | (some letters, width) =>
      unescapeWithin d n (letters.reverse ++ got) (rest.drop width)
  | n + 1, got, c :: rest => unescapeWithin d n (c :: got) rest

/-- Text with its escapes replaced. -/
def unescape (d : Dialect) (letters : Letters) : Written :=
  unescapeWithin d (letters.length + 1) [] letters

-- ================================================================ echo

/-- What the shell's own `echo` writes. -/
def shellEcho (arguments : List Letters) : Letters :=
  let (isOpen, arguments) :=
    match arguments with
    | ['-', 'n'] :: others => (true, others)
    | arguments => (false, arguments)
  let text := unescape { zeroFirst := true } ([' '].intercalate arguments)
  if isOpen || text.isOver then text.letters else text.letters ++ ['\n']

/-- Whether an argument is made of options of `echo`. -/
def isEchoOption (argument : Letters) : Bool :=
  match argument with
  | '-' :: c :: rest => (c :: rest).all fun c => "neE".toList.contains c
  | _ => false

/-- What the program `echo` writes. -/
def programEcho (arguments : List Letters) : Letters :=
  let options := (arguments.takeWhile isEchoOption).flatten
  let text := [' '].intercalate (arguments.dropWhile isEchoOption)
  let last := (options.filter fun c => c = 'e' || c = 'E').getLast?
  let text : Written :=
    if last = some 'e' then
      unescape { zeroFirst := true, hexadecimal := true } text
    else ⟨text, false⟩
  if options.contains 'n' || text.isOver then text.letters
  else text.letters ++ ['\n']

-- ============================================================== formats

/-- A conversion as it stands in a format: how wide it is at least, on which
side blanks go, whether zeros take their place, and how much of the value is
used. A format may end before it says what kind of conversion it wants. -/
structure Conversion where
  text : Letters
  toLeft : Bool := false
  zeros : Bool := false
  plus : Bool := false
  width : Nat := 0
  precision : Option Nat := none
  kind : Option Char

/-- The parts of a format. -/
inductive Item where
  | text (letters : Letters)
  | conversion (c : Conversion)
  | stop

/-- Reads a conversion behind its percent sign. -/
def readConversion (letters : Letters) : Conversion :=
  let flags := letters.takeWhile fun c => "-0+ #".toList.contains c
  let rest := letters.drop flags.length
  let width := rest.takeWhile Char.isDigit
  let rest := rest.drop width.length
  let point := rest.head? = some '.'
  let precision :=
    if point then (rest.drop 1).takeWhile Char.isDigit else []
  let rest := rest.drop (if point then precision.length + 1 else 0)
  { text := '%' :: letters.take (letters.length - rest.length + 1)
    toLeft := flags.contains '-'
    zeros := flags.contains '0'
    plus := flags.contains '+'
    width := valueOf 10 width
    precision := if point then some (valueOf 10 precision) else none
    kind := rest.head? }

/-- The parts of a format, in order. -/
def itemsWithin (d : Dialect) : Nat → Letters → List Item
  | 0, _ => []
  | _ + 1, [] => []
  | n + 1, '%' :: '%' :: rest => .text ['%'] :: itemsWithin d n rest
  | n + 1, '%' :: rest =>
    let c := readConversion rest
    .conversion c :: itemsWithin d n (rest.drop (c.text.length - 1))
  | n + 1, '\\' :: rest =>
    match escape d rest with
    | (none, _) => [.stop]
    | (some letters, width) =>
      .text letters :: itemsWithin d n (rest.drop width)
  | n + 1, letters =>
    let run := letters.takeWhile fun c => c != '%' && c != '\\'
    .text run :: itemsWithin d n (letters.drop run.length)

/-- The parts of a format. -/
def items (d : Dialect) (format : Letters) : List Item :=
  itemsWithin d (format.length + 1) format

/-- What can be wrong: an argument that should be a number, a conversion that
does not exist, or one that is not finished. -/
inductive Fault where
  | noNumber (argument : Letters)
  | moreThanNumber (argument : Letters)
  | noConversion (text : Letters)
  | unfinished (text : Letters)

/-- The number that an argument stands for, and what is wrong with it. -/
def numberOf (argument : Letters) : Int × Option Fault :=
  let (negative, body) :=
    match argument.dropWhile (· = ' ') with
    | '-' :: rest => (true, rest)
    | '+' :: rest => (false, rest)
    | rest => (false, rest)
  let (base, digits, rest) :=
    match body with
    | '0' :: 'x' :: rest =>
      (16, rest.takeWhile isHexadecimal, rest.dropWhile isHexadecimal)
    | '0' :: rest => (8, '0' :: rest.takeWhile isOctal, rest.dropWhile isOctal)
    | rest => (10, rest.takeWhile Char.isDigit, rest.dropWhile Char.isDigit)
  let value : Int := valueOf base digits
  let value := if negative then -value else value
  match argument with
  | [] => (0, none)
  | ['\'', c] => (c.toNat, none)
  | ['"', c] => (c.toNat, none)
  | _ =>
    if digits.isEmpty then (0, some (.noNumber argument))
    else if rest.isEmpty then (value, none)
    else (value, some (.moreThanNumber argument))

/-- A number in the base of a conversion. An unsigned number below zero wraps
around at 64 bits. -/
def numeral (c : Conversion) (value : Int) : Bool × Letters :=
  let unsigned := (value % 18446744073709551616).toNat
  match c.kind with
  | some 'o' => (false, Nat.toDigits 8 unsigned)
  | some 'x' => (false, Nat.toDigits 16 unsigned)
  | some 'X' => (false, (Nat.toDigits 16 unsigned).map Char.toUpper)
  | some 'u' => (false, Nat.toDigits 10 unsigned)
  | _ => (value < 0, Nat.toDigits 10 value.natAbs)

/-- Text brought to the width of a conversion. -/
def pad (c : Conversion) (letters : Letters) : Letters :=
  let blanks := List.replicate (c.width - letters.length) ' '
  if c.toLeft then letters ++ blanks else blanks ++ letters

/-- A number as a conversion writes it. -/
def writeNumber (c : Conversion) (value : Int) : Letters :=
  let (negative, digits) := numeral c value
  let sign := if negative then ['-'] else if c.plus then ['+'] else []
  let least :=
    match c.precision with
    | some n => n
    | none => if c.zeros && !c.toLeft then c.width - sign.length else 0
  pad c (sign ++ List.replicate (least - digits.length) '0' ++ digits)

/-- What a format has written so far, the arguments that are left, and what
was wrong with those before. -/
structure State where
  written : Written := {}
  arguments : List Letters := []
  consumed : Nat := 0
  faults : List Fault := []

/-- Writes one conversion. -/
def convert (s : State) (c : Conversion) : State :=
  let argument := s.arguments.headD []
  let s :=
    { s with
      arguments := s.arguments.drop 1
      consumed := s.consumed + 1 }
  let limited (letters : Letters) : Letters :=
    match c.precision with
    | some n => letters.take n
    | none => letters
  let broken (fault : Fault) : State :=
    { s with
      written := s.written.append ⟨[], true⟩
      faults := s.faults ++ [fault] }
  match c.kind with
  | none => broken (.unfinished c.text)
  | some 's' =>
    { s with written := s.written.append ⟨pad c (limited argument), false⟩ }
  | some 'b' =>
    let text := unescape { zeroFirst := true } argument
    { s with written :=
        s.written.append ⟨pad c (limited text.letters), text.isOver⟩ }
  | some 'c' =>
    { s with written := s.written.append ⟨pad c (argument.take 1), false⟩ }
  | some kind =>
    if !"diouxX".toList.contains kind then broken (.noConversion c.text)
    else
      let (value, fault) := numberOf argument
      { s with
        written := s.written.append ⟨writeNumber c value, false⟩
        faults := s.faults ++ fault.toList }

/-- Writes a format once. -/
def pass (items : List Item) (s : State) : State :=
  items.foldl
    (fun s item =>
      if s.written.isOver then s
      else
        match item with
        | .text letters =>
          { s with written := s.written.append ⟨letters, false⟩ }
        | .stop => { s with written := s.written.append ⟨[], true⟩ }
        | .conversion c => convert s c)
    s

/-- Writes a format again and again until no argument is left; once, if it
takes none. -/
def passes (items : List Item) : Nat → State → State
  | 0, s => s
  | n + 1, s =>
    let next := pass items s
    if next.arguments.isEmpty || next.consumed = s.consumed ||
        next.written.isOver then next
    else passes items n next

/-- Writes arguments by a format. -/
def format (d : Dialect) (letters : Letters) (arguments : List Letters) :
    State :=
  passes (items d letters) (arguments.length + 1) { arguments := arguments }

end Toolrun.Host.Formatted
