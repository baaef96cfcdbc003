/-
Dates and times, as configuration documents can hold them. No setting wants
one, but a date that stands where settings are expected is read as a table
with one entry, its text; so dates are checked and written here.
-/
import Toolrun.Toml.Cursor
import Toolrun.Text.Numeral

namespace Toolrun.Toml

/-- A calendar date. -/
structure Date where
  year : Nat
  month : Nat
  day : Nat
  deriving DecidableEq, Repr

/-- A time of day, to the nanosecond. -/
structure Time where
  hour : Nat
  minute : Nat
  second : Nat
  nanosecond : Nat
  deriving DecidableEq, Repr

/-- Where a time is measured: at the zero meridian, or so many minutes from
it. -/
inductive Offset where
  | utc
  | minutes (n : Int)
  deriving DecidableEq, Repr

/-- A date, a time of day, or both, with or without an offset. -/
inductive DateTime where
  | date (d : Date)
  | time (t : Time)
  | both (d : Date) (t : Time) (offset : Option Offset)
  deriving DecidableEq, Repr

-- ============================================================ checking

/-- Whether a year has a leap day. -/
def isLeapYear (year : Nat) : Bool :=
  year % 4 == 0 && (year % 100 != 0 || year % 400 == 0)

/-- The number of days of a month. -/
def daysIn (year month : Nat) : Nat :=
  if month = 2 then if isLeapYear year then 29 else 28
  else if month = 4 || month = 6 || month = 9 || month = 11 then 30
  else 31

/-- Whether a date is in the calendar. -/
def Date.isValid (d : Date) : Bool :=
  1 ≤ d.month && d.month ≤ 12 && 1 ≤ d.day &&
    d.day ≤ daysIn d.year d.month

/-- Whether a time is on the clock; a leap second is. -/
def Time.isValid (t : Time) : Bool :=
  t.hour ≤ 23 && t.minute ≤ 59 && t.second ≤ 60

-- ============================================================= reading

/-- A number of exactly so many decimal digits. -/
def fixedDigits? (count : Nat) (c : Cursor) : Option (Nat × Cursor) :=
  let digits := (c.rest.take count).filterMap Numeral.digit?
  if digits.length = count then
    some (digits.foldl (fun n d => n * 10 + d) 0, c.skip count)
  else none

/-- A date. -/
def date? (c : Cursor) : Option (Date × Cursor) := do
  let (year, c) ← fixedDigits? 4 c
  let c ← c.expect? ['-']
  let (month, c) ← fixedDigits? 2 c
  let c ← c.expect? ['-']
  let (day, c) ← fixedDigits? 2 c
  let d : Date := ⟨year, month, day⟩
  if d.isValid then some (d, c) else none

/-- A fraction of a second in nanoseconds; digits behind the ninth do not
count. -/
def nanoseconds (digits : List Nat) : Nat :=
  ((digits ++ List.replicate 9 0).take 9).foldl (fun n d => n * 10 + d) 0

/-- The fraction of a second behind a point, if there is a point. -/
def fraction? (c : Cursor) : Option (Nat × Cursor) :=
  match c.rest with
  | '.' :: behind =>
    let digits :=
      (behind.takeWhile fun d => (Numeral.digit? d).isSome).filterMap
        Numeral.digit?
    if digits.isEmpty then none
    else some (nanoseconds digits, c.skip (1 + digits.length))
  | _ => some (0, c)

/-- A time of day. -/
def time? (c : Cursor) : Option (Time × Cursor) := do
  let (hour, c) ← fixedDigits? 2 c
  let c ← c.expect? [':']
  let (minute, c) ← fixedDigits? 2 c
  let c ← c.expect? [':']
  let (second, c) ← fixedDigits? 2 c
  let (nanosecond, c) ← fraction? c
  let t : Time := ⟨hour, minute, second, nanosecond⟩
  if t.isValid then some (t, c) else none

/-- The offset behind a time, if there is one. A sign begins an offset and
nothing else. -/
def offset? (c : Cursor) : Option (Option Offset × Cursor) :=
  let behindSign (sign : Int) : Option (Option Offset × Cursor) := do
    let (hour, c) ← fixedDigits? 2 (c.skip 1)
    let c ← c.expect? [':']
    let (minute, c) ← fixedDigits? 2 c
    if hour ≤ 23 && minute ≤ 59 then
      some (some (.minutes (sign * (hour * 60 + minute : Nat))), c)
    else none
  match c.rest with
  | 'Z' :: _ => some (some .utc, c.skip 1)
  | 'z' :: _ => some (some .utc, c.skip 1)
  | '+' :: _ => behindSign 1
  | '-' :: _ => behindSign (-1)
  | _ => some (none, c)

/-- The time and offset behind a date, from the character that divides
them. -/
def timeBehindDate? (c : Cursor) :
    Option (Time × Option Offset × Cursor) := do
  match c.rest with
  | d :: _ =>
    if d = 'T' || d = 't' || d = ' ' then
      let (t, c) ← time? (c.skip 1)
      let (offset, c) ← offset? c
      some (t, offset, c)
    else none
  | [] => none

/-- A date, a time, or both. -/
def dateTime? (c : Cursor) : Option (DateTime × Cursor) :=
  match date? c with
  | some (d, c) =>
    match timeBehindDate? c with
    | some (t, offset, c) => some (.both d t offset, c)
    | none => some (.date d, c)
  | none => (time? c).map fun (t, c) => (.time t, c)

-- ============================================================= writing

/-- A number with zeros in front up to a width. -/
def padded (count n : Nat) : String :=
  let digits := Nat.toDigits 10 n
  String.ofList (List.replicate (count - digits.length) '0' ++ digits)

/-- A date in its one written form. -/
def Date.render (d : Date) : String :=
  padded 4 d.year ++ "-" ++ padded 2 d.month ++ "-" ++ padded 2 d.day

/-- A time in its one written form, without zeros at the end of the
fraction. -/
def Time.render (t : Time) : String :=
  let fraction := (padded 9 t.nanosecond).toList
  let shown := (fraction.reverse.dropWhile (· == '0')).reverse
  padded 2 t.hour ++ ":" ++ padded 2 t.minute ++ ":" ++ padded 2 t.second ++
    (if shown.isEmpty then "" else "." ++ String.ofList shown)

/-- An offset in its one written form. -/
def Offset.render : Offset → String
  | .utc => "Z"
  | .minutes n =>
    (if n < 0 then "-" else "+") ++ padded 2 (n.natAbs / 60) ++ ":" ++
      padded 2 (n.natAbs % 60)

/-- A date or time in its one written form. -/
def DateTime.render : DateTime → String
  | .date d => d.render
  | .time t => t.render
  | .both d t offset =>
    d.render ++ "T" ++ t.render ++ (offset.map Offset.render).getD ""

end Toolrun.Toml
