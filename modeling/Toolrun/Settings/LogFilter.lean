/-
The setting for what gets logged: a list of directives, each with a level, a
target, or both. Only whether it can be understood matters here. A directive
begins with a target or with a span in brackets; behind an equals sign has to
stand a level, or nothing.
-/
import Toolrun.Text.Numeral
import Toolrun.Text.Blank
import Toolrun.Bytes

namespace Toolrun.LogFilter

/-- Why a filter is not understood. -/
inductive Fault where
  | badLevel
  | badDirective
  deriving DecidableEq, Repr

/-- The wording of a fault. -/
def Fault.message : Fault → String
  | .badLevel =>
    "error parsing level filter: expected one of \"off\", \"error\", " ++
      "\"warn\", \"info\", \"debug\", \"trace\", or a number 0-5"
  | .badDirective => "invalid filter directive"

/-- The names of the levels. -/
def levelNames : List String :=
  ["", "off", "error", "warn", "info", "debug", "trace"]

/-- Whether a word is a level: a name in either case, or a number up to
five. -/
def isLevel (word : List Char) : Bool :=
  levelNames.contains (String.ofList (word.map Char.toLower)) ||
    match Numeral.readChars word with
    | .ok n => n ≤ 5
    | .error _ => false

/-- Whether a directive may begin with a character. Beyond ASCII anything
may. -/
def mayBegin (c : Char) : Bool :=
  c == '-' || c == ':' || c == '_' || c.isAlphanum || 0x80 ≤ c.toNat

/-- Where the reading of a directive stands. -/
inductive Stage where
  | target
  | span
  | field (isEmpty : Bool)
  | fields
  | closed
  | level
  deriving DecidableEq, Repr

/-- Reads on in a directive. -/
def readFrom : Stage → List Char → Except Fault Unit
  | .target, [] => .ok ()
  | .target, '=' :: rest => readFrom .level rest
  | .target, '[' :: rest => readFrom .span rest
  | .target, _ :: rest => readFrom .target rest
  | .span, [] => .error .badDirective
  | .span, ']' :: rest => readFrom .closed rest
  | .span, '\x7b' :: rest => readFrom (.field true) rest
  | .span, _ :: rest => readFrom .span rest
  | .field _, [] => .error .badDirective
  | .field isEmpty, '\x7d' :: rest =>
    if isEmpty then .error .badDirective else readFrom .fields rest
  | .field _, _ :: rest => readFrom (.field false) rest
  | .fields, ']' :: rest => readFrom .closed rest
  | .fields, _ => .error .badDirective
  | .closed, [] => .ok ()
  | .closed, '=' :: rest => readFrom .level rest
  | .closed, _ => .error .badDirective
  | .level, word => if isLevel word then .ok () else .error .badLevel

/-- Reads a directive. -/
def readDirective (directive : List Char) : Except Fault Unit :=
  match Text.trimChars directive with
  | [] => .ok ()
  | '[' :: rest => readFrom .span rest
  | c :: rest =>
    if mayBegin c then readFrom .target rest else .error .badDirective

/-- Reads a filter; the first directive that is not understood counts. -/
def check (filter : String) : Except Fault Unit :=
  (piecesOf ',' filter.toList).forM readDirective

end Toolrun.LogFilter
