/-
Environment variables given on the command line, as `KEY=VALUE`. The first
`=` divides the two; white space around either is dropped, and so is one pair
of matching quotes around the value, which is how a value that begins or ends
with white space or quotes is written.
-/
import Toolrun.Text.Blank
import Toolrun.Bytes

namespace Toolrun.EnvPair

/-- Why a pair was refused; either reason shows the text as given. -/
inductive Fault where
  | noEquals (raw : String)
  | emptyKey (raw : String)
  deriving DecidableEq, Repr

/-- The wording of a refusal. -/
def Fault.message : Fault → String
  | .noEquals raw => "invalid --env '" ++ raw ++ "' (expected KEY=VALUE)"
  | .emptyKey raw => "invalid --env '" ++ raw ++ "' (empty key)"

/-- Takes away one pair of matching quotes around a text. -/
def unquoteChars (cs : List Char) : List Char :=
  match cs with
  | first :: second :: others =>
    if (first == '"' || first == '\'') &&
        (second :: others).getLast? == some first then
      (second :: others).dropLast
    else cs
  | _ => cs

/-- Reads a pair. -/
def read (raw : String) : Except Fault (String × String) :=
  match splitAtFirst '=' raw.toList with
  | none => .error (.noEquals raw)
  | some (key, value) =>
    match Text.trimChars key with
    | [] => .error (.emptyKey raw)
    | key =>
      .ok (String.ofList key,
        String.ofList (unquoteChars (Text.trimChars value)))

end Toolrun.EnvPair
