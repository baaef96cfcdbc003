/-
Tests of files, texts and numbers, as scripts use them to decide.
-/
import Toolrun.Host.Formatted
import Toolrun.System.Files

namespace Toolrun.Host

/-- Whether something is a file, a directory, or there at all. -/
def fileTest (files : Files) (cwd : Location) (test : Char)
    (name : Letters) : Option Bool :=
  let node := (files.find cwd (Letters.toBytes name)).toOption
  match test with
  | 't' => some false
  | 'e' => some node.isSome
  | 'd' => some (node = some .directory)
  | 'f' =>
    some <| match node with
      | some (.file _ _) => true
      | some (.program _) => true
      | _ => false
  | 's' =>
    some <| match node with
      | some (.file content _) => !content.isEmpty
      | some .nullDevice => false
      | n => n.isSome
  | 'r' => some node.isSome
  | 'w' => some node.isSome
  | 'x' =>
    some <| match node with
      | some (.file _ mode) => mode &&& 0o111 ≠ 0
      | some .nullDevice => false
      | n => n.isSome
  | _ => none

/-- A comparison of two arguments. -/
def comparison (a sign b : Letters) : Option Bool :=
  let numbers (compare : Int → Int → Bool) : Option Bool :=
    match Formatted.numberOf a, Formatted.numberOf b with
    | (m, none), (n, none) => some (compare m n)
    | _, _ => none
  match String.ofList sign with
  | "=" => some (a = b)
  | "!=" => some (a ≠ b)
  | "-eq" => numbers fun m n => m = n
  | "-ne" => numbers fun m n => m ≠ n
  | "-lt" => numbers fun m n => m < n
  | "-le" => numbers fun m n => m ≤ n
  | "-gt" => numbers fun m n => m > n
  | "-ge" => numbers fun m n => m ≥ n
  | _ => none

/-- The outcome of `test` with its arguments, if they make sense. -/
def test (files : Files) (cwd : Location) : List Letters → Option Bool
  | [] => some false
  | [a] => some !a.isEmpty
  | [['!'], a] => some a.isEmpty
  | [['-', 'n'], a] => some !a.isEmpty
  | [['-', 'z'], a] => some a.isEmpty
  | [['-', c], a] => fileTest files cwd c a
  | ['!'] :: others => (test files cwd others).map (! ·)
  | [a, sign, b] => comparison a sign b
  | _ => none

/-- The exit code for the outcome of a test. -/
def testCode : Option Bool → Nat
  | some true => 0
  | some false => 1
  | none => 2

end Toolrun.Host
