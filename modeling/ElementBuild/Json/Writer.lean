/-
# Writing JSON

The compact form: no blanks, members in the order of their names, each name
once.
-/
import ElementBuild.Json.Number

namespace ElementBuild
namespace Json

/-- The four hexadecimal digits of a number. -/
def quadOfHex (n : Nat) : List Char :=
  let digits := Nat.toDigits 16 n
  List.replicate (4 - digits.length) '0' ++ digits

/-- A character inside a string. -/
def escaped (c : Char) : List Char :=
  match c with
  | '"' => ['\\', '"']
  | '\\' => ['\\', '\\']
  | '\x08' => ['\\', 'b']
  | '\x0c' => ['\\', 'f']
  | '\n' => ['\\', 'n']
  | '\r' => ['\\', 'r']
  | '\t' => ['\\', 't']
  | c => if c.toNat < 0x20 then '\\' :: 'u' :: quadOfHex c.toNat else [c]

/-- A string with its quotes. -/
def stringText (s : String) : String :=
  String.ofList ('"' :: s.toList.flatMap escaped ++ ['"'])

/-- Puts a member into members in the order of their names; one of the same name
gives way. -/
def insertMember (name value : String) : List (String × String) → List (String × String)
  | [] => [(name, value)]
  | (n, v) :: ms =>
    if name = n then (name, value) :: ms
    else if name < n then (name, value) :: (n, v) :: ms
    else (n, v) :: insertMember name value ms

/-- Members in the order of their names, each name once with its last value. -/
def sortMembers (ms : List (String × String)) : List (String × String) :=
  ms.foldl (fun sorted m => insertMember m.1 m.2 sorted) []

mutual

/-- The compact text of a value. -/
def compact : Json → String
  | null => "null"
  | bool b => if b then "true" else "false"
  | number n => n.text
  | string s => stringText s
  | array items => "[" ++ ",".intercalate (compactAll items) ++ "]"
  | object members =>
    let texts := (sortMembers (compactMembers members)).map fun m => stringText m.1 ++ ":" ++ m.2
    "\x7b" ++ ",".intercalate texts ++ "\x7d"

/-- The compact texts of values. -/
def compactAll : List Json → List String
  | [] => []
  | v :: vs => compact v :: compactAll vs

/-- The compact texts of members' values. -/
def compactMembers : List (String × Json) → List (String × String)
  | [] => []
  | (name, v) :: ms => (name, compact v) :: compactMembers ms

end

end Json
end ElementBuild
