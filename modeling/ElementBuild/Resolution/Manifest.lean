/-
# Package manifests

The manifest of a package is a JSON file.  Its `exports` say which file stands for
which path below the package:

| exports | entry |
| --- | --- |
| a text | the file of the package itself |
| an object with a name that opens with a dot | the entry of the path with that name |
| any other object | the entry of the first condition that has one |
-/
import ElementBuild.Json.Reader

namespace ElementBuild
namespace Manifest

/-- The name of the file. -/
def fileName : String := "package.json"

/-- The conditions under which entries are taken, the most welcome first. -/
def conditions : List String := ["browser", "import", "default", "require"]

/-- Whether an object lists paths: some name opens with a dot. -/
def listsPaths (members : List (String × Json)) : Bool :=
  members.any fun m => m.1.toList.head? == some '.'

mutual

/-- The entry of `exports` for a path, which is `.` for the package itself. -/
def exportTarget? : Json → String → Option String
  | .string s, key => if key = "." then some s else none
  | .object members, key =>
    if listsPaths members then memberTarget? members key
    else if key = "." then conditions.findSome? fun condition => memberTarget? members condition
    else none
  | _, _ => none

/-- The entry that the last member with a name leads to. -/
def memberTarget? : List (String × Json) → String → Option String
  | [], _ => none
  | (n, v) :: ms, name =>
    if ms.any (·.1 == name) then memberTarget? ms name
    else if n = name then exportTarget? v "."
    else none

end

/-- The fields that name the main file where there are no `exports`. -/
def mainFields : List String := ["module", "main"]

/-- The main files that a manifest names. -/
def mains (manifest : Json) : List String :=
  mainFields.filterMap fun field => (manifest.member? field).bind Json.string?

end Manifest
end ElementBuild
