/-
# Module specifiers

A specifier that starts at a folder is *relative*; any other one that is not an
absolute path names a package, possibly with a path below it.
-/
import ElementBuild.Path.Basic

namespace ElementBuild
namespace Specifier

/-- Whether a specifier starts at the folder of the module that uses it. -/
def isRelative (s : String) : Bool :=
  "./".toList.isPrefixOf s.toList || "../".toList.isPrefixOf s.toList || s == "." || s == ".."

/-- What stands before the first slash, and what follows it. -/
def cut (cs : List Char) : List Char × Option (List Char) :=
  match cs.span (· ≠ '/') with
  | (head, _ :: rest) => (head, some rest)
  | (head, []) => (head, none)

/-- The name of a package and the path below it; a name that opens with `@` has
two parts. -/
def splitPackage (s : String) : String × Option String :=
  let (first, rest) := cut s.toList
  match first.head?, rest with
  | some '@', some rest =>
    let (second, rest) := cut rest
    (String.ofList (first ++ '/' :: second), rest.map String.ofList)
  | _, _ => (String.ofList first, rest.map String.ofList)

end Specifier
end ElementBuild
