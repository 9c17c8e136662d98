/-
# Names of custom elements

The folder of a component names its element: groups of ASCII letters and digits,
at least two, joined by single underscores.  The tag is the same name in lower
case with hyphens.
-/
import ElementBuild.Text.LetterCase

namespace ElementBuild
namespace Element

/-- The parts of a name between its underscores, empty ones included. -/
def groups : List Char → List (List Char)
  | [] => [[]]
  | c :: cs =>
    if c = '_' then [] :: groups cs
    else
      match groups cs with
      | [] => [[c]]
      | g :: gs => (c :: g) :: gs

/-- Whether a folder name names a custom element. -/
def isName (folder : String) : Bool :=
  let gs := groups folder.toList
  2 ≤ gs.length && gs.all fun g => !g.isEmpty && g.all Text.isAsciiAlphanumeric

/-- The tag of the element that a folder names. -/
def tag (folder : String) : String :=
  Text.lowercase (String.ofList (folder.toList.map fun c => if c = '_' then '-' else c))

end Element
end ElementBuild
