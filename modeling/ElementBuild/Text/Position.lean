/-
# Lines and columns

A place in a text is shown to people as a line, counted from 1, and a column,
counted in characters from 0.  Only a line feed ends a line.
-/
import ElementBuild.Text.Offset

namespace ElementBuild
namespace Text

/-- A line, from 1, and a column, in characters from 0. -/
structure Position where
  line : Nat
  column : Nat
  deriving DecidableEq, Repr

/-- The lines of a text, without their line feeds; a text has one line more
than it has line feeds. -/
def lines : List Char → List (List Char)
  | [] => [[]]
  | c :: cs =>
    if c = '\n' then [] :: lines cs
    else
      match lines cs with
      | [] => [[c]]
      | l :: ls => (c :: l) :: ls

/-- The position just after a text: its last line and that line's length. -/
def endPosition (before : List Char) : Position :=
  ⟨before.count '\n' + 1, (before.reverse.takeWhile (· ≠ '\n')).length⟩

/-- The position of a byte offset: that of the last character boundary which is
not above it. -/
def positionAt (code : String) (offset : Nat) : Position :=
  endPosition (floorSplit code.toList offset).1

end Text
end ElementBuild
