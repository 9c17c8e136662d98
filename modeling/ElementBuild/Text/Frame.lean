/-
# Source frames

An excerpt of a text around one line: up to five lines before it, the line with
a marker, a caret under a column, and up to five lines after it.  All line
numbers are padded with zeros to the width of the number five lines further on.
-/
import ElementBuild.Text.Position

namespace ElementBuild
namespace Text

/-- The number of lines shown on each side. -/
def frameWindow : Nat := 5

/-- The decimal digits of a number, padded with zeros on the left. -/
def paddedNumber (width n : Nat) : String :=
  let digits := toString n
  String.ofList (List.replicate (width - digits.length) '0') ++ digits

/-- A line of the frame that is not the marked one. -/
def numberedLine (width number : Nat) (content : List Char) : String :=
  "  " ++ paddedNumber width number ++ " │ " ++ String.ofList content

/-- Consecutive lines, the first of which has the given number. -/
def numberedLines (width first : Nat) (contents : List (List Char)) : String :=
  "\n".intercalate (contents.mapIdx fun i content => numberedLine width (first + i) content)

/-- The frame of a position.  The line may lie outside the text: then it is
shown empty, with what the window still holds. -/
def sourceFrame (code : String) (at_ : Position) : String :=
  let width := (toString (at_.line + frameWindow)).length
  let index := at_.line - 1
  let all := lines code.toList
  let first := index - frameWindow
  let previous := (all.take index).drop first
  let next := (all.drop (index + 1)).take frameWindow
  numberedLines width (first + 1) previous ++ "\n" ++
    "▶ " ++ paddedNumber width at_.line ++ " │ " ++ String.ofList ((all[index]?).getD []) ++ "\n" ++
    "  " ++ String.ofList (List.replicate width ' ') ++ "   " ++
      String.ofList (List.replicate at_.column ' ') ++ "▲\n" ++
    numberedLines width (at_.line + 1) next

end Text
end ElementBuild
