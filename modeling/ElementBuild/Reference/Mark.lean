/-
# Marks on the targets of compiled components

While a component is built, the target of an import that has become the output of
another component carries the mark `component:`, so that later passes leave it
alone.  `stripMarks` takes the marks away again: after the word `import`, an
optional parenthesis and a quote.
-/
import ElementBuild.Text.Letters

namespace ElementBuild
namespace Reference

/-- The mark on the target of a compiled component. -/
def mark : String := "component:"

/-- An optional opening parenthesis with blanks after it. -/
def skipParenthesis : List Char → List Char
  | '(' :: cs => cs.dropWhile Text.isBlank
  | cs => cs

/-- An import up to the quote of its target, and what follows the mark after
it. -/
def markedImport? (cs : List Char) : Option (List Char × List Char) := do
  let afterWord ← "import".toList.isPrefixOf? cs
  match skipParenthesis (afterWord.dropWhile Text.isBlank) with
  | quote :: marked =>
    if quote = '\'' ∨ quote = '"' then
      let rest ← mark.toList.isPrefixOf? marked
      some (cs.take (cs.length - marked.length), rest)
    else none
  | [] => none

/-- A text without marks, given the character before it; the length of the text
bounds the steps. -/
def stripMarksFrom : Nat → Option Char → List Char → List Char
  | 0, _, cs => cs
  | _, _, [] => []
  | n + 1, before, c :: cs =>
    match (if before.any Text.isWordChar then none else markedImport? (c :: cs)) with
    | some (start, rest) => start ++ stripMarksFrom n mark.toList.getLast? rest
    | none => c :: stripMarksFrom n (some c) cs

/-- The code without marks on the targets of its imports. -/
def stripMarks (code : String) : String :=
  String.ofList (stripMarksFrom code.length none code.toList)

end Reference
end ElementBuild
