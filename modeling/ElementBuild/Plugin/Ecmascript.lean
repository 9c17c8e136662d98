/-
# Components in plain scripts

The entry file of such a component is a module that exports the class of its
element as default.  Compiling it puts a line under the module that defines the
element, with the tag that the folder name gives.

The source map has one segment for each line, which goes on by a line of the source.
Another one stands before all of them, so the first line has two, and each line is
mapped to the one that follows the line with its number.
-/
import ElementBuild.Json.Writer
import ElementBuild.Plugin.Basic

namespace ElementBuild
namespace Plugin
namespace Ecmascript

/-- The rest of a text after at least one blank. -/
def blanks? : List Char → Option (List Char)
  | [] => none
  | c :: cs => if Text.isBlank c then some (cs.dropWhile Text.isBlank) else none

/-- The word that opens a text, if a blank or the end follows it. -/
def wholeWord? (cs : List Char) : Option (List Char) :=
  match cs.span Text.isWordChar with
  | ([], _) => none
  | (word, []) => some word
  | (word, c :: _) => if Text.isBlank c then some word else none

/-- The name after `class`. -/
def className? (cs : List Char) : Option (List Char) :=
  (("class".toList.isPrefixOf? cs).bind blanks?).bind wholeWord?

/-- The name in an export that opens a text: the word after `default`, or after
`class` if that is there. -/
def exportedName? (cs : List Char) : Option (List Char) := do
  let cs ← ("export".toList.isPrefixOf? cs).bind blanks?
  let cs ← ("default".toList.isPrefixOf? cs).bind blanks?
  className? cs <|> wholeWord? cs

/-- The name in the first default export of a text that a blank or nothing
precedes. -/
def defaultExportFrom? : Option Char → List Char → Option (List Char)
  | _, [] => none
  | before, c :: cs =>
    let here := if before.all Text.isBlank then exportedName? (c :: cs) else none
    here <|> defaultExportFrom? (some c) cs

/-- The name in the first default export of a text. -/
def defaultExport? (code : String) : Option String :=
  (defaultExportFrom? none code.toList).map String.ofList

/-- The number of lines of a text. -/
def lineCount (code : String) : Nat := code.toList.count '\n' + 1

/-- A name without an ending, however often it is there. -/
def trimEndings (ending : List Char) : Nat → List Char → List Char
  | 0, name => name
  | n + 1, name =>
    match Target.dropSuffix? ending name with
    | some name => trimEndings ending n name
    | none => name

/-- The name of the module for an entry file. -/
def moduleName (entry : Path) : String :=
  match entry.fileName? with
  | some name => String.ofList (trimEndings ".esm".toList name.length name.toList) ++ ".js"
  | none => ""

/-- The segments of a source map for a number of lines: the first segment of all
stands at the beginning, and each line has one that goes on by a line of the
source. -/
def mappings (lines : Nat) : String :=
  "AAAA," ++ ";".intercalate (List.replicate lines "AACA")

/-- The source map of a module for the code it was made from. -/
def sourcemap (r : CompileRequest) (output : String) : Json :=
  .object [
    ("file", .string (moduleName r.filename)),
    ("mappings", .string (mappings (min (lineCount r.code) (lineCount output)))),
    ("names", .array []),
    ("sources", .array [.string r.filename.text]),
    ("sourcesContent", .array [.string r.code]),
    ("version", .number (.natural 3))]

/-- The line that defines an element. -/
def definition (tag name : String) : String :=
  "customElements.define('" ++ tag ++ "', " ++ name ++ ")"

/-- Compiles a component. -/
def compile (r : CompileRequest) : Step CompileOutput := do
  if CompileRequest.isVacant r.code then Step.fail (.plugin .missingCode)
  else
    match defaultExport? r.code with
    | none => Step.fail (.plugin .missingDefaultExport)
    | some name =>
      Step.refusing r.check
      let folder ← Step.refusing r.elementFolder
      Step.refusing (r.checkSource (← Step.files))
      Step.refusing r.sourcemap.checkScripts
      let script ← r.preprocessScript r.code
      let code := script ++ "\n\n" ++ definition (Element.tag folder) name
      return ⟨code, if r.sourcemap.forScripts then some (sourcemap r code).compact else none⟩

end Ecmascript

/-- The plugin for components in plain scripts. -/
def ecmascript : Plugin := ⟨"ecmascript", Ecmascript.compile⟩

end Plugin
end ElementBuild
