/-
# Minifying modules

A minifier has the last word on the text of a module and its source map.  The one
that leaves the code alone links the source map, if there is one.
-/
import ElementBuild.Plugin.Basic

namespace ElementBuild

/-- Makes the final module, given the name of the file for the source map. -/
abbrev Minifier := CompileOutput → String → Step CompileOutput

namespace Minify

/-- A text without blanks at its end. -/
def trimEnd (s : String) : String :=
  String.ofList (s.toList.reverse.dropWhile Text.isBlank).reverse

/-- The module with a comment that links its source map. -/
def linked (o : CompileOutput) (mapFile : String) : CompileOutput :=
  match o.map with
  | some _ => { o with code := trimEnd o.code ++ "\n//# sourceMappingURL=" ++ mapFile }
  | none => o

/-- Leaves the code alone. -/
def passthrough : Minifier := fun o mapFile => return linked o mapFile

end Minify
end ElementBuild
