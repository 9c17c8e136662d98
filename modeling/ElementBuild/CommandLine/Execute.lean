/-
# Executing a command line

The command prints a banner, what it is about to compile and, once it has, a
summary: the number of modules, the time it took, and the file and size of each.
-/
import ElementBuild.Build.Run
import ElementBuild.CommandLine.Arguments
import ElementBuild.Config.Load
import ElementBuild.Text.Quantity

namespace ElementBuild
namespace CommandLine

/-- What is printed first. -/
def banner : String := "\n⚡ Component Compiler v0.4.0\n\n"

/-- The line about what is compiled. -/
def announcement (source : String) : String := "→ Compiling " ++ source ++ "...\n"

/-- The lines about a module. -/
def bundleLines (b : Bundle) : String :=
  "  • " ++ b.output.text ++ " " ++ Text.sizeText b.size ++ "\n" ++
    match b.sourcemap with
    | some map => "    ↳ " ++ map.text ++ "\n"
    | none => ""

/-- What is printed last, given the time as it is shown. -/
def summary (bundles : List Bundle) (elapsed : String) : String :=
  "\n✓ Compiled " ++ toString bundles.length ++ " module(s) in " ++ elapsed ++ "\n\n" ++
    String.join (bundles.map bundleLines) ++ "\n"

/-- The options of a build. -/
def CompileArguments.options (a : CompileArguments) : BuildOptions where
  source := ⟨a.source⟩
  destination := ⟨a.destination⟩
  publicPrefix := a.address
  sourcemap := .whole a.sourcemap

/-- The configuration that the arguments ask for. -/
def loadConfig (a : CompileArguments) : Step Config := do
  match a.config with
  | some p =>
    Step.tell (.info ("Loading configuration from " ++ p))
    Config.load ⟨p⟩
  | none => Config.discover (← Step.files).current.path

/-- Builds what the arguments ask for, and gives the modules written. -/
def execute (a : CompileArguments) : Step (List Bundle) := do
  Step.print banner
  let config ← loadConfig a
  Step.print (announcement a.source)
  let bundler ← Step.ofExcept id config.bundler
  if a.all then bundler.compileAll a.options else bundler.compile a.options

end CommandLine
end ElementBuild
