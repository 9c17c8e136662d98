/-
# What is built

A build takes component folders and writes each of them below a destination.  A
*bundler* is all that the builds of a project share.
-/
import ElementBuild.Build.Minify
import ElementBuild.Mapping.Pass
import ElementBuild.Plugin.Registry
import ElementBuild.Style.Component

namespace ElementBuild

/-- What to compile and where to. -/
structure BuildOptions where
  /-- The folder of a component, or of components. -/
  source : Path
  /-- The folder that outputs lie below. -/
  destination : Path
  /-- The address under which the destination is served. -/
  publicPrefix : Option String := none
  sourcemap : SourcemapOption := .whole false
  deriving Repr

namespace BuildOptions

/-- A text without slashes at its end. -/
def trimSlashes (s : String) : String :=
  String.ofList (s.toList.reverse.dropWhile (· == '/')).reverse

/-- The address under which a component is served. -/
def publicPath (o : BuildOptions) (component : String) : String :=
  match o.publicPrefix with
  | some address => trimSlashes address ++ "/" ++ component
  | none => component

end BuildOptions

/-- What the builds of a project share. -/
structure Bundler where
  registry : Registry := .initial
  table : Mapping.Table := {}
  /-- The folder that mapping rules are relative to. -/
  workingDir : Option Path := none
  /-- Whether mapped modules are copied if their rule does not say. -/
  copyModules : Bool := false
  style : Option StyleFactory := none
  minify : Minifier := Minify.passthrough

namespace Bundler

/-- The component types. -/
def types (b : Bundler) : List String := b.registry.types

/-- The bundler with a plugin for some extensions. -/
def withPlugin (b : Bundler) (p : Plugin) (extensions : List String) :
    Except PluginFault Bundler := do
  let registry ← extensions.foldlM (fun r e => r.mapExtension e p.name) (b.registry.register p)
  return { b with registry }

/-- The mapping pass of a build, if there are rules. -/
def mappingPass? (b : Bundler) : Option Mapping.Pass :=
  if b.table.isEmpty then none
  else b.workingDir.map fun dir => ⟨b.table, dir, b.copyModules, b.types⟩

end Bundler
end ElementBuild
