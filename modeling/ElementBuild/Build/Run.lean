/-
# Builds

`compile` builds one component and those that it refers to, `compileAll` every
component folder directly below a folder.  A component that the build has already
produced is not built again.
-/
import ElementBuild.Build.Component

namespace ElementBuild
namespace Bundler

/-- Compiles a component of the top level, unless the build has it already. -/
def compileEntry (b : Bundler) (options : BuildOptions) : Step Unit := do
  let name ← Component.nameOf options.source
  let output := options.destination.join ⟨name⟩
  let build := Component.compile b Component.depthLimit options [output, options.source]
  match (← Component.findEntry options.source) with
  | none => build
  | some entry =>
    let canonical ← Step.during (.resolvingEntry entry) (Step.fromFiles fun t => t.canonical entry)
    match (← get).builds.get? canonical with
    | some _ => return
    | none => Step.attempt canonical (output.join ⟨moduleFile⟩) build

/-- The options of a build with absolute paths, if they can be built. -/
def prepare (b : Bundler) (options : BuildOptions) : Step BuildOptions := do
  if options.source.text.isEmpty then Step.fail (.stated "source file must be provided")
  if options.destination.text.isEmpty then Step.fail (.stated "destination file must be provided")
  if !b.table.isEmpty && b.workingDir.isNone then
    Step.fail (.stated "a working directory must be provided alongside modules_mapping")
  match options.publicPrefix, b.style with
  | some address, none =>
    Step.tell (.warning ("prefix (" ++ address ++ ") is useless without a style preprocessor"))
  | _, _ => pure ()
  let current := (← Step.files).current.path
  return { options with
    source := Path.absolutize current options.source
    destination := Path.absolutize current options.destination }

/-- Builds a component and the components that it refers to, and gives all modules
written. -/
def compile (b : Bundler) (options : BuildOptions) : Step (List Bundle) := do
  let options ← b.prepare options
  modify Session.restart
  b.compileEntry options
  return (← get).bundles

/-- Whether an entry of a folder is the folder of a component. -/
def isComponent (t : FileTree) (folder : Path) (x : String × Entry) : Bool :=
  match x.2, Component.entryFile? t (folder.join ⟨x.1⟩) with
  | .folder, .ok (some _) => true
  | _, _ => false

/-- Builds every component directly below a folder. -/
def compileAll (b : Bundler) (options : BuildOptions) : Step (List Bundle) := do
  let options ← b.prepare options
  modify Session.restart
  let entries ← Step.during (.readingFolder options.source)
    (Step.fromFiles fun t => t.list options.source)
  let t ← Step.files
  let folders := (entries.filter (isComponent t options.source)).map fun x =>
    options.source.join ⟨x.1⟩
  Step.tell (.info ("Compiling " ++ toString folders.length ++ " components from " ++
    options.source.text))
  folders.forM fun source => b.compileEntry { options with source }
  return (← get).bundles

end Bundler
end ElementBuild
