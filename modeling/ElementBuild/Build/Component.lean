/-
# Compiling components

A component is a folder with an entry file, `index.` and an extension, and perhaps
the folders `assets` and `styles`.  Compiling it writes `index.js` into a folder of
its name below the destination, its assets and styles beside it, and perhaps a
source map.  Components that refer to each other are compiled in turn, to a depth.
-/
import ElementBuild.Build.Folder
import ElementBuild.Build.Relative
import ElementBuild.Build.Script

namespace ElementBuild

/-- The file of a source map, beside the module. -/
def sourcemapFile : String := "index.js.map"

/-- The name of a module. -/
def moduleFile : String := "index.js"

namespace Component

/-- The name of the component in a folder. -/
def nameOf (source : Path) : Step String :=
  match source.fileName? with
  | some name => return name
  | none => Step.fail (.stated ("Invalid component folder " ++ source.text))

/-- Whether an entry of a folder is an index file. -/
def isIndex (x : String × Entry) : Bool :=
  "index.".toList.isPrefixOf x.1.toList && match x.2 with
    | .file _ => true
    | _ => false

/-- The entry file of a component: the first index file of its folder. -/
def entryFile? (t : FileTree) (folder : Path) : Except FileError (Option Path) :=
  (t.list folder).map fun xs => (xs.find? isIndex).map fun x => folder.join ⟨x.1⟩

/-- The entry file of a component, as a step. -/
def findEntry (folder : Path) : Step (Option Path) :=
  Step.during (.readingFolder folder) (Step.fromFiles fun t => entryFile? t folder)

/-- The text of a module that a plugin gave, after the passes over it. -/
def finish (c : ComponentContext) (entry : Path) (o : CompileOutput) : Step CompileOutput := do
  let code ← match c.bundler.mappingPass? with
    | some pass => do
      let result ← pass.run o.code c.output c.resolutionPaths (← get).mapped
      pure result.code
    | none => pure o.code
  let code ← Step.during (.resolvingImports entry)
    (Relative.point code c.output c.resolutionPaths)
  Step.during (.minifying entry)
    (c.bundler.minify ⟨Reference.stripMarks code, o.map⟩ sourcemapFile)

/-- Writes a module and its source map, and records them. -/
def deliver (entry output : Path) (o : CompileOutput) : Step Unit := do
  let target := output.join ⟨moduleFile⟩
  Step.during (.writing target) (Step.write entry target o.code)
  let sourcemap ← match o.map with
    | some map => do
      let p := output.join ⟨sourcemapFile⟩
      Step.during (.writing p) (Step.write entry p map)
      pure (some p)
    | none => pure none
  Step.record ⟨target, o.code.utf8ByteSize, sourcemap⟩

/-- Runs the plugin for the entry file of a component, with no specifiers mapped
yet; what was mapped in the component around it is remembered. -/
def runPlugin (c : ComponentContext) (build : ComponentBuild) (plugin : Plugin) (entry : Path)
    (style : Option StylePreprocessor) : Step CompileOutput := do
  let code ← Step.during (.reading entry) (Step.read entry)
  Step.during (.compiling entry) (plugin.compile {
    code, filename := entry, sourcemap := c.options.sourcemap
    preprocessScript := c.preprocess build
    preprocessStyle := style })

/-- Copies the assets and styles of a component. -/
def copyFolders (c : ComponentContext) (style : Option StylePreprocessor) : Step Unit := do
  let copy (folder : String) (style : Option StylePreprocessor) : Step Nat :=
    FolderCopy.run ⟨c.options.source.join ⟨folder⟩, c.output.join ⟨folder⟩, style⟩
  discard <| copy "assets" none
  discard <| copy "styles" style

/-- Compiles a component, given its name and its entry file. -/
def compileFrom (b : Bundler) (build : ComponentBuild) (options : BuildOptions)
    (resolutionPaths : List Path) (name : String) (entry : Path) : Step Unit := do
  let plugin ← Step.refusing (b.registry.forExtension (entry.extension?.getD ""))
  let output := options.destination.join ⟨name⟩
  let c : ComponentContext := ⟨b, options, resolutionPaths, name, output⟩
  Step.tell (.info ("Compiling " ++ options.source.text ++ " with " ++ plugin.name))
  Copy.createFolder output
  let style := b.style.map fun factory => factory (options.publicPath name)
  copyFolders c style
  let outer := (← get).mapped
  modify fun s => { s with mapped := [] }
  let compiled ← runPlugin c build plugin entry style
  let module ← finish c entry compiled
  modify fun s => { s with mapped := outer }
  deliver entry output module

/-- Compiles a component; `build` compiles the components that it refers to. -/
def compileWith (b : Bundler) (build : ComponentBuild) (options : BuildOptions)
    (resolutionPaths : List Path) : Step Unit := do
  let name ← nameOf options.source
  match (← findEntry options.source) with
  | none =>
    Step.fail (.stated
      ("source file " ++ (options.source.join ⟨"index.*"⟩).text ++ " is missing"))
  | some entry =>
    Step.trace (.entered options.source entry)
    compileFrom b build options resolutionPaths name entry

/-- Compiles a component and the components that it refers to, to a depth. -/
def compile (b : Bundler) : Nat → ComponentBuild
  | 0 => fun _ _ => Step.fail .endless
  | depth + 1 => compileWith b (compile b depth)

/-- A depth that is never reached.  A component that is compiled on the way is recorded
by the canonical path of its file, which is short, and was not recorded before. -/
def depthLimit : Nat := Nat.pow 257 FileTree.pathLimit + 1

end Component
end ElementBuild
