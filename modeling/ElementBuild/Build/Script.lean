/-
# Preprocessing the scripts of a component

While a plugin compiles a component, its scripts go through four passes:

1. relative scripts are copied below the destination, and pointed to there,
2. mapping rules are applied,
3. the components that are referred to are compiled, once in a build, and their
   imports are marked imports of the outputs,
4. imports of assets become constants with the public addresses of the assets.
-/
import ElementBuild.Build.Options

namespace ElementBuild

/-- A component that is being compiled. -/
structure ComponentContext where
  bundler : Bundler
  options : BuildOptions
  /-- Where relative references are looked for. -/
  resolutionPaths : List Path
  name : String
  /-- The folder of the output. -/
  output : Path

/-- Compiles a component, given its options and resolution paths. -/
abbrev ComponentBuild := BuildOptions → List Path → Step Unit

namespace ComponentContext

/-- What is looked for in the scripts of a component. -/
def scanOptions (c : ComponentContext) : ScanOptions := { types := c.bundler.types }

/-- Copies the script that a reference names, and points the reference there. -/
def copyPlain (c : ComponentContext) (code : List Char) (draft : Text.Draft) (r : Reference) :
    Step Text.Draft := do
  let found ← Step.resolve r.target [c.options.source]
  let landing := Path.confine c.options.destination (c.output.join ⟨r.target⟩)
  Step.trace (.followed ⟨c.options.source, c.output, r.target, found, landing⟩)
  copyScript found landing c.options.destination
  let specifier := (Path.specifierFrom? c.output landing).getD r.target
  Step.edit draft (Reference.retarget code r.literal specifier)

/-- Copies the relative scripts that a script refers to. -/
def copyPlainCode (c : ComponentContext) (code : String) : Step String := do
  let references ← Step.scan c.scanOptions code
  let draft ← (references.filter (·.kind == .plainCode)).foldlM
    (c.copyPlain code.toList) (Text.Draft.ofString code)
  return draft.toString

/-- Applies the mapping rules to a script. -/
def mapCode (c : ComponentContext) (code : String) : Step String := do
  match c.bundler.mappingPass? with
  | none => return code
  | some pass =>
    let result ← pass.run code c.output c.resolutionPaths (← get).mapped
    modify fun s => { s with mapped := result.destinations ++ s.mapped }
    return result.code

/-- Compiles a component that is referred to by its folder and stem, and gives its
destination. -/
def compileDependency (c : ComponentContext) (build : ComponentBuild) (entry : Path)
    (folder stem : String) : Step Path := do
  match entry.parent? with
  | none => Step.fail (.stated ("No folder for component " ++ entry.text))
  | some source =>
    let destination := (c.options.destination.join ⟨folder⟩).join ⟨stem ++ ".js"⟩
    Step.attempt entry destination do
      Step.tell (.info ("Compiling dependency " ++ source.text))
      build { c.options with source } [source, c.output, c.options.source]
    return destination

/-- The import of a compiled component, which is marked. -/
def markedImport (isDynamic : Bool) (specifier : String) : String :=
  if isDynamic then "import('" ++ Reference.mark ++ specifier ++ "')"
  else "import '" ++ Reference.mark ++ specifier ++ "'"

/-- The link to the component that a reference names, which is compiled unless it
was already. -/
def link (c : ComponentContext) (build : ComponentBuild) (r : Reference) : Step ComponentLink := do
  match Target.componentParts? (r.sourceType.getD "") r.target with
  | none => Step.fail (.stated ("Invalid component reference " ++ r.target))
  | some (folder, stem) =>
    let entry ← Step.resolve r.target [c.options.source]
    match (← get).builds.get? entry with
    | some destination => return ⟨c.output, r.target, entry, destination, false⟩
    | none =>
      let destination ← c.compileDependency build entry folder stem
      return ⟨c.output, r.target, entry, destination, true⟩

/-- Puts the import of a compiled component in the place of a reference. -/
def compileReference (c : ComponentContext) (build : ComponentBuild) (draft : Text.Draft)
    (r : Reference) : Step Text.Draft := do
  let link ← c.link build r
  Step.trace (.linked link)
  Step.edit draft
    ⟨(markedImport r.isDynamic link.specifier).toList, r.statement.start, r.statement.stop⟩

/-- Compiles the components that a script refers to. -/
def compileComponents (c : ComponentContext) (build : ComponentBuild) (code : String) :
    Step String := do
  let references ← Step.scan c.scanOptions code
  let draft ← (references.filter (·.kind == .component)).foldlM
    (c.compileReference build) (Text.Draft.ofString code)
  return draft.toString

/-- A target without the dot and slash before it. -/
def withoutDot (target : String) : String :=
  match "./".toList.isPrefixOf? target.toList with
  | some rest => String.ofList rest
  | none => target

/-- The public address of an asset. -/
def assetAddress (c : ComponentContext) (target : String) : String :=
  c.options.publicPath c.name ++ "/" ++ withoutDot target

/-- What stands in the place of the import of an asset. -/
def assetStatement (r : Reference) (address : String) : String :=
  if r.isDynamic then "Promise.resolve(\x7b default: '" ++ address ++ "' \x7d)"
  else
    match r.defaultBinding <|> r.bindings.head? with
    | some binding => "const " ++ binding ++ " = '" ++ address ++ "'"
    | none => ""

/-- Puts a constant in the place of the import of an asset. -/
def inlineAsset (c : ComponentContext) (draft : Text.Draft) (r : Reference) : Step Text.Draft :=
  Step.edit draft ⟨(assetStatement r (c.assetAddress r.target)).toList,
    r.statement.start, r.statement.stop⟩

/-- Puts constants in the place of the imports of assets. -/
def inlineAssets (c : ComponentContext) (code : String) : Step String := do
  let references ← Step.scan {} code
  let draft ← (references.filter (·.kind == .asset)).foldlM c.inlineAsset (Text.Draft.ofString code)
  return draft.toString

/-- What is done to a script of a component. -/
def preprocess (c : ComponentContext) (build : ComponentBuild) (code : String) : Step String := do
  let code ← c.copyPlainCode code
  let code ← c.mapCode code
  let code ← c.compileComponents build code
  c.inlineAssets code

end ComponentContext
end ElementBuild
