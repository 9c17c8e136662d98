/-
# Project configuration

A project is configured by a TOML file:

| key | what it says | if absent |
| --- | --- | --- |
| `copy_modules` | whether mapped modules are copied if their rule does not say | no |
| `modules_mapping` | the mapping rules, tried in their order | none |
| `compilers` | the plugin for each extension | none |
| `plugins` | commands that compile components | none |
| `style` | how styles are preprocessed | not at all |

Other keys mean nothing.  A plugin or the style may also be written as an array of
its values in order.
-/
import ElementBuild.Build.Options
import ElementBuild.Plugin.Command
import ElementBuild.Toml.Reader

namespace ElementBuild

/-- A project configuration. -/
structure Config where
  copyModules : Bool := false
  mapping : List (String × Mapping.Rule) := []
  compilers : List (String × String) := []
  plugins : List CommandConfig := []
  /-- Whether addresses in styles are rebased, if styles are mentioned. -/
  style : Option Bool := none
  /-- The folder that mapping rules are relative to. -/
  root : Option Path := none
  deriving DecidableEq, Repr

namespace Config

/-- The name of the file. -/
def fileName : String := "component.toml"

/-- A value that may be left out and has to be readable else. -/
def optional? {α : Type} (read? : Toml → Option α) (entries : List (String × Toml))
    (key : String) : Option (Option α) :=
  match Toml.member? entries key with
  | none => some none
  | some v => (read? v).map some

/-- The rule that a value writes. -/
def rule? : Toml → Option Mapping.Rule
  | .string s => some (.replace s)
  | v => do
    let entries ← v.entries?
    let aliased ← optional? Toml.string? entries "alias"
    let destination ← optional? Toml.string? entries "destination"
    let copies ← optional? Toml.bool? entries "copy_module"
    some (.detailed aliased destination copies)

/-- Values under their keys, all of which have to be readable. -/
def named? {α : Type} (read? : Toml → Option α) (v : Toml) : Option (List (String × α)) := do
  let entries ← v.entries?
  entries.mapM fun (key, v) => (read? v).map (key, ·)

/-- Texts in an array. -/
def strings? (v : Toml) : Option (List String) := v.items?.bind (·.mapM Toml.string?)

/-- The entries of a value that lists the given keys: those of a table, or the
items of an array in the order of the keys. -/
def fields? (keys : List String) : Toml → Option (List (String × Toml))
  | .array items => some (keys.zip items)
  | v => v.entries?

/-- The command that a value writes. -/
def command? (v : Toml) : Option CommandConfig := do
  let entries ← fields? ["name", "command", "args", "custom_element"] v
  let name ← (Toml.member? entries "name").bind Toml.string?
  let command ← (Toml.member? entries "command").bind Toml.string?
  let arguments ← optional? strings? entries "args"
  let customElement ← optional? Toml.bool? entries "custom_element"
  some ⟨name, command, arguments.getD [], customElement.getD true⟩

/-- Whether addresses in styles are rebased, by the value that says so. -/
def style? (v : Toml) : Option Bool := do
  let entries ← fields? ["rebase_urls"] v
  let rebases ← optional? Toml.bool? entries "rebase_urls"
  some (rebases.getD true)

/-- The configuration that a document writes. -/
def ofEntries? (entries : List (String × Toml)) : Option Config := do
  let copyModules ← optional? Toml.bool? entries "copy_modules"
  let mapping ← optional? (named? rule?) entries "modules_mapping"
  let compilers ← optional? (named? Toml.string?) entries "compilers"
  let plugins ← optional? (fun v => v.items?.bind (·.mapM command?)) entries "plugins"
  let style ← optional? style? entries "style"
  some {
    copyModules := copyModules.getD false
    mapping := mapping.getD []
    compilers := compilers.getD []
    plugins := plugins.getD []
    style }

/-- The configuration that a text writes. -/
def ofText? (text : String) : Option Config := (Toml.read? text).bind ofEntries?

/-- The mapping table. -/
def table (c : Config) : Except Mapping.BadKey Mapping.Table := Mapping.Table.ofEntries c.mapping

/-- The registry with the configured plugins and extensions. -/
def registry (c : Config) : Except PluginFault Registry :=
  let registered := c.plugins.foldl (fun r p => r.register (Plugin.command p)) Registry.initial
  c.compilers.foldlM (fun r (extension, id) => r.mapExtension extension id) registered

/-- The style preprocessors, if styles are preprocessed. -/
def styles (c : Config) : Option StyleFactory :=
  if c.style = some true then some Style.rebasing else none

/-- Refuses a configuration that no project can be built with. -/
def check (c : Config) : Except Fault Unit := do
  if !c.mapping.isEmpty && c.root.isNone then
    throw (.stated "a working directory must be provided alongside modules_mapping")
  let _ ← c.table.mapError Fault.mapping
  let _ ← c.registry.mapError Fault.plugin
  return

/-- The bundler of a project. -/
def bundler (c : Config) : Except Fault Bundler := do
  let registry ← c.registry.mapError Fault.plugin
  let table ← c.table.mapError Fault.mapping
  return {
    registry, table
    workingDir := c.root
    copyModules := c.copyModules
    style := c.styles }

end Config
end ElementBuild
