/-
# Plugin registries

Plugins are registered under their names, and extensions are mapped to these.  The
extension `esm` is mapped to the plugin for plain scripts from the start.
-/
import ElementBuild.Plugin.Ecmascript

namespace ElementBuild

/-- The registered plugins, and the plugins that extensions are mapped to. -/
structure Registry where
  plugins : List (String × Plugin)
  extensions : List (String × String)

namespace Registry

/-- The registry with the plugin for plain scripts alone. -/
def initial : Registry :=
  ⟨[(Plugin.ecmascript.name, Plugin.ecmascript)], [("esm", Plugin.ecmascript.name)]⟩

/-- The value under a name. -/
def named? {α : Type} (xs : List (String × α)) (name : String) : Option α :=
  (xs.find? (·.1 == name)).map (·.2)

/-- Registers a plugin; one of the same name gives way. -/
def register (r : Registry) (p : Plugin) : Registry :=
  { r with plugins := Mapping.putNamed p.name p r.plugins }

/-- Maps an extension to a registered plugin. -/
def mapExtension (r : Registry) (extension id : String) : Except PluginFault Registry :=
  if (named? r.plugins id).isSome then
    .ok { r with extensions := Mapping.putNamed extension id r.extensions }
  else .error (.unknownPlugin id extension)

/-- The plugin for an extension. -/
def forExtension (r : Registry) (extension : String) : Except PluginFault Plugin :=
  match (named? r.extensions extension).bind (named? r.plugins) with
  | some p => .ok p
  | none => .error (.unknownExtension extension)

/-- The mapped extensions, in the order in which they were first mapped. -/
def types (r : Registry) : List String := r.extensions.map (·.1)

end Registry
end ElementBuild
