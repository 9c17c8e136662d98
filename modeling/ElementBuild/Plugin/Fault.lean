/-
# Faults of plugins

What a compiler plugin refuses, and why.
-/
import ElementBuild.Path.Basic

namespace ElementBuild

/-- Why a plugin refuses a component. -/
inductive PluginFault where
  | missingCode
  | missingDefaultExport
  | missingFilename
  | invalidElementName (name : String)
  | missingSource (path : Path)
  /-- The option as it is written, and the form that is asked for. -/
  | invalidSourcemap (expected actual : String)
  /-- The message of a command that failed, and the position that it names. -/
  | compiler (file : Path) (line column : Nat) (message : String)
  | unknownExtension (extension : String)
  | unknownPlugin (id extension : String)
  deriving DecidableEq, Repr

namespace PluginFault

/-- What is wrong. -/
def message : PluginFault → String
  | missingCode => "code must be provided"
  | missingDefaultExport =>
    "Plain JS component must have the component class name as a default export " ++
      "(`export default class ComponentClassName ...` or `export default ComponentClassName`)"
  | missingFilename => "filename must be a non-empty string"
  | invalidElementName name =>
    "filename must match custom element name pattern (my_awesome_component). Actual \"" ++
      name ++ "\""
  | missingSource path => "source file " ++ path.text ++ " is missing"
  | invalidSourcemap expected actual =>
    "enableSourcemap has a wrong format (" ++ expected ++ "). Actual " ++ actual
  | compiler file line column message =>
    "source: " ++ file.text ++ " - " ++ message ++ "\n\tline: " ++ toString line ++
      ", column: " ++ toString column
  | unknownExtension extension => "no compiler plugin registered for ." ++ extension ++ " files"
  | unknownPlugin id extension =>
    "unknown compiler plugin '" ++ id ++ "' for ." ++ extension ++ " files"

end PluginFault
end ElementBuild
