/-
# Preprocessing the styles of components

Each component has a preprocessor of its own, made from the folder under which the
component is served.
-/
import ElementBuild.Plugin.Basic
import ElementBuild.Style.Rebase

namespace ElementBuild
namespace Style

/-- The preprocessor that rebases addresses to a folder. -/
def rebasing (folder : String) : StylePreprocessor := fun css _ => return rebase folder css

end Style

/-- Makes the style preprocessor of a component from its public folder. -/
abbrev StyleFactory := String → StylePreprocessor

end ElementBuild
