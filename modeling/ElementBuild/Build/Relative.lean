/-
# Pointing relative references at their files

The relative references of a module are resolved from the folder of its output and
from further search paths, and written as the way from that folder to the file that
was found.
-/
import ElementBuild.Build.Session
import ElementBuild.Reference.Literal

namespace ElementBuild
namespace Relative

/-- Handles one reference of a module in a folder, which is also given by its
canonical path. -/
def pointReference (output folder : Path) (paths : List Path) (code : List Char)
    (draft : Text.Draft) (r : Reference) : Step Text.Draft := do
  let found ← Step.resolve r.target (output :: paths)
  match Path.specifierFrom? folder found with
  | none => return draft
  | some specifier =>
    match Reference.retarget? code r specifier with
    | none => return draft
    | some edit =>
      Step.trace (.pointed ⟨output, r.target, found, specifier⟩)
      Step.edit draft edit

/-- Points the relative references of a module at their files. -/
def point (code : String) (output : Path) (paths : List Path) : Step String := do
  let references ← Step.scan {} code
  let folder := ((← Step.files).canonical output).toOption.getD output
  let draft ← (references.filter fun r => Specifier.isRelative r.target).foldlM
    (pointReference output folder paths code.toList) (Text.Draft.ofString code)
  return draft.toString

end Relative
end ElementBuild
