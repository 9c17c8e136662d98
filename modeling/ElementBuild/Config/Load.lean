/-
# Loading configurations

A configuration is read from a file, and its mapping rules are relative to the
folder of that file.  Where a folder has no file of the usual name, the default
configuration holds.
-/
import ElementBuild.Config.Basic

namespace ElementBuild
namespace Config

/-- Loads a configuration from a file. -/
def load (p : Path) : Step Config := do
  let path := (← Step.files).current.path.join p
  let text ← Step.during (.readingConfig path) (Step.read path)
  match ofText? text with
  | none => Step.during (.parsing path) (Step.fail (.outside .toml))
  | some c =>
    let c := { c with root := path.parent? }
    Step.ofExcept id c.check
    return c

/-- The configuration of a folder. -/
def discover (folder : Path) : Step Config := do
  let candidate := folder.join ⟨fileName⟩
  if (← Step.files).isFile candidate then load candidate else return {}

end Config
end ElementBuild
