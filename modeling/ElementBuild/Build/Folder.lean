/-
# Copying folders

A folder is copied with all that lies below it: first the folder itself, then what
it held when it was entered, in the order of the names.  Stylesheets go through a
preprocessor if there is one.
-/
import ElementBuild.Build.Copy
import ElementBuild.Plugin.Basic

namespace ElementBuild

/-- What is copied where. -/
structure FolderCopy where
  source : Path
  target : Path
  style : Option StylePreprocessor := none

namespace FolderCopy

/-- The path of something below the source, and of the source itself. -/
def sourceOf (c : FolderCopy) (relative : String) : Path :=
  if relative.isEmpty then c.source else c.source.join ⟨relative⟩

/-- The path that it is copied to. -/
def targetOf (c : FolderCopy) (relative : String) : Path := c.target.join ⟨relative⟩

/-- The name of an entry below a folder. -/
def below (relative name : String) : String :=
  if relative.isEmpty then name else relative ++ "/" ++ name

/-- Copies a file. -/
def copyFile (c : FolderCopy) (relative : String) : Step Unit := do
  let source := c.sourceOf relative
  let target := c.targetOf relative
  match c.style with
  | some preprocess =>
    if source.extension? = some "css" then do
      let css ← Step.during (.reading source) (Step.read source)
      let processed ← preprocess css source
      Step.during (.writing target) (Step.write source target processed)
    else verbatim source target
  | none => verbatim source target
where
  verbatim (source target : Path) : Step Unit :=
    Step.during (.copying source target)
      (Step.deliver source target fun t => t.copyFile source target)

/-- Copies an entry, folders by `deeper`, and adds the number of files to a
count. -/
def copyEntry (c : FolderCopy) (deeper : String → Step Nat) (relative : String) (count : Nat)
    (x : String × Entry) : Step Nat := do
  match x.2 with
  | .folder => return count + (← deeper (below relative x.1))
  | _ => do
    c.copyFile (below relative x.1)
    return count + 1

/-- Copies a folder to a depth, and gives the number of files. -/
def copyBelow (c : FolderCopy) : Nat → String → Step Nat
  | 0, _ => Step.fail .endless
  | depth + 1, relative => do
    let entries := ((← Step.files).list (c.sourceOf relative)).toOption.getD []
    Copy.createFolder (c.targetOf relative)
    entries.foldlM (c.copyEntry (c.copyBelow depth) relative) 0

/-- A depth that is never reached: a path this deep is too long to be listed. -/
def depthLimit : Nat := FileTree.pathLimit + 2

/-- Copies a folder, and gives the number of files; nothing is copied if it does
not exist. -/
def run (c : FolderCopy) : Step Nat := do
  let t ← Step.files
  if t.isFolder c.source then
    if t.isLink c.source then
      c.copyFile ""
      return 1
    else c.copyBelow depthLimit ""
  else return 0

end FolderCopy
end ElementBuild
